namespace EntityDiagram.Configuration

/-- How a table came about: on the way to another one, by a dotted key, by a header of its own, or
between braces. -/
inductive Origin
  | implied
  | dotted
  | header
  | inline
deriving DecidableEq

inductive Node
  | text (content : String)
  | number
  | boolean
  | moment
  | array (items : List Node)
  | table (origin : Origin) (entries : List (String × Node))
  /-- Tables with one repeated header, the newest first. -/
  | tables (elements : List Node)

def set (key : String) (value : Node) : List (String × Node) → List (String × Node)
  | [] => [(key, value)]
  | (k, v) :: entries => if k = key then (k, value) :: entries else (k, v) :: set key value entries

namespace Node

/-- Whether a path may lead into a table. A dotted key leads into no table with a header of its own,
and nothing leads into braces. -/
def mayEnter (byDots : Bool) : Origin → Bool
  | .implied => true
  | .dotted => true
  | .header => !byDots
  | .inline => false

/-- Changes the table at the end of a path; the tables missing on the way come about. A path leads
into the newest of tables with one header. -/
def update (byDots : Bool) (change : Node → Option Node) : List String → Node → Option Node
  | [], node => change node
  | key :: path, .table origin entries =>
    match entries.lookup key with
    | none => do
      let made ← update byDots change path (.table (if byDots then .dotted else .implied) [])
      return .table origin (set key made entries)
    | some (.table inner items) =>
      if mayEnter byDots inner then do
        let changed ← update byDots change path (.table inner items)
        return .table origin (set key changed entries)
      else none
    | some (.tables (newest :: earlier)) => do
      let changed ← update byDots change path newest
      return .table origin (set key (.tables (changed :: earlier)) entries)
    | some _ => none
  | _ :: _, _ => none

def insertNew (byDots : Bool) (key : String) (value : Node) : Node → Option Node
  | .table origin entries =>
    if (origin = .dotted) = byDots ∧ (entries.lookup key).isNone then
      some (.table origin (set key value entries))
    else none
  | _ => none

def assign (path : List String) (key : String) (value : Node) : Node → Option Node :=
  update true (insertNew (!path.isEmpty) key value) path

def openTable (key : String) : Node → Option Node
  | .table origin entries =>
    match entries.lookup key with
    | none => some (.table origin (set key (.table .header []) entries))
    | some (.table .implied items) => some (.table origin (set key (.table .header items) entries))
    | some _ => none
  | _ => none

def openElement (key : String) : Node → Option Node
  | .table origin entries =>
    match entries.lookup key with
    | none => some (.table origin (set key (.tables [.table .header []]) entries))
    | some (.tables elements) =>
      some (.table origin (set key (.tables (.table .header [] :: elements)) entries))
    | some _ => none
  | _ => none

def ofPairs (pairs : List ((List String × String) × Node)) : Option Node :=
  pairs.foldlM (fun table pair => assign pair.1.1 pair.1.2 pair.2 table) (.table .inline [])

end Node

end EntityDiagram.Configuration

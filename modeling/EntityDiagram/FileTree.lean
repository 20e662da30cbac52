import EntityDiagram.FileFault
import EntityDiagram.Text

namespace EntityDiagram

abbrev Place := List String

inductive Entry
  | directory
  | text (content : String)
  | binary
deriving DecidableEq

/-- A path as it is walked. One that ends in a slash leads to directories only. -/
structure FilePath where
  isAbsolute : Bool
  names : List String
  endsInSlash : Bool
deriving DecidableEq

namespace FilePath

def sizeLimit : Nat := 4096

def nameLimit : Nat := 255

def ofString (path : String) : Except FileFault FilePath :=
  let cs := path.toList
  if cs.contains '\x00' then .error .nulInName
  else if cs.isEmpty then .error .notFound
  else if sizeLimit ≤ path.utf8ByteSize then .error .nameTooLong
  else
    .ok {
      isAbsolute := cs.head? = some '/'
      names := ((pieces (· == '/') cs).filter (! ·.isEmpty)).map String.ofList
      endsInSlash := cs.getLast? = some '/' }

end FilePath

/-- The entries of a tree, of which the newest of one place counts, and the place where relative
paths start. The root is always a directory. -/
structure FileTree where
  workingDirectory : Place
  entries : List (Place × Entry)

namespace FileTree

def entryAt? (t : FileTree) (place : Place) : Option Entry :=
  if place = [] then some .directory else t.entries.lookup place

def start (t : FileTree) (path : FilePath) : Place :=
  if path.isAbsolute then [] else t.workingDirectory

def child (t : FileTree) (place : Place) (name : String) : Except FileFault Place :=
  match t.entryAt? place with
  | none => .error .notFound
  | some .directory =>
    if name = "." then .ok place
    else if name = ".." then .ok place.dropLast
    else if FilePath.nameLimit < name.utf8ByteSize then .error .nameTooLong
    else .ok (place ++ [name])
  | some _ => .error .notADirectory

def step (t : FileTree) (place : Place) (name : String) : Except FileFault Place := do
  let next ← t.child place name
  if (t.entryAt? next).isSome then return next else throw .notFound

def walk (t : FileTree) (origin : Place) (names : List String) : Except FileFault Place :=
  names.foldlM t.step origin

def find (t : FileTree) (path : String) : Except FileFault Entry := do
  let p ← FilePath.ofString path
  match t.entryAt? (← t.walk (t.start p) p.names) with
  | none => throw .notFound
  | some entry => if p.endsInSlash && entry != .directory then throw .notADirectory else return entry

def isPresent (t : FileTree) (path : String) : Bool := (t.find path).isOk

def readText (t : FileTree) (path : String) : Except FileFault String := do
  match ← t.find path with
  | .text content => return content
  | .directory => throw .isADirectory
  | .binary => throw .notUtf8

/-- The place that a path names for a file to be written, which has to be in a directory. -/
def target (t : FileTree) (path : String) : Except FileFault Place := do
  let p ← FilePath.ofString path
  match p.names.getLast? with
  | none => throw .isADirectory
  | some name =>
    let parent ← t.walk (t.start p) p.names.dropLast
    if p.endsInSlash && t.entryAt? parent = some .directory then throw .isADirectory
    let place ← t.child parent name
    if t.entryAt? place = some .directory then throw .isADirectory
    return place

def put (t : FileTree) (place : Place) (entry : Entry) : FileTree :=
  { t with entries := (place, entry) :: t.entries }

def writeText (t : FileTree) (path content : String) : Except FileFault FileTree :=
  (t.target path).map fun place => t.put place (.text content)

def plant (t : FileTree) (place : Place) (entry : Entry) : FileTree :=
  ((List.range place.length).foldl (fun t n => t.put (place.take n) .directory) t).put place entry

def ofWorkingDirectory (place : Place) : FileTree :=
  FileTree.plant ⟨place, []⟩ place .directory

theorem entryAt?_put_self {t : FileTree} {place : Place} {entry : Entry} (h : place ≠ []) :
    (t.put place entry).entryAt? place = some entry := by
  simp [entryAt?, put, h]

theorem entryAt?_put_of_ne {t : FileTree} {place other : Place} {entry : Entry}
    (h : other ≠ place) : (t.put place entry).entryAt? other = t.entryAt? other := by
  have hb : (other == place) = false := beq_eq_false_iff_ne.mpr h
  simp only [entryAt?, put, List.lookup_cons, hb]

end FileTree

end EntityDiagram

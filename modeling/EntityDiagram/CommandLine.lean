import EntityDiagram.Arguments
import EntityDiagram.Text

namespace EntityDiagram

inductive Slot
  | config
  | logLevel
  | schema
  | output
  | sql
  | envFile
deriving DecidableEq

namespace Slot

def longName : Slot → Option String
  | config => some "config"
  | logLevel => some "log-level"
  | schema => none
  | output => some "output"
  | sql => some "sql"
  | envFile => some "env-file"

def shortName : Slot → Option Char
  | config => some 'c'
  | output => some 'o'
  | _ => none

def admits (slot : Slot) (value : String) : Bool := slot = logLevel || !value.isEmpty

end Slot

inductive Level
  | root
  | behind (command : CommandName)
deriving DecidableEq

namespace Level

def options : Level → List Slot
  | root => [.config, .logLevel]
  | behind .diagram => [.config, .logLevel, .output]
  | behind .dbSync => [.config, .logLevel, .sql, .envFile]
  | behind .seed => [.config, .logLevel, .envFile]

def positional : Level → Option Slot
  | behind .diagram => some .schema
  | _ => none

def ofLongName? (level : Level) (name : String) : Option Slot :=
  level.options.find? (·.longName == some name)

def ofShortName? (level : Level) (name : Char) : Option Slot :=
  level.options.find? (·.shortName == some name)

end Level

def helpCommand : String := "help"

def isCommand (word : String) : Bool :=
  word == helpCommand || (CommandName.ofWord? word).isSome

def displayOf? (level : Level) (longName : String) : Option Refusal :=
  if longName = "help" then some .helpWanted
  else if longName = "version" ∧ level = .root then some .versionWanted
  else none

def displayName : Char → String
  | 'h' => "help"
  | 'V' => "version"
  | _ => ""

/-- How far a level has been read: the values recorded, the argument that waits, perhaps for its
value, and whether a double dash has ended the options. -/
structure Progress where
  given : List (Slot × String) := []
  waiting : Option (Slot × Option String) := none
  optionsEnded : Bool := false
deriving DecidableEq

namespace Progress

def value? (p : Progress) (slot : Slot) : Option String := p.given.lookup slot

/-- Records a value. An argument given twice is refused before its value is looked at. -/
def record (p : Progress) (slot : Slot) (value : String) : Except Refusal Progress :=
  if (p.value? slot).isSome then .error .repeatedOption
  else if slot.admits value then .ok { p with given := (slot, value) :: p.given }
  else .error .badValue

def settle (p : Progress) : Except Refusal Progress :=
  match p.waiting with
  | none => .ok p
  | some (_, none) => .error .badValue
  | some (slot, some value) => { p with waiting := none }.record slot value

def await (p : Progress) (slot : Slot) (value : Option String) : Except Refusal Progress := do
  return { ← p.settle with waiting := some (slot, value) }

def take (p : Progress) (slot : Slot) (value : String) : Except Refusal Progress := do
  (← p.settle).record slot value

def stop (p : Progress) (why : Refusal) : Except Refusal Progress := do
  let _ ← p.settle
  throw why

def expecting? (p : Progress) : Option Slot :=
  match p.waiting with
  | some (slot, none) => some slot
  | _ => none

def mentions (p : Progress) (slot : Slot) : Bool :=
  (p.value? slot).isSome || p.waiting.any (·.1 = slot)

end Progress

def splitAtEquals (cs : List Char) : String × Option String :=
  (String.ofList (cs.takeWhile (· != '=')),
    (after? ['='] (cs.dropWhile (· != '='))).map String.ofList)

namespace Level

def readLong (level : Level) (p : Progress) (cs : List Char) : Except Refusal Progress :=
  match splitAtEquals cs with
  | (name, value) =>
    match level.ofLongName? name, displayOf? level name, value with
    | some slot, _, none => p.await slot none
    | some slot, _, some value => p.take slot value
    | none, some _, some _ => .error .surplusValue
    | none, some display, none => p.stop display
    | none, none, _ => .error .unknownArgument

/-- Reads what stands behind a single dash: a letter, and perhaps its value, with an equals sign
before it or without. -/
def readShort (level : Level) (p : Progress) (letter : Char) (rest : List Char) :
    Except Refusal Progress :=
  match level.ofShortName? letter, displayOf? level (displayName letter) with
  | some slot, _ =>
    if rest.isEmpty then p.await slot none
    else p.take slot (String.ofList ((after? ['='] rest).getD rest))
  | none, some display => p.stop display
  | none, none => .error .unknownArgument

/-- Reads a word that has no name: the value of the option that waits for one, or the argument
without a name. Before the command such a word is taken for one that does not exist, unless it does
and stands behind a double dash. -/
def readPlain (level : Level) (p : Progress) (word : String) : Except Refusal Progress :=
  match if p.optionsEnded then none else p.expecting? with
  | some slot => .ok { p with waiting := some (slot, some word) }
  | none =>
    match level.positional with
    | some slot => if p.mentions slot then .error .unknownArgument else p.await slot (some word)
    | none =>
      if level = .root ∧ ¬(p.optionsEnded ∧ isCommand word) then .error .unknownCommand
      else .error .unknownArgument

def readWord (level : Level) (p : Progress) (word : String) : Except Refusal Progress :=
  if p.optionsEnded then level.readPlain p word
  else
    match word.toList with
    | ['-', '-'] => .ok { p with optionsEnded := true }
    | '-' :: '-' :: cs => level.readLong p cs
    | '-' :: letter :: rest => level.readShort p letter rest
    | _ => level.readPlain p word

def readWords (level : Level) (words : List String) : Except Refusal Progress := do
  (← words.foldlM level.readWord {}).settle

end Level

def helpOn : List String → Refusal
  | [] => .helpWanted
  | [word] => if isCommand word then .helpWanted else .unknownCommand
  | _ => .unknownCommand

/-- The arguments of a command, with the values given before it and behind it. The options that may
stand at any level count behind it first. -/
def assemble (before behind : Progress) (command : CommandName) : Arguments where
  config := behind.value? .config <|> before.value? .config
  logLevel := (behind.value? .logLevel <|> before.value? .logLevel).getD defaultLogLevel
  command :=
    match command with
    | .diagram => .diagram (behind.value? .schema) (behind.value? .output)
    | .dbSync => .dbSync (behind.value? .sql) (behind.value? .envFile)
    | .seed => .seed (behind.value? .envFile)

/-- Whether a word is taken for a command: not where an option waits for its value, and not behind a
double dash. -/
def namesCommand (p : Progress) (word : String) : Bool :=
  !p.optionsEnded && p.expecting?.isNone && isCommand word

def readFrom (p : Progress) : List String → Except Refusal Arguments
  | [] => do
    let p ← p.settle
    throw (if p.given.isEmpty then .emptyCommandLine else .missingCommand)
  | word :: words =>
    if namesCommand p word then
      match CommandName.ofWord? word with
      | none => .error (helpOn words)
      | some command => do
        let behind ← (Level.behind command).readWords words
        return assemble (← p.settle) behind command
    else do readFrom (← Level.root.readWord p word) words

/-- Reads a command line, without the name of the program. -/
def Arguments.ofWords (words : List String) : Except Refusal Arguments := readFrom {} words

end EntityDiagram

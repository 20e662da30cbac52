import EntityDiagram.Launch

namespace EntityDiagram.Main

def faultOfCode? (code : UInt32) : Option FileFault :=
  match (min code (0 - code)).toNat with
  | 2 => some .notFound
  | 20 => some .notADirectory
  | 21 => some .isADirectory
  | 36 => some .nameTooLong
  | _ => none

def codeOf? : IO.Error → Option UInt32
  | .noFileOrDirectory _ code _ => some code
  | .inappropriateType _ code _ => some code
  | .invalidArgument _ code _ => some code
  | .otherError code _ => some code
  | _ => none

def faultOf (e : IO.Error) : FileFault :=
  ((codeOf? e).bind faultOfCode?).getD (.other (toString e))

def guarded {α : Type} (action : IO α) : IO (Except FileFault α) :=
  try return .ok (← action) catch e => return .error (faultOf e)

def readText (path : String) : IO (Except FileFault String) := do
  match ← guarded (IO.FS.readBinFile path) with
  | .error fault => return .error fault
  | .ok bytes =>
    match String.fromUTF8? bytes with
    | some text => return .ok text
    | none => return .error .notUtf8

/-- The host of the system, which has no way to a database. -/
def host : Host IO where
  valueOf? name := IO.getEnv name
  isPresent path := return (← guarded (IO.FS.realPath path)).isOk
  readText := readText
  writeText path content := guarded (IO.FS.writeFile path content)
  print text := IO.print text
  atDatabase _ _ := return .error "no database driver"

def report : Ending → List String
  | .failed _ failure =>
    [failure.code, failure.message] ++ (failure.help.map ("help: " ++ ·)).toList
  | .refused why => if why.display?.isSome then [] else [usage]
  | .completed _ => []

end EntityDiagram.Main

open EntityDiagram in
def main (words : List String) : IO UInt32 := do
  let ending ← launch Main.host words
  for line in ending.notice?.toList ++ Main.report ending do
    IO.eprintln line
  return ending.exitCode.toUInt32

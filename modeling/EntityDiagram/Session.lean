import EntityDiagram.FileTree
import EntityDiagram.Launch

namespace EntityDiagram

structure Session where
  files : FileTree
  environment : List (String × String) := []
  database : String → DatabaseTask → Except String Unit := fun _ _ => .error "no database"
  printed : String := ""

namespace Session

/-- The value of a variable, for which the first text `name=value` that begins with the name and an
equals sign counts. -/
def valueOf? (s : Session) (name : String) : Option String :=
  if name.isEmpty then none
  else
    s.environment.findSome? fun (defined, value) =>
      (after? (name.toList ++ ['=']) (defined.toList ++ '=' :: value.toList)).map String.ofList

def writeText (s : Session) (path content : String) : Except FileFault Unit × Session :=
  match s.files.writeText path content with
  | .ok files => (.ok (), { s with files })
  | .error fault => (.error fault, s)

def host : Host (StateM Session) where
  valueOf? name := return (← get).valueOf? name
  isPresent path := return (← get).files.isPresent path
  readText path := return (← get).files.readText path
  writeText path content := modifyGet (·.writeText path content)
  print text := modify fun s => { s with printed := s.printed ++ text }
  atDatabase url task := return (← get).database url task

def run (s : Session) (args : Arguments) : Except Failure Unit × Session :=
  ((host.run args).run).run s

def launch (s : Session) (words : List String) : Ending × Session :=
  (EntityDiagram.launch host words).run s

end Session

end EntityDiagram

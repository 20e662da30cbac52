import EntityDiagram.Arguments
import EntityDiagram.Failure
import EntityDiagram.Drawing
import EntityDiagram.Host
import EntityDiagram.Resolver
import EntityDiagram.Settings

namespace EntityDiagram

variable {m : Type → Type} [Monad m]

def orFail {ε α : Type} (failure : ε → Failure) (operation : m (Except ε α)) :
    ExceptT Failure m α :=
  ExceptT.mk ((·.mapError failure) <$> operation)

namespace Host

def projectFile : String := "schemaviz/config.toml"

/-- The configuration file of a user: in the directory that is set for such files, if its path is
absolute, else below the home directory that the environment names. The system's records of its
users, which may name a home directory where the environment names none, are not asked. -/
def userFile? (h : Host m) : m (Option String) := do
  let configured ← h.valueOf? "XDG_CONFIG_HOME"
  let home ← h.valueOf? "HOME"
  match home.filter (! ·.isEmpty) with
  | none => return none
  | some home =>
    let directory := (configured.filter (·.toList.head? = some '/')).getD (home ++ "/.config")
    return some (directory ++ "/" ++ projectFile)

/-- The one configuration file that counts: the given one, or else the first that is there. -/
def configurationFile? (h : Host m) : Option String → m (Option String)
  | some path => return some path
  | none => do
    if ← h.isPresent projectFile then return some projectFile
    match ← h.userFile? with
    | none => return none
    | some path => if ← h.isPresent path then return some path else return none

def loadFile (h : Host m) (path : String) : ExceptT Failure m Settings := do
  unless ← h.isPresent path do throw (.configurationMissing path)
  let text ← orFail .fileAccess (h.readText path)
  match Overrides.read? text with
  | some overrides => return overrides.complete
  | none => throw .configurationMalformed

def loadSettings (h : Host m) (given : Option String) : ExceptT Failure m Settings := do
  match ← h.configurationFile? given with
  | some path => h.loadFile path
  | none => return .default

def envFileState (h : Host m) (path : String) : m EnvFileState := do
  if ← h.isPresent path then
    match ← h.readText path with
    | .ok content => return .readable content
    | .error fault => return .unreadable fault
  else return .absent

def resolve (h : Host m) (r : Resolver) : m Resolution := do
  let value ← h.valueOf? r.key
  if (Resolver.nonEmpty? value).isSome then return r.resolve value .absent
  else return r.resolve value (← h.envFileState r.envFile)

def connectionString (h : Host m) (r : Resolver) : ExceptT Failure m String := do
  match (← h.resolve r).url with
  | some url => return url
  | none => throw (.connectionStringMissing r.key r.envFile)

def drawDiagram (h : Host m) (schema : String) (output : Option String) :
    ExceptT Failure m Unit := do
  let source ← orFail (.schemaUnreadable schema) (h.readText schema)
  match output with
  | some path => orFail .fileAccess (h.writeText path (draw source))
  | none => h.print (draw source)

def synchronise (h : Host m) (r : Resolver) (script : String) : ExceptT Failure m Unit := do
  let url ← h.connectionString r
  let text ← orFail (.scriptUnreadable script) (h.readText script)
  orFail .database (h.atDatabase url (.execute text))

def seedDefaults (h : Host m) (r : Resolver) : ExceptT Failure m Unit := do
  let url ← h.connectionString r
  orFail .database (h.atDatabase url (.seed defaultPrograms))

def perform (h : Host m) (settings : Settings) : Command → ExceptT Failure m Unit
  | .diagram schema output => h.drawDiagram (schema.getD settings.schema) output
  | .dbSync sql envFile =>
    h.synchronise ⟨settings.urlKey, envFile.getD settings.envFile⟩ (sql.getD settings.sqlScript)
  | .seed envFile => h.seedDefaults ⟨settings.urlKey, envFile.getD settings.envFile⟩

/-- The settings are loaded first, even if the command line overrides all of them. -/
def run (h : Host m) (args : Arguments) : ExceptT Failure m Unit := do
  h.perform (← h.loadSettings args.config) args.command

end Host

end EntityDiagram

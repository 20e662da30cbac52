import EntityDiagram.EnvFile
import EntityDiagram.FileFault
import EntityDiagram.LogRecord
import EntityDiagram.Preview

namespace EntityDiagram

structure Resolver where
  key : String
  envFile : String
deriving DecidableEq

inductive EnvFileState
  | absent
  | unreadable (fault : FileFault)
  | readable (content : String)
deriving DecidableEq

inductive ResolutionEvent
  | foundInEnvironment (key : String)
  | tryingEnvFile (key envFile : String)
  | envFileAbsent (envFile : String)
  | envFileUnreadable (envFile : String) (fault : FileFault)
  | foundRaw (preview : Preview)
  | resolved (preview : Preview)
deriving DecidableEq

def ResolutionEvent.record : ResolutionEvent → LogRecord
  | foundInEnvironment key => ⟨.debug, "Connection string found in environment", [("key", key)]⟩
  | tryingEnvFile key envFile =>
    ⟨.info, "Connection string not in environment, trying env file",
      [("key", key), ("env_file", envFile)]⟩
  | envFileAbsent envFile => ⟨.debug, "Env file not found", [("env_file", envFile)]⟩
  | envFileUnreadable envFile fault =>
    ⟨.warn, "Failed to read env file", [("env_file", envFile), ("error", fault.message)]⟩
  | foundRaw preview => ⟨.debug, "Connection string found (raw)", [("url", preview.text)]⟩
  | resolved preview => ⟨.info, "Connection string resolved", [("url", preview.text)]⟩

structure Resolution where
  url : Option String
  events : List ResolutionEvent
deriving DecidableEq

namespace Resolver

def sanitize (raw : String) : String := String.ofList (raw.toList.filter (! isBlank ·))

def nonEmpty? (value : Option String) : Option String := value.filter (! ·.isEmpty)

def fileValue? (r : Resolver) : EnvFileState → Option String
  | .readable content => EnvFile.value? content r.key
  | _ => none

def fileEvents (r : Resolver) : EnvFileState → List ResolutionEvent
  | .absent => [.envFileAbsent r.envFile]
  | .unreadable fault => [.envFileUnreadable r.envFile fault]
  | .readable _ => []

def accept (earlier : List ResolutionEvent) (raw : String) : Resolution :=
  ⟨some (sanitize raw),
    earlier ++ [.foundRaw (Preview.ofSecret raw), .resolved (Preview.ofSecret (sanitize raw))]⟩

/-- The environment has precedence; the env file does not matter if it has a value. -/
def resolve (r : Resolver) (value : Option String) (file : EnvFileState) : Resolution :=
  match nonEmpty? value with
  | some raw => accept [.foundInEnvironment r.key] raw
  | none =>
    let earlier := .tryingEnvFile r.key r.envFile :: r.fileEvents file
    match nonEmpty? (r.fileValue? file) with
    | some raw => accept earlier raw
    | none => ⟨none, earlier⟩

end Resolver

end EntityDiagram

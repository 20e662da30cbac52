import EntityDiagram.CommandLine
import EntityDiagram.Run

namespace EntityDiagram

def logLevels : List String := ["off", "error", "warn", "info", "debug", "trace"]

def isLogLevel (text : String) : Bool := logLevels.contains (text.map Char.toLower)

def noticeOn (logLevel : String) : Option String :=
  if isLogLevel logLevel then none
  else some ("Invalid log level: " ++ logLevel ++ ". Using 'warn' instead.")

def version : String := "schemaviz-cli 0.1.0\n"

def usage : String :=
  "Usage: schemaviz [OPTIONS] <COMMAND>\n\n" ++
  "Commands:\n" ++
  "  diagram  Render a schema as a Mermaid entity-relationship diagram\n" ++
  "  db-sync  Execute the table creation script against the database\n" ++
  "  seed     Insert the default programs if the programs table is empty\n" ++
  "  help     Print this message\n\n" ++
  "Options:\n" ++
  "  -c, --config <CONFIG>        Path to configuration file (TOML)\n" ++
  "      --log-level <LOG_LEVEL>  Log level (off, error, warn, info, debug, trace)\n" ++
  "  -h, --help                   Print help\n" ++
  "  -V, --version                Print version\n"

def Refusal.display? : Refusal → Option String
  | helpWanted => some usage
  | versionWanted => some version
  | _ => none

inductive Ending
  | refused (why : Refusal)
  | failed (notice : Option String) (failure : Failure)
  | completed (notice : Option String)
deriving DecidableEq

namespace Ending

def exitCode : Ending → Nat
  | refused why => if why.display?.isSome then 0 else 2
  | failed _ _ => 1
  | completed _ => 0

def notice? : Ending → Option String
  | refused _ => none
  | failed notice _ => notice
  | completed notice => notice

end Ending

def launch {m : Type → Type} [Monad m] (h : Host m) (words : List String) : m Ending := do
  match Arguments.ofWords words with
  | .error why =>
    match why.display? with
    | some text => h.print text
    | none => pure ()
    return .refused why
  | .ok args =>
    match ← (h.run args).run with
    | .error failure => return .failed (noticeOn args.logLevel) failure
    | .ok () => return .completed (noticeOn args.logLevel)

end EntityDiagram

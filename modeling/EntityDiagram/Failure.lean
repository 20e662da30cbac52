import EntityDiagram.FileFault

namespace EntityDiagram

inductive Failure
  | schemaUnreadable (path : String) (cause : FileFault)
  | fileAccess (cause : FileFault)
  | configurationMissing (path : String)
  | configurationMalformed
  | connectionStringMissing (key envFile : String)
  | scriptUnreadable (path : String) (cause : FileFault)
  | database (cause : String)
deriving DecidableEq

namespace Failure

def code : Failure → String
  | schemaUnreadable _ _ => "schemaviz::io"
  | fileAccess _ => "schemaviz::io"
  | configurationMissing _ => "schemaviz::config"
  | configurationMalformed => "schemaviz::config"
  | connectionStringMissing _ _ => "schemaviz::env"
  | scriptUnreadable _ _ => "schemaviz::sql"
  | database _ => "schemaviz::database"

def help : Failure → Option String
  | schemaUnreadable _ _ =>
    some "pass the schema path explicitly or set `diagram.schema` in the config file"
  | configurationMissing _ => some "check the path given to `--config`"
  | connectionStringMissing key _ =>
    some ("export `" ++ key ++ "` or add a `" ++ key ++ "=...` line to the env file")
  | scriptUnreadable _ _ =>
    some "pass the script path with `--sql` or set `database.sql_script`"
  | _ => none

def message : Failure → String
  | schemaUnreadable path cause =>
    "Failed to read schema `" ++ path ++ "`: " ++ cause.message
  | fileAccess cause => "I/O error: " ++ cause.message
  | configurationMissing path => "Missing configuration file: " ++ path
  | configurationMalformed => "Failed to parse TOML configuration"
  | connectionStringMissing key envFile =>
    "Could not find `" ++ key ++ "` in the environment or in `" ++ envFile ++ "`"
  | scriptUnreadable path cause =>
    "Failed to read SQL script `" ++ path ++ "`: " ++ cause.message
  | database cause => "Database error: " ++ cause

def source : Failure → Option String
  | schemaUnreadable _ cause => some cause.message
  | fileAccess cause => some cause.message
  | scriptUnreadable _ cause => some cause.message
  | _ => none

end Failure

end EntityDiagram

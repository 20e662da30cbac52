namespace EntityDiagram

inductive Command
  | diagram (schema output : Option String)
  | dbSync (sql envFile : Option String)
  | seed (envFile : Option String)
deriving DecidableEq

inductive CommandName
  | diagram
  | dbSync
  | seed
deriving DecidableEq

def CommandName.ofWord? : String → Option CommandName
  | "diagram" => some diagram
  | "db-sync" => some dbSync
  | "seed" => some seed
  | _ => none

structure Arguments where
  config : Option String
  logLevel : String
  command : Command
deriving DecidableEq

def defaultLogLevel : String := "info"

inductive Refusal
  | unknownArgument
  | unknownCommand
  | badValue
  | surplusValue
  | repeatedOption
  | missingCommand
  | emptyCommandLine
  | helpWanted
  | versionWanted
deriving DecidableEq

end EntityDiagram

namespace EntityDiagram

inductive Severity
  | error
  | warn
  | info
  | debug
  | trace
deriving DecidableEq

def Severity.text : Severity → String
  | error => "ERROR"
  | warn => "WARN"
  | info => "INFO"
  | debug => "DEBUG"
  | trace => "TRACE"

structure LogRecord where
  severity : Severity
  message : String
  pairs : List (String × String) := []
deriving DecidableEq

end EntityDiagram

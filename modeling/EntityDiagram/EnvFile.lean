import EntityDiagram.Text

namespace EntityDiagram.EnvFile

def unquoteWith? (quote : Char) (value : List Char) : Option (List Char) :=
  match value with
  | first :: rest =>
    if first = quote ∧ rest.getLast? = some quote then some rest.dropLast else none
  | [] => none

def unquote (value : List Char) : List Char :=
  (unquoteWith? '"' value <|> unquoteWith? '\'' value).getD value

def valueOn? (key line : String) : Option String :=
  (after? (key.toList ++ ['=']) line.toList).map fun value => String.ofList (unquote value)

/-- The value of a key; the first line that sets it counts. -/
def value? (content key : String) : Option String :=
  (trimmedLines content).findSome? (valueOn? key)

end EntityDiagram.EnvFile

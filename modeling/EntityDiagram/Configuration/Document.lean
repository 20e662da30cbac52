import EntityDiagram.Configuration.Scalar
import EntityDiagram.Configuration.Table

namespace EntityDiagram.Configuration

open Reader

def nestingLimit : Nat := 80

def string : Reader String := longBasicString <|> longLiteralString <|> basicString <|> literalString

def scalar : Reader Node :=
  .text <$> string <|> moment *> pure .moment <|> real *> pure .number <|>
    integer *> pure .number <|> boolean *> pure .boolean

def arrayOf (item : Reader Node) : Reader Node := do
  char '['
  filler
  let items ← listOf (item <* filler) (char ',' *> filler)
  char ']'
  return .array items

def pairOf (item : Reader Node) : Reader ((List String × String) × Node) := do
  let k ← key
  spaces
  char '='
  spaces
  return (k, ← item)

def inlineTableOf (item : Reader Node) : Reader Node := do
  char '{'
  filler
  let pairs ← listOf (pairOf item <* filler) (char ',' *> filler)
  char '}'
  match Node.ofPairs pairs with
  | some table => return table
  | none => failure

def valueWithin : Nat → Reader Node
  | 0 => scalar
  | depth + 1 => scalar <|> arrayOf (valueWithin depth) <|> inlineTableOf (valueWithin depth)

inductive Statement
  | header (path : List String) (key : String)
  | repeated (path : List String) (key : String)
  | pair (path : List String) (key : String) (value : Node)

def repeatedHeader : Reader Statement := do
  word "[["
  spaces
  let (path, last) ← key
  spaces
  word "]]"
  return .repeated path last

def singleHeader : Reader Statement := do
  char '['
  spaces
  let (path, last) ← key
  spaces
  char ']'
  return .header path last

def statement : Reader Statement := repeatedHeader <|> singleHeader <|> do
  let ((path, last), value) ← pairOf (valueWithin nestingLimit)
  return .pair path last value

def line : Reader (Option Statement) := do
  spaces
  let s ← option statement
  spaces
  let _ ← option comment
  return s

/-- A byte order mark before the first line does not count. -/
def document : Reader (List Statement) := do
  let _ ← option (char '\uFEFF')
  return (← separatedBy line lineBreak).filterMap id

structure Draft where
  root : Node := .table .header []
  current : List String := []

def Draft.extend (d : Draft) : Statement → Option Draft
  | .header path key => do
    return ⟨← d.root.update false (Node.openTable key) path, path ++ [key]⟩
  | .repeated path key => do
    return ⟨← d.root.update false (Node.openElement key) path, path ++ [key]⟩
  | .pair path key value => do
    return { d with root := ← d.root.update false (Node.assign path key value) d.current }

def read? (text : String) : Option Node := do
  let statements ← document.readAll text
  let draft ← statements.foldlM Draft.extend {}
  return draft.root

end EntityDiagram.Configuration

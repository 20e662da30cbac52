import EntityDiagram.Configuration.Reader

namespace EntityDiagram.Configuration

open Reader

def isSpace (c : Char) : Bool := c == ' ' || c == '\t'

def spaces : Reader Unit := do let _ ← run isSpace

def lineBreak : Reader Unit := char '\n' <|> word "\r\n"

def isPlain (c : Char) : Bool := c == '\t' || (0x20 ≤ c.toNat && c != '\x7F')

def comment : Reader Unit := do
  char '#'
  let _ ← run isPlain

def filler : Reader Unit := do
  spaces
  let _ ← many (comment *> lineBreak *> spaces <|> lineBreak *> spaces)

def hexDigit? (c : Char) : Option Nat :=
  if '0' ≤ c ∧ c ≤ '9' then some (c.toNat - '0'.toNat)
  else if 'a' ≤ c ∧ c ≤ 'f' then some (c.toNat - 'a'.toNat + 10)
  else if 'A' ≤ c ∧ c ≤ 'F' then some (c.toNat - 'A'.toNat + 10)
  else none

def hexDigit : Reader Nat := do
  let c ← satisfy fun c => (hexDigit? c).isSome
  return (hexDigit? c).getD 0

def codePoint (digits : Nat) : Reader Char := do
  let n := (← exactly digits hexDigit).foldl (fun n d => 16 * n + d) 0
  guard (n < 0xD800 || (0xDFFF < n && n < 0x110000))
  return Char.ofNat n

def escape : Reader Char := do
  match ← satisfy fun _ => true with
  | 'b' => pure '\x08'
  | 't' => pure '\t'
  | 'n' => pure '\n'
  | 'f' => pure '\x0C'
  | 'r' => pure '\r'
  | 'e' => pure '\x1B'
  | '"' => pure '"'
  | '\\' => pure '\\'
  | 'x' => codePoint 2
  | 'u' => codePoint 4
  | 'U' => codePoint 8
  | _ => failure

def basicChar : Reader Char :=
  satisfy (fun c => isPlain c && c != '"' && c != '\\') <|> char '\\' *> escape

def literalChar : Reader Char := satisfy fun c => isPlain c && c != '\''

def basicString : Reader String := do
  char '"'
  let cs ← many basicChar
  char '"'
  return String.ofList cs

def literalString : Reader String := do
  char '\''
  let cs ← many literalChar
  char '\''
  return String.ofList cs

/-- A backslash at the end of a line takes all blanks up to the next other character away. -/
def continuation : Reader (List Char) := do
  char '\\'
  spaces
  lineBreak
  let _ ← many (satisfy isSpace *> pure () <|> lineBreak)
  return []

def innerQuotes (quote : Char) : Reader (List Char) := do
  let quotes := (← ahead).takeWhile (· == quote)
  guard (quotes.length < 3)
  exactly quotes.length (satisfy (· == quote))

def closingQuotes (quote : Char) : Reader (List Char) := do
  let quotes ← run (· == quote)
  guard (3 ≤ quotes.length && quotes.length ≤ 5)
  return quotes.drop 3

def newline : Reader (List Char) := lineBreak *> pure ['\n']

/-- A string of several lines. A line break right behind the opening quotes does not count. -/
def longString (quote : Char) (content : Reader (List Char)) : Reader String := do
  let _ ← exactly 3 (char quote)
  let _ ← option lineBreak
  let parts ← many (content <|> newline <|> do
    let quotes ← innerQuotes quote
    guard (!quotes.isEmpty)
    return quotes)
  return String.ofList (parts.flatten ++ (← closingQuotes quote))

def longBasicString : Reader String :=
  longString '"' ((fun c => [c]) <$> basicChar <|> continuation)

def longLiteralString : Reader String := longString '\'' ((fun c => [c]) <$> literalChar)

def isBareKeyChar (c : Char) : Bool := c.isAlphanum || c == '_' || c == '-'

def bareKey : Reader String := do
  let cs ← run isBareKeyChar
  guard (!cs.isEmpty)
  return String.ofList cs

def simpleKey : Reader String := bareKey <|> basicString <|> literalString

def key : Reader (List String × String) := do
  let keys ← separatedBy simpleKey (spaces *> char '.' *> spaces)
  match keys.getLast? with
  | some last => return (keys.dropLast, last)
  | none => failure

end EntityDiagram.Configuration

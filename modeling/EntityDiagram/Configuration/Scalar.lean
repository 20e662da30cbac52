import EntityDiagram.Configuration.Lexical

namespace EntityDiagram.Configuration

open Reader

def digits (isDigit : Char → Bool) : Reader (List Char) := do
  let first ← satisfy isDigit
  let others ← many (option (char '_') *> satisfy isDigit)
  return first :: others

def decimalDigits : Reader (List Char) := do
  let ds ← digits Char.isDigit
  guard (ds.length = 1 || ds.head? != some '0')
  return ds

def value (base : Nat) (ds : List Char) : Nat :=
  ds.foldl (fun n d => base * n + (hexDigit? d).getD 0) 0

def sign : Reader Int := char '-' *> pure (-1) <|> char '+' *> pure 1 <|> pure 1

def prefixedInteger (mark : String) (base : Nat) : Reader Int := do
  word mark
  let ds ← digits fun c => (hexDigit? c).any (· < base)
  return value base ds

def integer : Reader Int := do
  let n ← prefixedInteger "0x" 16 <|> prefixedInteger "0o" 8 <|> prefixedInteger "0b" 2 <|> do
    let s ← sign
    return s * value 10 (← decimalDigits)
  guard (-0x80000000000000000000000000000000 ≤ n && n < 0x100000000000000000000000000000000)
  return n

def fraction : Reader Unit := do
  char '.'
  let _ ← digits Char.isDigit

def exponent : Reader Unit := do
  char 'e' <|> char 'E'
  let _ ← sign
  let _ ← digits Char.isDigit

def real : Reader Unit := do
  let _ ← sign
  word "inf" <|> word "nan" <|> do
    let _ ← decimalDigits
    (fraction *> (exponent <|> pure ())) <|> exponent

def boolean : Reader Bool := word "true" *> pure true <|> word "false" *> pure false

def bounded (count low high : Nat) : Reader Nat := do
  let n := value 10 (← exactly count (satisfy Char.isDigit))
  guard (low ≤ n && n ≤ high)
  return n

def isLeapYear (year : Nat) : Bool := year % 4 = 0 && (year % 100 != 0 || year % 400 = 0)

def daysOf (year month : Nat) : Nat :=
  if month = 2 then if isLeapYear year then 29 else 28
  else if month ∈ [4, 6, 9, 11] then 30 else 31

def date : Reader Unit := do
  let year ← bounded 4 0 9999
  char '-'
  let month ← bounded 2 1 12
  char '-'
  let _ ← bounded 2 1 (daysOf year month)

def time : Reader Unit := do
  let _ ← bounded 2 0 23
  char ':'
  let _ ← bounded 2 0 59
  let _ ← option do
    char ':'
    let _ ← bounded 2 0 60
    let _ ← option do
      char '.'
      let _ ← satisfy Char.isDigit
      let _ ← run Char.isDigit

def offset : Reader Unit :=
  char 'Z' <|> char 'z' <|> do
    char '+' <|> char '-'
    let _ ← bounded 2 0 23
    char ':'
    let _ ← bounded 2 0 59

/-- A date, a time, or both; only both together have an offset. -/
def moment : Reader Unit :=
  (do
    date
    let _ ← option ((char 'T' <|> char 't' <|> char ' ') *> time *> option offset)) <|> time

end EntityDiagram.Configuration

namespace EntityDiagram.Configuration

abbrev Reader (α : Type) := StateT (List Char) Option α

namespace Reader

variable {α β : Type}

def ahead : Reader (List Char) := get

def satisfy (allowed : Char → Bool) : Reader Char := fun
  | [] => none
  | c :: cs => if allowed c then some (c, cs) else none

def char (c : Char) : Reader Unit := do let _ ← satisfy (· == c)

def word (text : String) : Reader Unit := text.toList.forM char

def run (allowed : Char → Bool) : Reader (List Char) := fun cs =>
  some (cs.takeWhile allowed, cs.dropWhile allowed)

def option (r : Reader α) : Reader (Option α) := some <$> r <|> pure none

def upTo : Nat → Reader α → Reader (List α)
  | 0, _ => pure []
  | bound + 1, r => do
    match ← option r with
    | none => pure []
    | some a => return a :: (← upTo bound r)

/-- As many values as there are. A value takes at least one character, so that there are no more of
them than characters ahead. -/
def many (r : Reader α) : Reader (List α) := do upTo (← ahead).length r

def exactly : Nat → Reader α → Reader (List α)
  | 0, _ => pure []
  | count + 1, r => do return (← r) :: (← exactly count r)

def separatedBy (r : Reader α) (separator : Reader β) : Reader (List α) := do
  return (← r) :: (← many (separator *> r))

def listOf (r : Reader α) (separator : Reader β) : Reader (List α) := do
  match ← option r with
  | none => pure []
  | some first =>
    let others ← many (separator *> r)
    let _ ← option separator
    return first :: others

def readAll (r : Reader α) (text : String) : Option α :=
  match r text.toList with
  | some (a, []) => some a
  | _ => none

end Reader

end EntityDiagram.Configuration

namespace EntityDiagram

structure Preview where
  head : String
  tail : String
deriving DecidableEq

namespace Preview

def headSize : Nat := 15

def tailSize : Nat := 10

/-- A text that head and tail would cover shows no more than the first third of its characters. -/
def ofSecret (secret : String) : Preview :=
  let cs := secret.toList
  if cs.length ≤ headSize + tailSize then ⟨String.ofList (cs.take (cs.length / 3)), ""⟩
  else ⟨String.ofList (cs.take headSize), String.ofList (cs.drop (cs.length - tailSize))⟩

def text (p : Preview) : String := p.head ++ "..." ++ p.tail

end Preview

end EntityDiagram

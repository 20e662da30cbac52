import EntityDiagram.Text

namespace EntityDiagram

inductive BlockKind
  | model
  | enum
deriving DecidableEq

def BlockKind.keyword : BlockKind → List Char
  | model => "model".toList
  | enum => "enum".toList

structure Header where
  kind : BlockKind
  name : String
deriving DecidableEq

namespace Header

def isGap (c : Char) : Bool := c == ' ' || c == '\t'

/-- The rest of a header behind its keyword: a gap, a name, a gap and an opening brace. What follows
the brace is free. -/
def nameOf? (cs : List Char) : Option String := do
  let (_, cs) ← leadingRun? isGap cs
  let (name, cs) ← leadingRun? isWordChar cs
  let (_, cs) ← leadingRun? isGap cs
  if cs.head? = some '{' then some (String.ofList name) else none

def ofKind? (kind : BlockKind) (cs : List Char) : Option Header := do
  let cs ← after? kind.keyword cs
  let name ← nameOf? cs
  return ⟨kind, name⟩

def ofLine? (line : String) : Option Header :=
  ofKind? .model line.toList <|> ofKind? .enum line.toList

end Header

end EntityDiagram

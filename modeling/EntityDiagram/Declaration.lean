import EntityDiagram.Block
import EntityDiagram.Schema

namespace EntityDiagram

def directiveMark : String := "@@"

inductive Member
  | field (field : Field)
  | directive (line : String)
  | untyped (line : String)
deriving DecidableEq

namespace Member

/-- A field needs two words, its name and its type; what follows them is not interpreted. -/
def ofLine (line : String) : Member :=
  if (after? directiveMark.toList line.toList).isSome then .directive line
  else
    match words line.toList with
    | name :: rawType :: _ => .field ⟨String.ofList name, String.ofList rawType, line⟩
    | _ => .untyped line

def field? : Member → Option Field
  | field f => some f
  | _ => none

end Member

namespace Block

def members (b : Block) : List Member := b.lines.map Member.ofLine

def toModel (b : Block) : Model := ⟨b.header.name, b.members.filterMap Member.field?⟩

def toEnum (b : Block) : Enumeration := ⟨b.header.name, b.lines⟩

end Block

namespace Schema

def declare (s : Schema) (b : Block) : Schema :=
  match b.header.kind with
  | .model => s.insertModel b.toModel
  | .enum => s.insertEnum b.toEnum

def ofBlocks (bs : List Block) : Schema := bs.foldl declare empty

def ofSource (source : String) : Schema := ofBlocks (blocks (sourceRoles source))

end Schema

end EntityDiagram

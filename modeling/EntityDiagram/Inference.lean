import EntityDiagram.Relationship
import EntityDiagram.Schema

namespace EntityDiagram

/-- The cardinality of the link that a field draws, if it draws one. A list facing a single field
draws it; of two alike sides, the model whose name comes first does. -/
def Cardinality.ofSides? (model related : String) (isArray inverseIsArray : Bool) :
    Option Cardinality :=
  match isArray, inverseIsArray with
  | true, false => some .oneToMany
  | false, true => none
  | true, true => if model < related then some .manyToMany else none
  | false, false => if model < related then some .oneToOne else none

inductive Finding
  | related (relationship : Relationship)
  | unanswered (model field target : String)
  | otherSide (model field : String)
deriving DecidableEq

def Finding.relationship? : Finding → Option Relationship
  | related r => some r
  | _ => none

namespace Schema

def finding? (s : Schema) (m : Model) (f : Field) : Option Finding :=
  (s.models.find? f.baseType).map fun target =>
    match target.fieldOfType? m.name with
    | none => .unanswered m.name f.name target.name
    | some inverse =>
      match Cardinality.ofSides? m.name target.name f.isArray inverse.isArray with
      | some cardinality => .related ⟨m.name, target.name, cardinality, f.name⟩
      | none => .otherSide m.name f.name

def findings (s : Schema) : List Finding :=
  s.models.toList.flatMap fun m => m.fields.filterMap (s.finding? m)

def relationships (s : Schema) : List Relationship := s.findings.filterMap Finding.relationship?

end Schema

end EntityDiagram

import EntityDiagram.Catalog
import EntityDiagram.Field

namespace EntityDiagram

structure Model where
  name : String
  fields : List Field
deriving DecidableEq

instance : Named Model := ⟨Model.name⟩

def Model.fieldOfType? (m : Model) (type : String) : Option Field :=
  m.fields.find? (·.baseType == type)

structure Enumeration where
  name : String
  values : List String
deriving DecidableEq

instance : Named Enumeration := ⟨Enumeration.name⟩

@[ext]
structure Schema where
  models : Catalog Model := Catalog.empty
  enums : Catalog Enumeration := Catalog.empty
deriving DecidableEq

namespace Schema

def empty : Schema := {}

instance : Inhabited Schema := ⟨empty⟩

def insertModel (s : Schema) (m : Model) : Schema := { s with models := s.models.insert m }

def insertEnum (s : Schema) (e : Enumeration) : Schema := { s with enums := s.enums.insert e }

/-- Only models count: a field of an enumerated type holds a plain value. -/
def isModel (s : Schema) (name : String) : Bool := s.models.contains name

def isEmpty (s : Schema) : Bool := s.models.isEmpty && s.enums.isEmpty

def merge (s t : Schema) : Schema :=
  ⟨s.models.insertAll t.models.toList, s.enums.insertAll t.enums.toList⟩

/-- Two schemas declare the same, in whatever order. -/
def Same (s t : Schema) : Prop := s.models.Same t.models ∧ s.enums.Same t.enums

instance (s t : Schema) : Decidable (s.Same t) := inferInstanceAs (Decidable (_ ∧ _))

end Schema

end EntityDiagram

import EntityDiagram.Inference

namespace EntityDiagram

structure Attribute where
  type : String
  name : String
deriving DecidableEq

structure Entity where
  name : String
  attributes : List Attribute
deriving DecidableEq

def Attribute.line (a : Attribute) : String := "    " ++ a.type ++ " " ++ a.name

def Entity.lines (e : Entity) : List String :=
  ("  " ++ e.name ++ " \x7b") :: e.attributes.map Attribute.line ++ ["  \x7d"]

def Relationship.line (r : Relationship) : String :=
  "  " ++ r.left ++ " " ++ r.cardinality.connector ++ " " ++ r.right ++ " : \"" ++ r.label ++ "\""

def valueType : String := "value"

def Enumeration.toEntity (e : Enumeration) : Entity := ⟨e.name, e.values.map (⟨valueType, ·⟩)⟩

structure Diagram where
  entities : List Entity
  relationships : List Relationship
deriving DecidableEq

namespace Diagram

def heading : String := "erDiagram"

def lines (d : Diagram) : List String :=
  heading :: d.entities.flatMap Entity.lines ++ d.relationships.map Relationship.line

/-- Every line ends in a line feed, the last one too. -/
def text (d : Diagram) : String := String.join (d.lines.map (· ++ "\n"))

end Diagram

namespace Schema

/-- The fields that point at models are drawn as relationships and are no attributes. -/
def entityOf (s : Schema) (m : Model) : Entity :=
  ⟨m.name, (m.fields.filter (!s.isModel ·.baseType)).map fun f => ⟨f.baseType, f.name⟩⟩

def entities (s : Schema) : List Entity :=
  s.models.toList.map s.entityOf ++ s.enums.toList.map Enumeration.toEntity

def diagramWith (s : Schema) (relationships : List Relationship) : Diagram :=
  ⟨s.entities, relationships⟩

def diagram (s : Schema) : Diagram := s.diagramWith s.relationships

end Schema

end EntityDiagram

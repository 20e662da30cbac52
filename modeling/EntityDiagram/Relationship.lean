namespace EntityDiagram

inductive Cardinality
  | oneToOne
  | oneToMany
  | manyToMany
deriving DecidableEq

namespace Cardinality

def connector : Cardinality → String
  | oneToOne => "||--||"
  | oneToMany => "||--o\x7b"
  | manyToMany => "\x7d|--|\x7b"

def text : Cardinality → String
  | oneToOne => "one-to-one"
  | oneToMany => "one-to-many"
  | manyToMany => "many-to-many"

end Cardinality

/-- A link from `left` to `right`, labelled with the field of `left` that it was found from. -/
structure Relationship where
  left : String
  right : String
  cardinality : Cardinality
  label : String
deriving DecidableEq

end EntityDiagram

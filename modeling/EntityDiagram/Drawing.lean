import EntityDiagram.Declaration
import EntityDiagram.Diagram
import EntityDiagram.LogRecord

namespace EntityDiagram

def draw (source : String) : String := (Schema.ofSource source).diagram.text

inductive DrawingEvent
  | blockOpened (header : Header)
  | strayLine (line : String)
  | unterminatedBlock (name : String)
  | sourceScanned (blocks : Nat)
  | directiveSkipped (line : String)
  | untypedLineSkipped (line : String)
  | schemaBuilt (models enums : Nat)
  | found (finding : Finding)
  | relationshipsInferred (count : Nat)
  | rendered (output : String)
deriving DecidableEq

def BlockKind.label : BlockKind → String
  | model => "Model"
  | enum => "Enum"

def Cardinality.label : Cardinality → String
  | oneToOne => "OneToOne"
  | oneToMany => "OneToMany"
  | manyToMany => "ManyToMany"

def Finding.record : Finding → LogRecord
  | related r =>
    ⟨.trace, "Relationship inferred",
      [("left", r.left), ("right", r.right), ("cardinality", r.cardinality.label)]⟩
  | unanswered model field target =>
    ⟨.debug, "No inverse field, relation dropped",
      [("model", model), ("field", field), ("target", target)]⟩
  | otherSide model field =>
    ⟨.trace, "Relationship emitted from the other side", [("model", model), ("field", field)]⟩

namespace DrawingEvent

def record : DrawingEvent → LogRecord
  | blockOpened h => ⟨.trace, "Block opened", [("kind", h.kind.label), ("name", h.name)]⟩
  | strayLine line => ⟨.trace, "Ignoring line outside of any block", [("line", line)]⟩
  | unterminatedBlock name => ⟨.trace, "Keeping unterminated block", [("name", name)]⟩
  | sourceScanned count => ⟨.debug, "Source scanned", [("blocks", toString count)]⟩
  | directiveSkipped line => ⟨.trace, "Skipping block directive", [("line", line)]⟩
  | untypedLineSkipped line => ⟨.debug, "Skipping line without a field type", [("line", line)]⟩
  | schemaBuilt models enums =>
    ⟨.debug, "Schema built", [("models", toString models), ("enums", toString enums)]⟩
  | found finding => finding.record
  | relationshipsInferred count =>
    ⟨.debug, "Relationships inferred", [("relationships", toString count)]⟩
  | rendered output => ⟨.trace, "Rendered diagram", [("output", output)]⟩

def ofRole? : LineRole → Option DrawingEvent
  | .opening header => some (.blockOpened header)
  | .stray line => some (.strayLine line)
  | .closing => none
  | .interior _ => none

def ofMember? : Member → Option DrawingEvent
  | .field _ => none
  | .directive line => some (.directiveSkipped line)
  | .untyped line => some (.untypedLineSkipped line)

/-- The scan of the lines: a report for each line outside the blocks and each opening line, and one
for a block that nothing closes. -/
def ofScan (roles : List LineRole) : List DrawingEvent :=
  roles.filterMap ofRole? ++ (leftOpen none roles).toList.map (.unterminatedBlock ·.name)

/-- The values of an enumeration are taken as they are, so that only a model passes lines over. -/
def ofBlock (b : Block) : List DrawingEvent :=
  match b.header.kind with
  | .model => b.members.filterMap ofMember?
  | .enum => []

def ofReading (source : String) : List DrawingEvent :=
  let roles := sourceRoles source
  let schema := Schema.ofSource source
  ofScan roles ++ [.sourceScanned (blocks roles).length] ++ (blocks roles).flatMap ofBlock ++
    [.schemaBuilt schema.models.size schema.enums.size]

def ofSchema (s : Schema) : List DrawingEvent :=
  s.findings.map .found ++
    [.relationshipsInferred s.relationships.length, .rendered s.diagram.text]

end DrawingEvent

def drawingEvents (source : String) : List DrawingEvent :=
  DrawingEvent.ofReading source ++ DrawingEvent.ofSchema (Schema.ofSource source)

def drawingLog (source : String) : List LogRecord :=
  (drawingEvents source).map DrawingEvent.record

end EntityDiagram

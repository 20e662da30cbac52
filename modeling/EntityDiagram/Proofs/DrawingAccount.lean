import EntityDiagram.Proofs.FieldFate
import EntityDiagram.Proofs.LegibleDiagram
import EntityDiagram.Proofs.LineAccount

namespace EntityDiagram

def LogRecord.value? (r : LogRecord) (key : String) : Option String := r.pairs.lookup key

def diagramLinesOf (source : String) : List DiagramLine :=
  (pieces (· == '\n') (draw source).toList).filterMap DiagramLine.ofChars?

inductive Stage
  | scan
  | reading
  | inference
  | summary
deriving DecidableEq

def Stage.ofMessage (message : String) : Stage :=
  if message ∈ ["Block opened", "Ignoring line outside of any block",
    "Keeping unterminated block"] then .scan
  else if message ∈ ["Skipping block directive", "Skipping line without a field type"] then .reading
  else if message ∈ ["Relationship inferred", "No inverse field, relation dropped",
    "Relationship emitted from the other side"] then .inference
  else .summary

namespace DrawingEvent

theorem stage_ofScan (roles : List LineRole) :
    ∀ r ∈ (ofScan roles).map record, Stage.ofMessage r.message = .scan := by
  intro r hr
  obtain ⟨e, he, rfl⟩ := List.mem_map.mp hr
  rcases List.mem_append.mp he with he | he
  · obtain ⟨role, _, he⟩ := List.mem_filterMap.mp he
    cases role with
    | opening header => obtain rfl := Option.some.inj he; rfl
    | stray line => obtain rfl := Option.some.inj he; rfl
    | closing => cases he
    | interior line => cases he
  · obtain ⟨header, _, rfl⟩ := List.mem_map.mp he
    rfl

theorem stage_ofMember? (ms : List Member) :
    ∀ r ∈ (ms.filterMap ofMember?).map record, Stage.ofMessage r.message = .reading := by
  intro r hr
  obtain ⟨e, he, rfl⟩ := List.mem_map.mp hr
  obtain ⟨member, _, he⟩ := List.mem_filterMap.mp he
  cases member with
  | field f => cases he
  | directive line => obtain rfl := Option.some.inj he; rfl
  | untyped line => obtain rfl := Option.some.inj he; rfl

theorem stage_findings (findings : List Finding) :
    ∀ r ∈ findings.map Finding.record, Stage.ofMessage r.message = .inference := by
  intro r hr
  obtain ⟨e, _, rfl⟩ := List.mem_map.mp hr
  cases e <;> rfl

end DrawingEvent

def modelBlocks (bs : List Block) : List Block := bs.filter (·.header.kind = .model)

namespace DrawingEvent

theorem flatMap_ofBlock (bs : List Block) :
    bs.flatMap ofBlock = ((modelBlocks bs).flatMap Block.members).filterMap ofMember? := by
  induction bs with
  | nil => rfl
  | cons b bs ih =>
    cases hk : b.header.kind with
    | model => simp [modelBlocks, ofBlock, hk, ih]
    | enum => simp [modelBlocks, ofBlock, hk, ih]

theorem recordsOf_ofScan {α : Type} {message : String} (select? : LineRole → Option α)
    (event : α → DrawingEvent) (hmessage : message ≠ "Keeping unterminated block")
    (h : ∀ role, ((ofRole? role).map record).filter (·.message == message) =
      (select? role).map fun x => (event x).record) (roles : List LineRole) :
    recordsOf message ((ofScan roles).map record) =
      (roles.filterMap select?).map fun x => (event x).record := by
  have hopen : recordsOf message
      (((leftOpen none roles).toList.map (unterminatedBlock ·.name)).map record) = [] := by
    simp [recordsOf, record, hmessage.symm]
  rw [recordsOf] at hopen ⊢
  rw [ofScan, List.map_append, List.filter_append, hopen, List.append_nil, List.map_filterMap,
    List.filter_filterMap, List.map_filterMap]
  exact List.filterMap_congr fun role _ => h role

theorem lines_recordsOf_ofMember? {message : String} (select? : Member → Option String)
    (h : ∀ member, (((ofMember? member).map record).filter (·.message == message)).bind
      (·.value? "line") = select? member) (ms : List Member) :
    (recordsOf message ((ms.filterMap ofMember?).map record)).filterMap (·.value? "line") =
      ms.filterMap select? := by
  rw [recordsOf, List.map_filterMap, List.filter_filterMap, List.filterMap_filterMap]
  exact List.filterMap_congr fun member _ => h member

end DrawingEvent

def stageRecords (source : String) : Stage → List LogRecord
  | .scan => (DrawingEvent.ofScan (sourceRoles source)).map DrawingEvent.record
  | .reading => (((modelBlocks (blocks (sourceRoles source))).flatMap Block.members).filterMap
      DrawingEvent.ofMember?).map DrawingEvent.record
  | .inference => (Schema.ofSource source).findings.map Finding.record
  | .summary =>
    [(DrawingEvent.sourceScanned (blocks (sourceRoles source)).length).record,
      (DrawingEvent.schemaBuilt (Schema.ofSource source).models.size
        (Schema.ofSource source).enums.size).record,
      (DrawingEvent.relationshipsInferred (Schema.ofSource source).relationships.length).record,
      (DrawingEvent.rendered (Schema.ofSource source).diagram.text).record]

section Log

open DrawingEvent

variable (source : String)

theorem stage_stageRecords (stage : Stage) :
    ∀ r ∈ stageRecords source stage, Stage.ofMessage r.message = stage := by
  cases stage with
  | scan => exact stage_ofScan _
  | reading => exact stage_ofMember? _
  | inference => exact stage_findings _
  | summary =>
    intro r hr
    simp only [stageRecords, List.mem_cons, List.not_mem_nil, or_false] at hr
    rcases hr with rfl | rfl | rfl | rfl <;> rfl

theorem drawingLog_eq :
    drawingLog source =
      stageRecords source .scan ++
      [(sourceScanned (blocks (sourceRoles source)).length).record] ++
      stageRecords source .reading ++
      [(schemaBuilt (Schema.ofSource source).models.size
        (Schema.ofSource source).enums.size).record] ++
      stageRecords source .inference ++
      [(relationshipsInferred (Schema.ofSource source).relationships.length).record] ++
      [(rendered (Schema.ofSource source).diagram.text).record] := by
  have hfound : record ∘ found = Finding.record := rfl
  simp [drawingLog, drawingEvents, ofReading, ofSchema, flatMap_ofBlock, hfound, stageRecords]

/-- The records of a stage stand together, but for the sums between the stages. -/
theorem filter_drawingLog (stage : Stage) :
    (drawingLog source).filter (Stage.ofMessage ·.message = stage) =
      stageRecords source stage := by
  have hstage : ∀ other, (stageRecords source other).filter (Stage.ofMessage ·.message = stage) =
      if other = stage then stageRecords source other else [] := by
    intro other
    split
    next he =>
      refine List.filter_eq_self.mpr fun r hr => ?_
      simp [stage_stageRecords source other r hr, he]
    next he =>
      refine List.filter_eq_nil_iff.mpr fun r hr => ?_
      simp [stage_stageRecords source other r hr, he]
  have hsum : ∀ e : DrawingEvent, Stage.ofMessage e.record.message = .summary →
      [e.record].filter (Stage.ofMessage ·.message = stage) =
        if Stage.summary = stage then [e.record] else [] := by
    intro e he
    simp [List.filter_cons, he]
  rw [drawingLog_eq]
  simp only [List.filter_append, hstage, hsum (sourceScanned _) rfl, hsum (schemaBuilt _ _) rfl,
    hsum (relationshipsInferred _) rfl, hsum (rendered _) rfl]
  cases stage <;> simp [stageRecords]

theorem recordsOf_drawingLog {message : String} (stage : Stage)
    (h : Stage.ofMessage message = stage) :
    recordsOf message (drawingLog source) = recordsOf message (stageRecords source stage) := by
  rw [← filter_drawingLog, recordsOf, recordsOf, List.filter_filter]
  refine List.filter_congr fun r _ => ?_
  rw [Bool.eq_iff_iff]
  simp only [beq_iff_eq, Bool.and_eq_true, decide_eq_true_eq]
  constructor
  · rintro rfl
    exact ⟨rfl, h⟩
  · exact And.left

end Log

/-- What a log says of the lines of a source and of the blocks that they form. -/
structure LinesAccounted (kept : List String) (bs : List Block) (log : List LogRecord) : Prop where
  kept : kept.length =
    (recordsOf "Block opened" log).length + kept.count "\x7d" +
      (recordsOf "Ignoring line outside of any block" log).length +
      (bs.flatMap Block.lines).length
  opened : recordsOf "Block opened" log = bs.map fun b =>
    ⟨.trace, "Block opened", [("kind", b.header.kind.label), ("name", b.header.name)]⟩
  scanned : recordsOf "Source scanned" log =
    [⟨.debug, "Source scanned", [("blocks", toString bs.length)]⟩]
  interior : ((modelBlocks bs).flatMap Block.lines).Perm
    (((modelBlocks bs).flatMap fun b => b.toModel.fields).map Field.attributes ++
      (recordsOf "Skipping block directive" log).filterMap (·.value? "line") ++
      (recordsOf "Skipping line without a field type" log).filterMap (·.value? "line"))

/-- What a log and a diagram say of the fields of a schema, each of which has one fate. -/
structure FieldsAccounted (s : Schema) (log : List LogRecord) (shown : List DiagramLine) :
    Prop where
  fields : s.fields.Perm (s.fieldsOfFate .plain ++ s.fieldsOfFate .link ++
    s.fieldsOfFate .unanswered ++ s.fieldsOfFate .otherSide)
  plain : ∀ m f, s.fate m f = .plain ↔ s.isModel f.baseType = false
  attributes : shown.filterMap DiagramLine.attribute? =
    (s.fieldsOfFate .plain).map (fun p => ⟨p.2.baseType, p.2.name⟩) ++
      s.enums.toList.flatMap fun e => e.values.map (⟨valueType, ·⟩)
  drawn : (s.fieldsOfFate .link).map (fun p => s.drawn? p.1 p.2) = s.relationships.map some
  links : shown.filterMap DiagramLine.relationship? = s.relationships
  inferred : recordsOf "Relationship inferred" log = s.relationships.map fun r =>
    ⟨.trace, "Relationship inferred",
      [("left", r.left), ("right", r.right), ("cardinality", r.cardinality.label)]⟩
  unanswered : recordsOf "No inverse field, relation dropped" log =
    (s.fieldsOfFate .unanswered).map fun p =>
      ⟨.debug, "No inverse field, relation dropped",
        [("model", p.1.name), ("field", p.2.name), ("target", p.2.baseType)]⟩
  otherSide : recordsOf "Relationship emitted from the other side" log =
    (s.fieldsOfFate .otherSide).map fun p =>
      ⟨.trace, "Relationship emitted from the other side",
        [("model", p.1.name), ("field", p.2.name)]⟩

section Account

open DrawingEvent

variable (source : String)

theorem recordsOf_sourceScanned :
    recordsOf "Source scanned" (drawingLog source) =
      [(sourceScanned (blocks (sourceRoles source)).length).record] := by
  rw [recordsOf_drawingLog source .summary (by decide)]
  simp [recordsOf, stageRecords, record]

theorem perm_lines_modelBlocks (bs : List Block) :
    ((modelBlocks bs).flatMap Block.lines).Perm
      (((modelBlocks bs).flatMap fun b => b.toModel.fields).map Field.attributes ++
        ((modelBlocks bs).flatMap Block.members).filterMap Member.directive? ++
        ((modelBlocks bs).flatMap Block.members).filterMap Member.untyped?) := by
  have hlines : (modelBlocks bs).flatMap Block.lines =
      ((modelBlocks bs).flatMap Block.members).map Member.line := by
    rw [List.map_flatMap]
    exact congrArg (List.flatMap · (modelBlocks bs)) (funext fun b => b.map_line_members.symm)
  have hfields : ((modelBlocks bs).flatMap fun b => b.toModel.fields) =
      ((modelBlocks bs).flatMap Block.members).filterMap Member.field? := by
    rw [List.filterMap_flatMap]
    rfl
  rw [hlines, hfields]
  exact Member.perm_lines _

theorem linesAccounted :
    LinesAccounted (keptLines source) (blocks (sourceRoles source)) (drawingLog source) := by
  have hopened : recordsOf "Block opened" (drawingLog source) =
      (blocks (sourceRoles source)).map fun b => (blockOpened b.header).record := by
    have hrole : ∀ role, ((ofRole? role).map record).filter (·.message == "Block opened") =
        (LineRole.opening? role).map fun header => (blockOpened header).record := by
      rintro (_ | _ | _ | _) <;> rfl
    rw [recordsOf_drawingLog source .scan (by decide), stageRecords,
      recordsOf_ofScan _ _ (by decide) hrole, ← map_header_blocks, List.map_map]
    rfl
  refine ⟨?_, hopened, recordsOf_sourceScanned source, ?_⟩
  · have hrole : ∀ role, ((ofRole? role).map record).filter
        (·.message == "Ignoring line outside of any block") =
          (LineRole.stray? role).map fun line => (strayLine line).record := by
      rintro (_ | _ | _ | _) <;> rfl
    rw [hopened, recordsOf_drawingLog source .scan (by decide), stageRecords,
      recordsOf_ofScan _ _ (by decide) hrole, List.length_map, List.length_map]
    exact length_keptLines source
  · rw [recordsOf_drawingLog source .reading (by decide),
      recordsOf_drawingLog source .reading (by decide), stageRecords,
      lines_recordsOf_ofMember? Member.directive? (by rintro (_ | _ | _) <;> rfl),
      lines_recordsOf_ofMember? Member.untyped? (by rintro (_ | _ | _) <;> rfl)]
    exact perm_lines_modelBlocks _

theorem diagramLinesOf_eq : diagramLinesOf source = (Schema.ofSource source).diagram.diagramLines :=
  (Schema.wellFormed_ofSource source).legible_diagram.filterMap_ofChars?_text

theorem fieldsAccounted :
    FieldsAccounted (Schema.ofSource source) (drawingLog source) (diagramLinesOf source) where
  fields := Schema.perm_fieldsOfFate _
  plain _ _ := Schema.fate_eq_plain_iff
  attributes := by
    rw [diagramLinesOf_eq, Diagram.filterMap_attribute?]
    have henums : ∀ es : List Enumeration, (es.map Enumeration.toEntity).flatMap Entity.attributes =
        es.flatMap fun e => e.values.map (⟨valueType, ·⟩) := fun es => List.flatMap_map ..
    rw [Schema.diagram, Schema.diagramWith, Schema.entities, List.flatMap_append,
      Schema.attributes_entityOf, henums]
    rfl
  drawn := Schema.map_drawn?_fieldsOfFate _
  links := by
    rw [diagramLinesOf_eq, Diagram.filterMap_relationship?]
    rfl
  inferred := by
    rw [recordsOf_drawingLog source .inference (by decide), stageRecords,
      recordsOf_findings .link rfl, Schema.filter_findings_link, List.map_map]
    rfl
  unanswered := by
    rw [recordsOf_drawingLog source .inference (by decide), stageRecords,
      recordsOf_findings .unanswered rfl, Schema.filter_findings_of_ne_link _ (by decide),
      List.map_filterMap, ← List.filterMap_eq_map]
    rfl
  otherSide := by
    rw [recordsOf_drawingLog source .inference (by decide), stageRecords,
      recordsOf_findings .otherSide rfl, Schema.filter_findings_of_ne_link _ (by decide),
      List.map_filterMap, ← List.filterMap_eq_map]
    rfl

/-- Nothing is left out in silence: for every source the log accounts for every kept line, for every
line of a model and, together with the diagram, for every field of the schema. -/
theorem drawing_leaves_nothing_out :
    keptLines source =
      ((pieces (· == '\n') source.toList).map fun line => String.ofList (trim line)).filter
        (fun line => line ≠ "" ∧ ¬"//".toList <+: line.toList) ∧
    LinesAccounted (keptLines source) (blocks (sourceRoles source)) (drawingLog source) ∧
    FieldsAccounted (Schema.ofSource source) (drawingLog source) (diagramLinesOf source) :=
  ⟨keptLines_eq_filter source, linesAccounted source, fieldsAccounted source⟩

end Account

end EntityDiagram

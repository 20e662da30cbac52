import EntityDiagram.Proofs.DiagramText
import EntityDiagram.Sink

namespace EntityDiagram

section Writer

variable {m : Type → Type} [Monad m] (write : String → m Unit)

def writeFragments (fragments : List String) : m Unit := forM fragments write

def Attribute.writeWith (a : Attribute) : m Unit :=
  writeFragments write ["    ", a.type, " ", a.name, "\n"]

def Entity.writeHeadWith (name : String) : m Unit := writeFragments write ["  ", name, " \x7b\n"]

def Entity.writeEndWith : m Unit := writeFragments write ["  ", "\x7d\n"]

def Schema.writeModelWith (s : Schema) (model : Model) : m Unit := do
  Entity.writeHeadWith write model.name
  forM model.fields fun f =>
    if s.isModel f.baseType then pure () else (Attribute.mk f.baseType f.name).writeWith write
  Entity.writeEndWith write

def Enumeration.writeWith (e : Enumeration) : m Unit := do
  Entity.writeHeadWith write e.name
  forM e.values fun value => (Attribute.mk valueType value).writeWith write
  Entity.writeEndWith write

def Relationship.writeWith (r : Relationship) : m Unit :=
  writeFragments write
    ["  ", r.left, " ", r.cardinality.connector, " ", r.right, " : \"", r.label, "\"\n"]

def Schema.writeWith (s : Schema) (relationships : List Relationship) : m Unit := do
  writeFragments write [Diagram.heading, "\n"]
  forM s.models.toList (s.writeModelWith write)
  forM s.enums.toList (Enumeration.writeWith write)
  forM relationships (Relationship.writeWith write)

def Schema.writeRepeatedlyWith (s : Schema) (relationships : List Relationship) : Nat → m Unit
  | 0 => pure ()
  | times + 1 => do
    s.writeWith write relationships
    s.writeRepeatedlyWith relationships times

/-- A writer that does not show how a text was cut into fragments. -/
structure Seamless : Prop where
  empty : write "" = pure ()
  append : ∀ a b, write (a ++ b) = write a >>= fun _ => write b

variable {write}

namespace Seamless

theorem forM_eq (h : Seamless write) {α : Type} {f : α → m Unit} {text : α → String}
    (hf : ∀ x, f x = write (text x)) (xs : List α) :
    forM xs f = write (String.join (xs.map text)) := by
  induction xs with
  | nil => exact h.empty.symm
  | cons x xs ih => rw [List.forM_cons, hf, ih, List.map_cons, String.join_cons, h.append]

theorem writeFragments_eq (h : Seamless write) (fragments : List String) :
    writeFragments write fragments = write (String.join fragments) := by
  have heq : forM fragments write = write (String.join (fragments.map id)) :=
    h.forM_eq (fun _ => rfl) fragments
  rwa [List.map_id] at heq

theorem writeAttribute_eq (h : Seamless write) (a : Attribute) :
    a.writeWith write = write (unlines [a.line]) := by
  have htext : String.join ["    ", a.type, " ", a.name, "\n"] = unlines [a.line] := by
    apply String.toList_injective
    simp [unlines, Attribute.line]
  rw [Attribute.writeWith, h.writeFragments_eq, htext]

theorem writeRelationship_eq (h : Seamless write) (r : Relationship) :
    r.writeWith write = write (unlines [r.line]) := by
  have htext : String.join ["  ", r.left, " ", r.cardinality.connector, " ", r.right, " : \"",
      r.label, "\"\n"] = unlines [r.line] := by
    apply String.toList_injective
    simp [unlines, Relationship.line]
  rw [Relationship.writeWith, h.writeFragments_eq, htext]

theorem writeEntity_eq (h : Seamless write) (e : Entity) {body : m Unit}
    (hbody : body = write (unlines (e.attributes.map Attribute.line))) :
    (do Entity.writeHeadWith write e.name; body; Entity.writeEndWith write) = write e.text := by
  have htext : String.join ["  ", e.name, " \x7b\n"] ++
      (unlines (e.attributes.map Attribute.line) ++ String.join ["  ", "\x7d\n"]) = e.text := by
    apply String.toList_injective
    simp [Entity.text, unlines, Entity.lines, String.toList_join]
  rw [Entity.writeHeadWith, Entity.writeEndWith, h.writeFragments_eq, h.writeFragments_eq, hbody,
    ← htext, h.append, h.append]

theorem writeModel_eq (h : Seamless write) (s : Schema) (model : Model) :
    s.writeModelWith write model = write (s.entityOf model).text := by
  refine h.writeEntity_eq (s.entityOf model) ?_
  have hfield : ∀ f : Field,
      (if s.isModel f.baseType then pure () else (Attribute.mk f.baseType f.name).writeWith write) =
        write (unlines (s.attributeLines f)) := by
    intro f
    unfold Schema.attributeLines
    split
    next => exact h.empty.symm
    next => exact h.writeAttribute_eq _
  rw [h.forM_eq hfield, ← unlines_flatMap, Schema.map_line_entityOf]

theorem writeEnumeration_eq (h : Seamless write) (e : Enumeration) :
    e.writeWith write = write e.toEntity.text := by
  refine h.writeEntity_eq e.toEntity ?_
  rw [h.forM_eq fun value => h.writeAttribute_eq ⟨valueType, value⟩, ← unlines_flatMap,
    ← List.map_eq_flatMap, Enumeration.toEntity, List.map_map]
  rfl

theorem writeSchema_eq (h : Seamless write) (s : Schema) (relationships : List Relationship) :
    s.writeWith write relationships = write (s.diagramWith relationships).text := by
  have hheading : String.join [Diagram.heading, "\n"] = unlines [Diagram.heading] := rfl
  rw [Schema.writeWith, h.writeFragments_eq, hheading, h.forM_eq (h.writeModel_eq s),
    h.forM_eq h.writeEnumeration_eq, h.forM_eq h.writeRelationship_eq, ← unlines_flatMap,
    ← List.map_eq_flatMap, ← h.append, ← h.append, ← h.append, Schema.text_diagramWith,
    List.map_map, List.map_map, String.append_assoc, String.append_assoc]
  rfl

theorem writeRepeatedly_eq (h : Seamless write) (s : Schema) (relationships : List Relationship)
    (times : Nat) :
    s.writeRepeatedlyWith write relationships times =
      write (String.join (List.replicate times (s.diagramWith relationships).text)) := by
  induction times with
  | zero => exact h.empty.symm
  | succ times ih =>
    rw [Schema.writeRepeatedlyWith, h.writeSchema_eq, ih, List.replicate_succ, String.join_cons,
      h.append]

end Seamless

end Writer

namespace Sink

theorem write_empty (k : Sink) : k.write "" = .ok k := by
  rcases k with ⟨written, _ | room⟩
  · simp [write]
  · simp [write]

theorem write_of_le {text : String} {room : Nat} (h : text.length ≤ room) (written : String) :
    write ⟨written, some room⟩ text = .ok ⟨written ++ text, some (room - text.length)⟩ :=
  if_pos h

theorem write_of_lt {text : String} {room : Nat} (h : room < text.length) (written : String) :
    write ⟨written, some room⟩ text =
      .error ⟨written ++ String.ofList (text.toList.take room)⟩ :=
  if_neg (Nat.not_le.mpr h)

theorem write_into_room (room : Nat) (text : String) :
    write { room := some room } text =
      if text.length ≤ room then .ok { written := text, room := some (room - text.length) }
      else .error ⟨String.ofList (text.toList.take room)⟩ := by
  simp only [write, String.empty_append]

theorem write_append (k : Sink) (a b : String) :
    k.write (a ++ b) = k.write a >>= fun k => k.write b := by
  have hlength : (a ++ b).length = a.length + b.length := String.length_append a b
  rcases k with ⟨written, _ | room⟩
  · exact congrArg Except.ok (by simp [String.append_assoc])
  · -- The room ends within the first part, within the second one or in neither.
    rcases Nat.lt_or_ge room a.length with ha | ha
    · have hcut : (a ++ b).toList.take room = a.toList.take room := by
        rw [String.toList_append, List.take_append_of_le_length]
        rw [String.length_toList]
        omega
      rw [write_of_lt ha, write_of_lt (by omega), hcut]
      rfl
    · rw [write_of_le ha]
      change _ = write ⟨written ++ a, some (room - a.length)⟩ b
      rcases Nat.lt_or_ge (room - a.length) b.length with hb | hb
      · have hcut : (a ++ b).toList.take room = a.toList ++ b.toList.take (room - a.length) := by
          rw [String.toList_append, List.take_append, String.length_toList,
            List.take_of_length_le (by rwa [String.length_toList])]
        rw [write_of_lt hb, write_of_lt (by omega), hcut, String.ofList_append, String.ofList_toList,
          String.append_assoc]
      · rw [write_of_le hb, write_of_le (by omega), hlength, Nat.sub_add_eq, String.append_assoc]

theorem foldlM_writeLine (k : Sink) (lines : List String) :
    lines.foldlM writeLine k = k.write (unlines lines) := by
  induction lines generalizing k with
  | nil => exact k.write_empty.symm
  | cons line lines ih =>
    have hcons : unlines (line :: lines) = line ++ "\n" ++ unlines lines := String.join_cons
    rw [List.foldlM_cons, hcons, write_append, writeLine]
    exact congrArg _ (funext ih)

theorem writeRepeatedly_eq (k : Sink) (d : Diagram) (times : Nat) :
    writeRepeatedly d times k = k.write (String.join (List.replicate times d.text)) := by
  induction times generalizing k with
  | zero => exact k.write_empty.symm
  | succ times ih =>
    have hdiagram : k.writeDiagram d = k.write d.text := k.foldlM_writeLine d.lines
    rw [writeRepeatedly, hdiagram, List.replicate_succ, String.join_cons, write_append]
    exact congrArg _ (funext ih)

def take (text : String) : EStateM Overflow Sink Unit := fun k =>
  match k.write text with
  | .ok next => .ok () next
  | .error full => .error full ⟨full.written, none⟩

theorem seamless_take : Seamless take where
  empty := by
    funext k
    rw [take, write_empty]
    rfl
  append a b := by
    funext k
    change take (a ++ b) k = EStateM.bind (take a) (fun _ => take b) k
    rw [take, write_append, EStateM.bind, take]
    cases k.write a with
    | ok next => rfl
    | error full => rfl

/-- A diagram that is written again and again, fragment by fragment, into a sink with room for some
characters puts just these characters there if they are not enough, and all of it otherwise. The
first failure is the end of it, although the sink would take more then. Writing whole lines
comes to the same. -/
theorem room_filled_in_order (s : Schema) (relationships : List Relationship) (room times : Nat) :
    let once := (s.diagramWith relationships).text
    let whole := String.join (List.replicate times once)
    (s.writeWith take relationships).run {} = .ok () { written := once } ∧
    (s.writeRepeatedlyWith take relationships times).run { room := some room } =
      (if whole.length ≤ room then
        .ok () { written := whole, room := some (room - whole.length) }
      else
        let first := String.ofList (whole.toList.take room)
        .error ⟨first⟩ { written := first, room := none }) ∧
    writeRepeatedly (s.diagramWith relationships) times { room := some room } =
      (if whole.length ≤ room then
        .ok { written := whole, room := some (room - whole.length) }
      else .error ⟨String.ofList (whole.toList.take room)⟩) := by
  intro once whole
  refine ⟨?_, ?_, ?_⟩
  · rw [seamless_take.writeSchema_eq]
    change EStateM.Result.ok () (Sink.mk ("" ++ once) none) = _
    rw [String.empty_append]
  · rw [seamless_take.writeRepeatedly_eq]
    change take whole { room := some room } = _
    rw [take, write_into_room]
    by_cases h : whole.length ≤ room
    · rw [if_pos h, if_pos h]
    · rw [if_neg h, if_neg h]
  · rw [writeRepeatedly_eq, write_into_room]

/-- The room ends within a connector. -/
example :
    (Schema.empty.writeRepeatedlyWith take [⟨"", "\n", .oneToOne, ""⟩] 2).run { room := some 16 } =
      .error ⟨"erDiagram\n   ||-"⟩ { written := "erDiagram\n   ||-" } := by rfl

end Sink

end EntityDiagram

import EntityDiagram.Diagram
import EntityDiagram.Proofs.KeptLines

namespace EntityDiagram

def Entity.text (e : Entity) : String := unlines e.lines

theorem Entity.text_infix {e : Entity} {d : Diagram} (h : e ∈ d.entities) :
    e.text.toList <:+: d.text.toList := by
  obtain ⟨before, after, he⟩ := List.append_of_mem h
  have hlines : d.lines = Diagram.heading :: before.flatMap Entity.lines ++ e.lines ++
      (after.flatMap Entity.lines ++ d.relationships.map Relationship.line) := by
    simp [Diagram.lines, he]
  refine ⟨(unlines (Diagram.heading :: before.flatMap Entity.lines)).toList,
    (unlines (after.flatMap Entity.lines ++ d.relationships.map Relationship.line)).toList, ?_⟩
  rw [Entity.text, ← String.toList_append, ← String.toList_append, ← unlines_append,
    ← unlines_append, ← hlines]
  rfl

/-- A diagram shows an entity of this name that lists these fields, and its text has the block. -/
structure Diagram.Shows (d : Diagram) (name : String) (fields : List Field) : Prop where
  entity : ⟨name, fields.map fun f => ⟨f.baseType, f.name⟩⟩ ∈ d.entities
  block : (unlines (["  " ++ name ++ " \x7b"] ++
    fields.map (fun f => "    " ++ f.baseType ++ " " ++ f.name) ++ ["  \x7d"])).toList <:+:
      d.text.toList

theorem Diagram.shows_of_mem {d : Diagram} {name : String} {fields : List Field}
    (h : ⟨name, fields.map fun f => ⟨f.baseType, f.name⟩⟩ ∈ d.entities) :
    d.Shows name fields := by
  refine ⟨h, ?_⟩
  have hblock := Entity.text_infix h
  rw [Entity.text, Entity.lines, List.map_map] at hblock
  exact hblock

namespace Schema

def plainFields (s : Schema) (m : Model) : List Field :=
  m.fields.filter (·.baseType ∉ s.models.names)

/-- What a diagram has to show of a schema: a block for each model with its plain fields, a block
for each enumeration with its values, and the links. -/
def view (s : Schema) : Diagram where
  entities :=
    (s.models.toList.map fun m =>
      ⟨m.name, (s.plainFields m).map fun f => ⟨f.baseType, f.name⟩⟩) ++
    s.enums.toList.map fun e => ⟨e.name, e.values.map fun value => ⟨"value", value⟩⟩
  relationships := s.relationships

theorem isModel_eq_false_iff {s : Schema} {name : String} :
    s.isModel name = false ↔ name ∉ s.models.names := by
  rw [← Bool.not_eq_true, isModel, Catalog.contains_iff_mem_names]

theorem mem_plainFields {s : Schema} {m : Model} {f : Field} :
    f ∈ s.plainFields m ↔ f ∈ m.fields ∧ f.baseType ∉ s.models.names := by
  rw [plainFields, List.mem_filter, decide_eq_true_iff]

theorem entityOf_eq_plainFields (s : Schema) (m : Model) :
    s.entityOf m = ⟨m.name, (s.plainFields m).map fun f => ⟨f.baseType, f.name⟩⟩ := by
  have hplain : m.fields.filter (!s.isModel ·.baseType) = s.plainFields m := by
    refine List.filter_congr fun f _ => ?_
    rw [Bool.eq_iff_iff, Bool.not_eq_true', decide_eq_true_iff]
    exact isModel_eq_false_iff
  rw [entityOf, hplain]

theorem shows_plainFields {s : Schema} {m : Model} (h : m ∈ s.models.toList) :
    s.diagram.Shows m.name (s.plainFields m) := by
  refine Diagram.shows_of_mem (List.mem_append_left _ (List.mem_map.mpr ⟨m, h, ?_⟩))
  exact s.entityOf_eq_plainFields m

theorem diagram_eq_view (s : Schema) : s.diagram = s.view := by
  have hmodels : s.entityOf = fun m =>
      ⟨m.name, (s.plainFields m).map fun f => ⟨f.baseType, f.name⟩⟩ :=
    funext s.entityOf_eq_plainFields
  rw [diagram, diagramWith, entities, hmodels]
  rfl

theorem text_diagramWith (s : Schema) (relationships : List Relationship) :
    (s.diagramWith relationships).text = unlines [Diagram.heading] ++
      String.join ((s.models.toList.map s.entityOf).map Entity.text) ++
      String.join ((s.enums.toList.map Enumeration.toEntity).map Entity.text) ++
      unlines (relationships.map Relationship.line) := by
  have hlines : (s.diagramWith relationships).lines = [Diagram.heading] ++
      (s.models.toList.map s.entityOf).flatMap Entity.lines ++
      (s.enums.toList.map Enumeration.toEntity).flatMap Entity.lines ++
      relationships.map Relationship.line := by
    simp [Diagram.lines, diagramWith, entities]
  have htext : (s.diagramWith relationships).text = unlines (s.diagramWith relationships).lines :=
    rfl
  rw [htext, hlines, unlines_append, unlines_append, unlines_append, unlines_flatMap,
    unlines_flatMap]
  rfl

def attributeLines (s : Schema) (f : Field) : List String :=
  if s.isModel f.baseType then [] else [(Attribute.mk f.baseType f.name).line]

theorem map_line_entityOf (s : Schema) (model : Model) :
    (s.entityOf model).attributes.map Attribute.line = model.fields.flatMap s.attributeLines := by
  rw [entityOf]
  induction model.fields with
  | nil => rfl
  | cons f fields ih =>
    rw [List.flatMap_cons, ← ih]
    by_cases h : s.isModel f.baseType = true
    · simp [attributeLines, h]
    · simp [attributeLines, h]

end Schema

end EntityDiagram

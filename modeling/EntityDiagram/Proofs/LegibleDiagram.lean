import EntityDiagram.Proofs.CanonicalSource
import EntityDiagram.Proofs.DiagramReader
import EntityDiagram.Proofs.DiagramText
import EntityDiagram.Proofs.MutualReference

namespace EntityDiagram

theorem isBlank_of_mem_words {c : Char} {word cs : List Char} (h : word ∈ words cs)
    (hc : c ∈ word) : isBlank c = false :=
  separates_eq_false_of_mem_pieces (List.mem_filter.mp h).1 c hc

namespace Field

theorem mem_rawType_of_mem_baseType {f : Field} {c : Char} (h : c ∈ f.baseType.toList) :
    c ∈ f.rawType.toList := by
  rw [← TypeToken.chars_ofChars f.rawType.toList]
  exact List.mem_append_left _ (by simpa [baseType, typeToken] using h)

variable {f : Field}

theorem WellFormed.isBlank_name (h : f.WellFormed) : ∀ c ∈ f.name.toList, isBlank c = false := by
  obtain ⟨rest, hwords⟩ := h.words_eq
  exact fun c hc => isBlank_of_mem_words (hwords ▸ List.mem_cons_self ..) hc

theorem WellFormed.isBlank_baseType (h : f.WellFormed) :
    ∀ c ∈ f.baseType.toList, isBlank c = false := by
  obtain ⟨rest, hwords⟩ := h.words_eq
  have hword : f.rawType.toList ∈ words f.attributes.toList := by simp [hwords]
  exact fun c hc => isBlank_of_mem_words hword (mem_rawType_of_mem_baseType hc)

theorem WellFormed.newline_not_mem_name (h : f.WellFormed) : '\n' ∉ f.name.toList :=
  newline_not_mem_of_isBlank h.isBlank_name

end Field

theorem Entity.legible_diagramLines {e : Entity} (hname : IsRun isWordChar e.name.toList)
    (hentries : ∀ a ∈ e.attributes, (DiagramLine.entry a).Legible) :
    ∀ line ∈ e.diagramLines, line.Legible := by
  intro line hline
  rcases List.mem_cons.mp hline with rfl | hline
  · exact hname
  · rcases List.mem_append.mp hline with hline | hline
    · obtain ⟨a, ha, rfl⟩ := List.mem_map.mp hline
      exact hentries a ha
    · rw [List.mem_singleton.mp hline]
      trivial

namespace Schema

variable {s : Schema}

theorem WellFormed.legible_entityOf (h : s.WellFormed) {m : Model} (hm : m ∈ s.models.toList) :
    ∀ line ∈ (s.entityOf m).diagramLines, line.Legible := by
  refine Entity.legible_diagramLines (h.models m hm).name fun a ha => ?_
  obtain ⟨f, hf, rfl⟩ := List.mem_map.mp ha
  have hfield := (h.models m hm).fields f (List.mem_filter.mp hf).1
  exact ⟨hfield.isBlank_baseType, hfield.newline_not_mem_name⟩

theorem WellFormed.legible_toEntity (h : s.WellFormed) {e : Enumeration}
    (he : e ∈ s.enums.toList) : ∀ line ∈ e.toEntity.diagramLines, line.Legible := by
  refine Entity.legible_diagramLines (h.enums e he).name fun a ha => ?_
  obtain ⟨v, hv, rfl⟩ := List.mem_map.mp ha
  have hword : (valueType.toList.all isWordChar) = true := by decide
  refine ⟨fun c hc => ?_, ((h.enums e he).values v hv).no_feed⟩
  exact isBlank_eq_false_of_isWordChar (List.all_eq_true.mp hword c hc)

theorem WellFormed.legible_link (h : s.WellFormed) {r : Relationship}
    (hr : r ∈ s.relationships) : (DiagramLine.link r).Legible := by
  obtain ⟨m, hm, f, hf, hd⟩ := mem_relationships.mp hr
  obtain ⟨t, ht, _, _, c, rfl⟩ := drawn?_cases hd
  exact ⟨(h.models m hm).name, (h.models t ht).name,
    ((h.models m hm).fields f hf).newline_not_mem_name⟩

theorem WellFormed.legible_diagram (h : s.WellFormed) : s.diagram.Legible := by
  intro line hline
  rcases List.mem_cons.mp hline with rfl | hline
  · trivial
  rcases List.mem_append.mp hline with hline | hline
  · obtain ⟨e, he, hline⟩ := List.mem_flatMap.mp hline
    rcases List.mem_append.mp he with he | he
    · obtain ⟨m, hm, rfl⟩ := List.mem_map.mp he
      exact h.legible_entityOf hm line hline
    · obtain ⟨enum, henum, rfl⟩ := List.mem_map.mp he
      exact h.legible_toEntity henum line hline
  · obtain ⟨r, hr, rfl⟩ := List.mem_map.mp hline
    exact h.legible_link hr

theorem lines_diagram (s : Schema) :
    s.diagram.lines = "erDiagram" ::
      (s.view.entities.flatMap (fun e => ["  " ++ e.name ++ " \x7b"] ++
        e.attributes.map (fun a => "    " ++ a.type ++ " " ++ a.name) ++ ["  \x7d"]) ++
      s.view.relationships.map fun r => "  " ++ r.left ++ " " ++ r.cardinality.connector ++ " " ++
        r.right ++ " : \"" ++ r.label ++ "\"") := by
  rw [diagram_eq_view]
  rfl

theorem length_lines_diagram (s : Schema) :
    s.diagram.lines.length = 1 + 2 * (s.models.size + s.enums.size) +
      (s.view.entities.flatMap Entity.attributes).length + s.relationships.length := by
  have hentities : s.view.entities.length = s.models.size + s.enums.size := by
    simp [view, Catalog.size]
  rw [Diagram.length_lines, diagram_eq_view, hentities]
  rfl

theorem WellFormed.ofText_view (h : s.WellFormed) : Diagram.ofText s.diagram.text = s.view := by
  rw [h.legible_diagram.ofText_text, diagram_eq_view]

theorem WellFormed.ofText_draw_sourceText (h : s.WellFormed) :
    Diagram.ofText (draw s.sourceText) = s.view := by
  rw [draw, h.ofSource_sourceText, h.ofText_view]

end Schema

/-- Two sources are drawn alike exactly if their schemas have one view, which is what the text of a
diagram is made of, line by line, and what is read back from it: whatever the names, the types, the
values and the labels are, each line says what it was written for, and no line breaks apart. -/
theorem draw_read_back :
    (∀ a b, draw a = draw b ↔ (Schema.ofSource a).view = (Schema.ofSource b).view) ∧
    (∀ s : Schema, s.WellFormed ↔
      ∃ source, Schema.ofSource source = s ∧ Diagram.ofText (draw source) = s.view) ∧
    ∀ source, Diagram.ofText (draw source) = (Schema.ofSource source).view ∧
      pieces (· == '\n') (draw source).toList = ("erDiagram" ::
        ((Schema.ofSource source).view.entities.flatMap (fun e => ["  " ++ e.name ++ " \x7b"] ++
          e.attributes.map (fun a => "    " ++ a.type ++ " " ++ a.name) ++ ["  \x7d"]) ++
        (Schema.ofSource source).view.relationships.map fun r => "  " ++ r.left ++ " " ++
          r.cardinality.connector ++ " " ++ r.right ++ " : \"" ++ r.label ++ "\"")).map
            String.toList ++ [[]] ∧
      (pieces (· == '\n') (draw source).toList).map DiagramLine.ofChars? =
        (Schema.ofSource source).view.diagramLines.map some ++ [none] ∧
      (draw source).toList.count '\n' =
        1 + 2 * ((Schema.ofSource source).models.size + (Schema.ofSource source).enums.size) +
          ((Schema.ofSource source).view.entities.flatMap Entity.attributes).length +
          (Schema.ofSource source).relationships.length ∧
      (draw source).toList.getLast? = some '\n' := by
  have hread : ∀ source, Diagram.ofText (draw source) = (Schema.ofSource source).view :=
    fun source => (Schema.wellFormed_ofSource source).ofText_view
  refine ⟨fun a b => ⟨fun h => ?_, fun h => ?_⟩, fun s => ⟨fun h => ?_, ?_⟩, fun source => ?_⟩
  · rw [← hread a, h, hread b]
  · rw [draw, draw, Schema.diagram_eq_view, Schema.diagram_eq_view, h]
  · exact ⟨s.sourceText, h.ofSource_sourceText, h.ofText_draw_sourceText⟩
  · rintro ⟨source, rfl, _⟩
    exact Schema.wellFormed_ofSource source
  · have hlegible := (Schema.wellFormed_ofSource source).legible_diagram
    refine ⟨hread source, ?_, ?_, ?_, getLast?_unlines (List.cons_ne_nil _ _)⟩
    · rw [← Schema.lines_diagram]
      exact hlegible.pieces_text
    · rw [← Schema.diagram_eq_view]
      exact hlegible.map_ofChars?_text
    · rw [← Schema.length_lines_diagram]
      exact count_unlines hlegible.newline_not_mem

end EntityDiagram

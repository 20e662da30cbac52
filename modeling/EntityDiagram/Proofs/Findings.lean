import EntityDiagram.Drawing
import EntityDiagram.Proofs.CatalogOrder

namespace EntityDiagram

def Model.RefersTo (a b : Model) : Prop := ∃ f ∈ a.fields, f.baseType = b.name

theorem Model.refersTo_of_fieldOfType? {a b : Model} {f : Field}
    (h : a.fieldOfType? b.name = some f) : a.RefersTo b :=
  ⟨f, List.mem_of_find?_eq_some h, by simpa using List.find?_some h⟩

theorem Model.RefersTo.exists_first {a b : Model} (h : a.RefersTo b) :
    ∃ f, a.fieldOfType? b.name = some f := by
  obtain ⟨f, hf, hb⟩ := h
  have hsome : (a.fieldOfType? b.name).isSome = true :=
    List.find?_isSome.mpr ⟨f, hf, by simpa using hb⟩
  exact Option.isSome_iff_exists.mp hsome

theorem Model.fieldOfType?_eq_none_iff {a b : Model} :
    a.fieldOfType? b.name = none ↔ ¬ a.RefersTo b := by
  simp [Model.fieldOfType?, Model.RefersTo]

namespace Schema

def drawn? (s : Schema) (m : Model) (f : Field) : Option Relationship :=
  (s.finding? m f).bind Finding.relationship?

variable {s : Schema}

/-- All that can come of a field. -/
theorem finding?_cases {m : Model} {f : Field} {e : Finding} (h : s.finding? m f = some e) :
    ∃ t ∈ s.models.toList, f.baseType = t.name ∧
      (t.fieldOfType? m.name = none ∧ e = .unanswered m.name f.name t.name ∨
        ∃ g, t.fieldOfType? m.name = some g ∧
          (e = .otherSide m.name f.name ∨ ∃ c, e = .related ⟨m.name, t.name, c, f.name⟩)) := by
  obtain ⟨t, ht, he⟩ := Option.map_eq_some_iff.mp h
  obtain ⟨hmem, hname⟩ := Catalog.find?_eq_some_iff.mp ht
  refine ⟨t, hmem, hname.symm, ?_⟩
  subst he
  cases hg : t.fieldOfType? m.name with
  | none => simp
  | some g =>
    cases hc : Cardinality.ofSides? m.name t.name f.isArray g.isArray with
    | none => simp [hc]
    | some c => simp [hc]

theorem relationships_eq_flatMap (s : Schema) :
    s.relationships = s.models.toList.flatMap fun m => m.fields.filterMap (s.drawn? m) := by
  unfold relationships findings
  rw [List.filterMap_flatMap]
  congr 1
  funext m
  rw [List.filterMap_filterMap]
  rfl

theorem mem_relationships {r : Relationship} :
    r ∈ s.relationships ↔ ∃ m ∈ s.models.toList, ∃ f ∈ m.fields, s.drawn? m f = some r := by
  simp [relationships_eq_flatMap]

/-- All that a field can draw: a link to a model that answers it. -/
theorem drawn?_cases {m : Model} {f : Field} {r : Relationship} (h : s.drawn? m f = some r) :
    ∃ t ∈ s.models.toList, f.baseType = t.name ∧ t.RefersTo m ∧
      ∃ c, r = ⟨m.name, t.name, c, f.name⟩ := by
  obtain ⟨e, he, hr⟩ := Option.bind_eq_some_iff.mp h
  obtain ⟨t, ht, hname, hcase⟩ := finding?_cases he
  refine ⟨t, ht, hname, ?_⟩
  rcases hcase with ⟨_, rfl⟩ | ⟨g, hg, rfl | ⟨c, rfl⟩⟩
  · simp [Finding.relationship?] at hr
  · simp [Finding.relationship?] at hr
  · exact ⟨Model.refersTo_of_fieldOfType? hg, c, (Option.some.inj hr).symm⟩

theorem left_of_drawn? {m : Model} {f : Field} {r : Relationship} (h : s.drawn? m f = some r) :
    r.left = m.name := by
  obtain ⟨t, _, _, _, c, rfl⟩ := drawn?_cases h
  rfl

theorem right_of_drawn? {m : Model} {f : Field} {r : Relationship} (h : s.drawn? m f = some r) :
    r.right = f.baseType := by
  obtain ⟨t, _, hname, _, c, rfl⟩ := drawn?_cases h
  exact hname.symm

end Schema

end EntityDiagram

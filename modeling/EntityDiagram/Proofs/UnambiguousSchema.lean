import EntityDiagram.Proofs.SoundLinks

namespace EntityDiagram

structure Model.Rearranged (a b : Model) : Prop where
  name : a.name = b.name
  fields : a.fields.Perm b.fields

instance (r : Relationship) (a b : Model) : Decidable (r.Joins a b) :=
  inferInstanceAs (Decidable (_ ∨ _))

namespace Schema

def Unambiguous (s : Schema) : Prop :=
  ∀ a ∈ s.models.toList, ∀ b ∈ s.models.toList, a.fields.countP (·.baseType == b.name) ≤ 1

instance (s : Schema) : Decidable s.Unambiguous :=
  inferInstanceAs (Decidable (∀ a ∈ s.models.toList, ∀ b ∈ s.models.toList, _ ≤ 1))

/-- A schema whose models stand in another order, and the fields of every model too. -/
def Rearranged (s t : Schema) : Prop :=
  ∃ ms : List Model, s.models.toList.Perm ms ∧ List.Forall₂ Model.Rearranged ms t.models.toList

end Schema

theorem find?_eq_of_perm {α : Type} {p : α → Bool} {xs ys : List α} (h : xs.Perm ys)
    (hone : xs.countP p ≤ 1) : xs.find? p = ys.find? p := by
  have hfilter : (xs.filter p).Perm (ys.filter p) := h.filter p
  rw [← List.head?_filter, ← List.head?_filter]
  rw [List.countP_eq_length_filter] at hone
  match hxs : xs.filter p with
  | [] =>
    rw [hxs] at hfilter
    rw [hfilter.nil_eq]
  | [x] =>
    rw [hxs] at hfilter
    rw [List.perm_singleton.mp hfilter.symm]
  | x :: y :: zs => simp [hxs] at hone

theorem perm_flatMap_of_forall₂ {α β γ : Type} {R : α → β → Prop} {f : α → List γ}
    {g : β → List γ} (hfg : ∀ a b, R a b → (f a).Perm (g b)) {xs : List α} {ys : List β}
    (h : List.Forall₂ R xs ys) : (xs.flatMap f).Perm (ys.flatMap g) := by
  induction h with
  | nil => exact List.Perm.nil
  | cons hxy _ ih => exact (hfg _ _ hxy).append ih

theorem exists_mem_of_forall₂ {α β : Type} {R : α → β → Prop} {xs : List α} {ys : List β}
    (h : List.Forall₂ R xs ys) {x : α} (hx : x ∈ xs) : ∃ y ∈ ys, R x y := by
  induction h with
  | nil => cases hx
  | cons hxy _ ih =>
    rcases List.mem_cons.mp hx with rfl | hx
    · exact ⟨_, List.mem_cons_self .., hxy⟩
    · obtain ⟨y, hy, hr⟩ := ih hx
      exact ⟨y, List.mem_cons_of_mem _ hy, hr⟩

namespace Schema

variable {s t : Schema}

theorem Rearranged.exists_of_mem (h : s.Rearranged t) {a : Model} (ha : a ∈ s.models.toList) :
    ∃ b ∈ t.models.toList, a.Rearranged b := by
  obtain ⟨ms, hperm, hms⟩ := h
  exact exists_mem_of_forall₂ hms (hperm.mem_iff.mp ha)

theorem Rearranged.names_perm (h : s.Rearranged t) : s.models.names.Perm t.models.names := by
  obtain ⟨ms, hperm, hms⟩ := h
  have hnames : ms.map Named.name = t.models.names := by
    rw [Catalog.names, ← List.forall₂_eq_eq_eq, List.forall₂_map_left_iff,
      List.forall₂_map_right_iff]
    exact hms.imp fun _ _ hab => hab.name
  rw [← hnames]
  exact hperm.map Named.name

theorem Rearranged.find?_cases (h : s.Rearranged t) (name : String) :
    s.models.find? name = none ∧ t.models.find? name = none ∨
      ∃ a b, s.models.find? name = some a ∧ t.models.find? name = some b ∧ a.Rearranged b := by
  cases ha : s.models.find? name with
  | none =>
    have hnot : name ∉ s.models.names := by
      rw [← Catalog.contains_iff_mem_names, ← Catalog.isSome_find?_iff, ha]
      simp
    have hnone : t.models.find? name = none := by
      rw [← Option.not_isSome_iff_eq_none, Catalog.isSome_find?_iff,
        Catalog.contains_iff_mem_names, ← h.names_perm.mem_iff]
      exact hnot
    exact Or.inl ⟨rfl, hnone⟩
  | some a =>
    obtain ⟨hmem, hname⟩ := Catalog.find?_eq_some_iff.mp ha
    obtain ⟨b, hb, hab⟩ := h.exists_of_mem hmem
    have hbname : Named.name b = name := hab.name.symm.trans hname
    exact Or.inr ⟨a, b, rfl, Catalog.find?_eq_some_iff.mpr ⟨hb, hbname⟩, hab⟩

theorem Unambiguous.drawn?_eq (hs : s.Unambiguous) (h : s.Rearranged t) {a b : Model}
    (ha : a ∈ s.models.toList) (hab : a.Rearranged b) : s.drawn? a = t.drawn? b := by
  funext f
  unfold drawn? finding?
  rcases h.find?_cases f.baseType with ⟨hx, hy⟩ | ⟨x, y, hx, hy, hxy⟩
  · rw [hx, hy, Option.map_none, Option.map_none]
  · have hmem : x ∈ s.models.toList := (Catalog.find?_eq_some_iff.mp hx).1
    -- The first field that points back is the only one, wherever it stands.
    have hfirst : x.fieldOfType? a.name = y.fieldOfType? b.name := by
      rw [← hab.name]
      exact find?_eq_of_perm hxy.fields (hs x hmem a ha)
    rw [hx, hy, Option.map_some, Option.map_some, hfirst, hab.name, hxy.name]

theorem Unambiguous.relationships_perm (hs : s.Unambiguous) (h : s.Rearranged t) :
    s.relationships.Perm t.relationships := by
  rw [relationships_eq_flatMap, relationships_eq_flatMap]
  obtain ⟨ms, hperm, hms⟩ := h
  have hdeclared : List.Forall₂ (fun a b => a ∈ s.models.toList ∧ a.Rearranged b) ms
      t.models.toList :=
    (List.forall₂_and_left _ _).mpr ⟨fun a ha => hperm.mem_iff.mpr ha, hms⟩
  refine (hperm.flatMap_right _).trans (perm_flatMap_of_forall₂ ?_ hdeclared)
  rintro a b ⟨ha, hab⟩
  rw [hs.drawn?_eq ⟨ms, hperm, hms⟩ ha hab]
  exact hab.fields.filterMap _

theorem countP_joins {a b : Model} (hne : a.name ≠ b.name) (s : Schema) :
    s.relationships.countP (fun r => decide (r.Joins a b)) =
      (s.linksFrom a b).length + (s.linksFrom b a).length := by
  unfold linksFrom
  induction s.relationships with
  | nil => rfl
  | cons r rs ih =>
    rw [List.countP_cons, List.filter_cons, List.filter_cons, ih]
    by_cases hab : r.left = a.name ∧ r.right = b.name
    · have hj : r.Joins a b := Or.inl hab
      simp [hab, hj, hne]
      omega
    · by_cases hba : r.left = b.name ∧ r.right = a.name
      · have hj : r.Joins a b := Or.inr hba
        simp [hba, hj, hne.symm]
        omega
      · have hj : ¬ r.Joins a b := fun h => h.elim hab hba
        simp [hab, hba, hj]

theorem Unambiguous.linksFrom_eq (hs : s.Unambiguous) {a b : Model} (ha : a ∈ s.models.toList)
    (hb : b ∈ s.models.toList) {f : Field} (hf : a.fieldOfType? b.name = some f) :
    s.linksFrom a b = (s.drawn? a f).toList := by
  have hone := hs a ha b hb
  rw [List.countP_eq_length_filter] at hone
  have hhead : (a.fields.filter (·.baseType == b.name)).head? = some f := by
    rw [List.head?_filter]
    exact hf
  obtain ⟨rest, hfilter⟩ := List.head?_eq_some_iff.mp hhead
  rw [hfilter, List.length_cons] at hone
  have hrest : rest = [] := List.length_eq_zero_iff.mp (by omega)
  rw [Schema.linksFrom_eq ha, hfilter, hrest]
  cases hd : s.drawn? a f <;> simp [hd]

theorem Unambiguous.countP_joins_of_mutual (hs : s.Unambiguous) {a b : Model}
    (ha : a ∈ s.models.toList) (hb : b ∈ s.models.toList) (hne : a ≠ b) (hab : a.RefersTo b)
    (hba : b.RefersTo a) : s.relationships.countP (fun r => decide (r.Joins a b)) = 1 := by
  have hname : a.name ≠ b.name := fun e => hne (Catalog.eq_of_name_eq ha hb e)
  obtain ⟨f, hf⟩ := hab.exists_first
  obtain ⟨g, hg⟩ := hba.exists_first
  rw [countP_joins hname, hs.linksFrom_eq ha hb hf, hs.linksFrom_eq hb ha hg]
  rcases first_fields_drawnBy ha hb hne hf hg with ⟨_, h⟩ | ⟨_, h⟩
  · rw [h.drawn, h.silent]
    rfl
  · rw [h.drawn, h.silent]
    rfl

theorem Unambiguous.linksFrom_self (hs : s.Unambiguous) {a : Model} (ha : a ∈ s.models.toList) :
    s.linksFrom a a = [] := by
  cases hf : a.fieldOfType? a.name with
  | none =>
    rw [Schema.linksFrom_self ha, hf]
    rfl
  | some f =>
    have hname : f.baseType = a.name := by simpa using List.find?_some hf
    rw [hs.linksFrom_eq ha ha hf, drawn?_of_answered ha hname hf, Cardinality.ofSides?_self]
    simp

theorem Unambiguous.countP_joins_of_not_mutual (hs : s.Unambiguous) {a b : Model}
    (ha : a ∈ s.models.toList) (hb : b ∈ s.models.toList)
    (h : a = b ∨ ¬ a.RefersTo b ∨ ¬ b.RefersTo a) :
    s.relationships.countP (fun r => decide (r.Joins a b)) = 0 := by
  refine List.countP_eq_zero.mpr fun r hr hj => ?_
  have hjoins : r.Joins a b := by simpa using hj
  obtain ⟨hab, hba⟩ := refersTo_of_linked ha hb ⟨r, hr, hjoins⟩
  rcases h with rfl | h | h
  · have hmem : r ∈ s.linksFrom a a := by
      refine List.mem_filter.mpr ⟨hr, ?_⟩
      rcases hjoins with ⟨hl, hr⟩ | ⟨hl, hr⟩ <;> simp [hl, hr]
    rw [hs.linksFrom_self ha] at hmem
    cases hmem
  · exact h hab
  · exact h hba

/-- In an unambiguous schema the models, and in every model the fields, may stand in any order
without a change of the links but for their order: two distinct models that refer to each other are
linked once, and there are no other links. -/
theorem unambiguous_order_free (s : Schema) (hs : s.Unambiguous) :
    (∀ t : Schema, s.Rearranged t → s.relationships.Perm t.relationships) ∧
    (∀ a ∈ s.models.toList, ∀ b ∈ s.models.toList,
      (a ≠ b → a.RefersTo b → b.RefersTo a →
        s.relationships.countP (fun r => decide (r.Joins a b)) = 1) ∧
      (a = b ∨ ¬ a.RefersTo b ∨ ¬ b.RefersTo a →
        s.relationships.countP (fun r => decide (r.Joins a b)) = 0)) ∧
    ∀ r ∈ s.relationships, ∃ a ∈ s.models.toList, ∃ b ∈ s.models.toList, r.Joins a b := by
  refine ⟨fun t h => hs.relationships_perm h, ?_, ?_⟩
  · intro a ha b hb
    exact ⟨fun hne hab hba => hs.countP_joins_of_mutual ha hb hne hab hba,
      fun h => hs.countP_joins_of_not_mutual ha hb h⟩
  · intro r hr
    obtain ⟨m, hm, f, _, hd⟩ := mem_relationships.mp hr
    obtain ⟨t, ht, _, _, c, rfl⟩ := drawn?_cases hd
    exact ⟨m, hm, t, ht, Or.inl ⟨rfl, rfl⟩⟩

end Schema

namespace Timetable

def teaches : Field := ⟨"teaches", "Course[]", "teaches Course[]"⟩

def taughtBy : Field := ⟨"taughtBy", "Teacher", "taughtBy Teacher"⟩

def attendedBy : Field := ⟨"attendedBy", "Student[]", "attendedBy Student[]"⟩

def attends : Field := ⟨"attends", "Course[]", "attends Course[]"⟩

def mentor : Field := ⟨"mentor", "Student?", "mentor Student?"⟩

def teacher : Model := ⟨"Teacher", [teaches]⟩

def course : Model := ⟨"Course", [taughtBy, attendedBy]⟩

def student : Model := ⟨"Student", [attends, mentor]⟩

def schema : Schema := ⟨⟨[teacher, course, student], by decide⟩, Catalog.empty⟩

def rearranged : Schema :=
  ⟨⟨[⟨"Student", [mentor, attends]⟩, ⟨"Course", [attendedBy, taughtBy]⟩, teacher], by decide⟩,
    Catalog.empty⟩

/-- Courses are linked to their teachers and to their students, but no student to a mentor. -/
theorem timetable_rearranged :
    (schema.Unambiguous ∧ schema.Rearranged rearranged ∧ course ∈ schema.models.toList ∧
      student ∈ schema.models.toList ∧ course ≠ student ∧ course.RefersTo student ∧
      student.RefersTo course) ∧
    schema.relationships.Perm rearranged.relationships ∧
    schema.relationships.countP (fun r => decide (r.Joins course student)) = 1 ∧
    schema.relationships.countP (fun r => decide (r.Joins student student)) = 0 := by
  have hunambiguous : schema.Unambiguous := by decide
  have hrearranged : schema.Rearranged rearranged := by
    refine ⟨[student, course, teacher], by decide, ?_⟩
    refine .cons ⟨rfl, by decide⟩ (.cons ⟨rfl, by decide⟩ (.cons ⟨rfl, by decide⟩ .nil))
  have hcourse : course ∈ schema.models.toList := by decide
  have hstudent : student ∈ schema.models.toList := by decide
  have hattended : course.RefersTo student := ⟨attendedBy, by decide, by decide⟩
  have hattends : student.RefersTo course := ⟨attends, by decide, by decide⟩
  obtain ⟨hperm, hpairs, _⟩ := Schema.unambiguous_order_free schema hunambiguous
  exact ⟨⟨hunambiguous, hrearranged, hcourse, hstudent, by decide, hattended, hattends⟩,
    hperm rearranged hrearranged,
    (hpairs course hcourse student hstudent).1 (by decide) hattended hattends,
    (hpairs student hstudent student hstudent).2 (Or.inl rfl)⟩

end Timetable

end EntityDiagram

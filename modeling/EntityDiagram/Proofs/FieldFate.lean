import EntityDiagram.Proofs.Findings

namespace EntityDiagram

inductive FieldFate
  | plain
  | link
  | unanswered
  | otherSide
deriving DecidableEq

def Finding.fate : Finding → FieldFate
  | related _ => .link
  | unanswered _ _ _ => .unanswered
  | otherSide _ _ => .otherSide

def FieldFate.unlinked? (m : Model) (f : Field) : FieldFate → Option Finding
  | plain => none
  | link => none
  | unanswered => some (.unanswered m.name f.name f.baseType)
  | otherSide => some (.otherSide m.name f.name)

def recordsOf (message : String) (log : List LogRecord) : List LogRecord :=
  log.filter (·.message == message)

def FieldFate.message? : FieldFate → Option String
  | plain => none
  | link => some "Relationship inferred"
  | unanswered => some "No inverse field, relation dropped"
  | otherSide => some "Relationship emitted from the other side"

theorem FieldFate.eq_of_message?_eq (a b : FieldFate) : a.message? = b.message? → a = b := by
  cases a <;> cases b <;> decide

theorem Finding.message?_fate (e : Finding) : e.fate.message? = some e.record.message := by
  cases e <;> rfl

theorem recordsOf_findings {message : String} (fate : FieldFate) (h : fate.message? = some message)
    (findings : List Finding) :
    recordsOf message (findings.map Finding.record) =
      (findings.filter (·.fate = fate)).map Finding.record := by
  rw [recordsOf, List.filter_map]
  congr 1
  refine List.filter_congr fun e _ => ?_
  rw [Bool.eq_iff_iff, Function.comp_apply, beq_iff_eq, decide_eq_true_eq]
  constructor
  · rintro rfl
    exact FieldFate.eq_of_message?_eq _ _ (e.message?_fate.trans h.symm)
  · rintro rfl
    exact Option.some.inj (e.message?_fate.symm.trans h)

def Field.toAttribute (f : Field) : Attribute := ⟨f.baseType, f.name⟩

namespace Schema

def fields (s : Schema) : List (Model × Field) :=
  s.models.toList.flatMap fun m => m.fields.map fun f => (m, f)

def fate (s : Schema) (m : Model) (f : Field) : FieldFate :=
  ((s.finding? m f).map Finding.fate).getD .plain

def fieldsOfFate (s : Schema) (fate : FieldFate) : List (Model × Field) :=
  s.fields.filter fun p => s.fate p.1 p.2 = fate

variable {s : Schema} {m : Model} {f : Field}

theorem mem_fields {p : Model × Field} :
    p ∈ s.fields ↔ p.1 ∈ s.models.toList ∧ p.2 ∈ p.1.fields := by
  constructor
  · intro h
    obtain ⟨m, hm, hp⟩ := List.mem_flatMap.mp h
    obtain ⟨f, hf, rfl⟩ := List.mem_map.mp hp
    exact ⟨hm, hf⟩
  · rintro ⟨hm, hf⟩
    exact List.mem_flatMap.mpr ⟨p.1, hm, List.mem_map_of_mem hf⟩

theorem fate_of_finding? {e : Finding} (h : s.finding? m f = some e) : s.fate m f = e.fate := by
  simp [fate, h]

theorem fate_eq_plain_iff : s.fate m f = .plain ↔ s.isModel f.baseType = false := by
  have hfind : s.finding? m f = none ↔ s.isModel f.baseType = false := by
    rw [finding?, Option.map_eq_none_iff]
    simp [isModel, Catalog.contains, Catalog.find?]
  rw [← hfind]
  cases he : s.finding? m f with
  | none => simp [fate, he]
  | some e => cases e <;> simp [fate, he, Finding.fate]

/-- A field that draws no link leaves nothing but the report of its fate. -/
theorem finding?_of_fate {fate : FieldFate} (hne : fate ≠ .link) (h : s.fate m f = fate) :
    s.finding? m f = fate.unlinked? m f := by
  subst h
  cases he : s.finding? m f with
  | none => simp [Schema.fate, he, FieldFate.unlinked?]
  | some e =>
    rw [fate_of_finding? he] at hne ⊢
    obtain ⟨t, _, hname, ⟨_, rfl⟩ | ⟨g, _, rfl | ⟨c, rfl⟩⟩⟩ := finding?_cases he
    · rw [← hname]
      rfl
    · rfl
    · exact absurd rfl hne

theorem isSome_drawn?_iff : (s.drawn? m f).isSome = true ↔ s.fate m f = .link := by
  cases he : s.finding? m f with
  | none => simp [drawn?, fate, he]
  | some e => cases e <;> simp [drawn?, fate, he, Finding.relationship?, Finding.fate]

theorem flatMap_filterMap_eq (s : Schema) {α : Type} (result? : Model → Field → Option α) :
    (s.models.toList.flatMap fun m => m.fields.filterMap (result? m)) =
      s.fields.filterMap fun p => result? p.1 p.2 := by
  rw [fields, List.filterMap_flatMap]
  congr 1
  funext m
  rw [List.filterMap_map]
  rfl

theorem filter_findings (s : Schema) (fate : FieldFate) :
    s.findings.filter (·.fate = fate) =
      (s.fieldsOfFate fate).filterMap fun p => s.finding? p.1 p.2 := by
  rw [findings, flatMap_filterMap_eq, fieldsOfFate, List.filter_filterMap, List.filterMap_filter]
  refine List.filterMap_congr fun p _ => ?_
  cases he : s.finding? p.1 p.2 with
  | none => simp
  | some e => simp [fate_of_finding? he, Option.filter_some]

theorem filter_findings_of_ne_link (s : Schema) {fate : FieldFate} (hne : fate ≠ .link) :
    s.findings.filter (·.fate = fate) =
      (s.fieldsOfFate fate).filterMap fun p => fate.unlinked? p.1 p.2 := by
  rw [filter_findings]
  refine List.filterMap_congr fun p hp => ?_
  exact finding?_of_fate hne (by simpa using (List.mem_filter.mp hp).2)

theorem filter_findings_link (s : Schema) :
    s.findings.filter (·.fate = .link) = s.relationships.map .related := by
  rw [relationships, List.map_filterMap, ← List.filterMap_eq_filter]
  refine List.filterMap_congr fun e _ => ?_
  cases e <;> simp [Finding.fate, Finding.relationship?, Option.guard]

theorem map_drawn?_fieldsOfFate (s : Schema) :
    (s.fieldsOfFate .link).map (fun p => s.drawn? p.1 p.2) = s.relationships.map some := by
  rw [relationships_eq_flatMap, flatMap_filterMap_eq, List.map_filterMap, fieldsOfFate,
    ← List.filterMap_eq_map, List.filterMap_filter]
  refine List.filterMap_congr fun p _ => ?_
  cases hd : s.drawn? p.1 p.2 with
  | none =>
    have hne : s.fate p.1 p.2 ≠ .link := fun h => by simpa [hd] using isSome_drawn?_iff.mpr h
    simp [hne]
  | some r =>
    have hlink : s.fate p.1 p.2 = .link := isSome_drawn?_iff.mp (by rw [hd]; rfl)
    simp [hlink, hd]

theorem attributes_entityOf (s : Schema) :
    (s.models.toList.map s.entityOf).flatMap Entity.attributes =
      (s.fieldsOfFate .plain).map fun p => p.2.toAttribute := by
  rw [fieldsOfFate, fields, List.flatMap_map, List.filter_flatMap, List.map_flatMap]
  congr 1
  funext m
  have hplain : m.fields.filter (!s.isModel ·.baseType) =
      m.fields.filter ((fun p => s.fate p.1 p.2 = .plain) ∘ fun f => (m, f)) := by
    refine List.filter_congr fun f _ => ?_
    rw [Bool.eq_iff_iff]
    simp [fate_eq_plain_iff]
  rw [List.filter_map, List.map_map, entityOf, hplain]
  rfl

/-- Every field has one of the four fates. -/
theorem perm_fieldsOfFate (s : Schema) :
    s.fields.Perm (s.fieldsOfFate .plain ++ s.fieldsOfFate .link ++
      s.fieldsOfFate .unanswered ++ s.fieldsOfFate .otherSide) := by
  rw [List.perm_iff_count]
  intro q
  simp only [fieldsOfFate, List.count_append]
  -- Each field adds to the count of one part, that of its own fate.
  induction s.fields with
  | nil => rfl
  | cons p ps ih =>
    rw [List.count_cons, ih]
    cases hp : s.fate p.1 p.2 <;> simp [List.count_cons, hp] <;> omega

end Schema

end EntityDiagram

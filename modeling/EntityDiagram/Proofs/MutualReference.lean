import EntityDiagram.Proofs.FieldFate

namespace EntityDiagram

def Relationship.Joins (r : Relationship) (a b : Model) : Prop :=
  r.left = a.name ∧ r.right = b.name ∨ r.left = b.name ∧ r.right = a.name

/-- A list facing a single field draws the link; of two alike fields, the one whose model's name
comes first does. -/
def Field.Leads (a : Model) (f : Field) (b : Model) (g : Field) : Prop :=
  f.isArray = true ∧ g.isArray = false ∨ f.isArray = g.isArray ∧ a.name < b.name

def Cardinality.between (f g : Field) : Cardinality :=
  if f.isArray = g.isArray then (if f.isArray then manyToMany else oneToOne) else oneToMany

namespace Schema

def Linked (s : Schema) (a b : Model) : Prop := ∃ r ∈ s.relationships, r.Joins a b

/-- The first of two fields draws their link and the second draws none. -/
structure DrawnBy (s : Schema) (a : Model) (f : Field) (b : Model) (g : Field) : Prop where
  drawn : s.drawn? a f = some ⟨a.name, b.name, Cardinality.between f g, f.name⟩
  silent : s.drawn? b g = none

def otherSideFields (s : Schema) : List (Model × Field) :=
  s.models.toList.flatMap fun m =>
    (m.fields.filter fun f => s.finding? m f = some (.otherSide m.name f.name)).map fun f => (m, f)

def log (s : Schema) : List LogRecord :=
  (DrawingEvent.ofSchema s).map DrawingEvent.record

end Schema

theorem Field.leads_or_leads {a b : Model} (f g : Field) (h : a.name ≠ b.name) :
    f.Leads a b g ∨ g.Leads b a f := by
  unfold Field.Leads
  rcases Std.lt_trichotomy a.name b.name with hlt | he | hlt
  · cases f.isArray <;> cases g.isArray <;> simp [hlt]
  · exact absurd he h
  · cases f.isArray <;> cases g.isArray <;> simp [hlt]

namespace Cardinality

theorem ofSides?_of_leads {a b : Model} {f g : Field} (h : f.Leads a b g) :
    ofSides? a.name b.name f.isArray g.isArray = some (between f g) := by
  rcases h with ⟨hf, hg⟩ | ⟨he, hlt⟩
  · simp [ofSides?, between, hf, hg]
  · rw [between, if_pos he, ← he]
    cases f.isArray <;> simp [ofSides?, hlt]

theorem ofSides?_of_leads_other {a b : Model} {f g : Field} (h : g.Leads b a f) :
    ofSides? a.name b.name f.isArray g.isArray = none := by
  rcases h with ⟨hg, hf⟩ | ⟨he, hlt⟩
  · simp [ofSides?, hf, hg]
  · have hnot : ¬ a.name < b.name := String.lt_asymm hlt
    rw [he]
    cases f.isArray <;> simp [ofSides?, hnot]

end Cardinality

namespace Schema

variable {s : Schema}

theorem refersTo_of_linked {a b : Model} (ha : a ∈ s.models.toList) (hb : b ∈ s.models.toList)
    (h : s.Linked a b) : a.RefersTo b ∧ b.RefersTo a := by
  obtain ⟨r, hr, hj⟩ := h
  obtain ⟨m, hm, f, hf, hd⟩ := mem_relationships.mp hr
  obtain ⟨t, ht, hname, htm, c, rfl⟩ := drawn?_cases hd
  have hmt : m.RefersTo t := ⟨f, hf, hname⟩
  rcases hj with ⟨hma, htb⟩ | ⟨hmb, hta⟩
  · obtain rfl := Catalog.eq_of_name_eq hm ha hma
    obtain rfl := Catalog.eq_of_name_eq ht hb htb
    exact ⟨hmt, htm⟩
  · obtain rfl := Catalog.eq_of_name_eq hm hb hmb
    obtain rfl := Catalog.eq_of_name_eq ht ha hta
    exact ⟨htm, hmt⟩

theorem drawn?_of_answered {a b : Model} {f g : Field} (hb : b ∈ s.models.toList)
    (hf : f.baseType = b.name) (hg : b.fieldOfType? a.name = some g) :
    s.drawn? a f = (Cardinality.ofSides? a.name b.name f.isArray g.isArray).map
      fun c => ⟨a.name, b.name, c, f.name⟩ := by
  have hfind : s.models.find? f.baseType = some b := Catalog.find?_eq_some_iff.mpr ⟨hb, hf.symm⟩
  unfold drawn? finding?
  cases hc : Cardinality.ofSides? a.name b.name f.isArray g.isArray with
  | none => simp [hfind, hg, hc, Finding.relationship?]
  | some c => simp [hfind, hg, hc, Finding.relationship?]

theorem drawnBy_of_leads {a b : Model} {f g : Field} (ha : a ∈ s.models.toList)
    (hb : b ∈ s.models.toList) (hf : a.fieldOfType? b.name = some f)
    (hg : b.fieldOfType? a.name = some g) (h : f.Leads a b g) : s.DrawnBy a f b g := by
  have hfb : f.baseType = b.name := by simpa using List.find?_some hf
  have hga : g.baseType = a.name := by simpa using List.find?_some hg
  constructor
  · rw [drawn?_of_answered hb hfb hg, Cardinality.ofSides?_of_leads h]
    rfl
  · rw [drawn?_of_answered ha hga hf, Cardinality.ofSides?_of_leads_other h]
    rfl

theorem first_fields_drawnBy {a b : Model} {f g : Field} (ha : a ∈ s.models.toList)
    (hb : b ∈ s.models.toList) (hne : a ≠ b) (hf : a.fieldOfType? b.name = some f)
    (hg : b.fieldOfType? a.name = some g) :
    f.Leads a b g ∧ s.DrawnBy a f b g ∨ g.Leads b a f ∧ s.DrawnBy b g a f := by
  have hname : a.name ≠ b.name := fun e => hne (Catalog.eq_of_name_eq ha hb e)
  rcases Field.leads_or_leads f g hname with h | h
  · exact Or.inl ⟨h, drawnBy_of_leads ha hb hf hg h⟩
  · exact Or.inr ⟨h, drawnBy_of_leads hb ha hg hf h⟩

theorem DrawnBy.linked {a b : Model} {f g : Field} (ha : a ∈ s.models.toList) (hf : f ∈ a.fields)
    (h : s.DrawnBy a f b g) : s.Linked a b :=
  ⟨_, mem_relationships.mpr ⟨a, ha, f, hf, h.drawn⟩, Or.inl ⟨rfl, rfl⟩⟩

theorem Linked.symm {a b : Model} (h : s.Linked a b) : s.Linked b a := by
  obtain ⟨r, hr, hj⟩ := h
  exact ⟨r, hr, hj.symm⟩

theorem linked_iff {a b : Model} (ha : a ∈ s.models.toList) (hb : b ∈ s.models.toList)
    (hne : a ≠ b) : s.Linked a b ↔ a.RefersTo b ∧ b.RefersTo a := by
  constructor
  · exact refersTo_of_linked ha hb
  · rintro ⟨hab, hba⟩
    obtain ⟨f, hf⟩ := hab.exists_first
    obtain ⟨g, hg⟩ := hba.exists_first
    rcases first_fields_drawnBy ha hb hne hf hg with ⟨_, h⟩ | ⟨_, h⟩
    · exact h.linked ha (List.mem_of_find?_eq_some hf)
    · exact (h.linked hb (List.mem_of_find?_eq_some hg)).symm

theorem mem_otherSideFields {m : Model} {f : Field} :
    (m, f) ∈ s.otherSideFields ↔ m ∈ s.models.toList ∧ f ∈ m.fields ∧
      s.finding? m f = some (.otherSide m.name f.name) := by
  simp only [otherSideFields, List.mem_flatMap, List.mem_map, List.mem_filter,
    decide_eq_true_eq, Prod.mk.injEq]
  constructor
  · rintro ⟨m', hm, f', ⟨hf, hd⟩, rfl, rfl⟩
    exact ⟨hm, hf, hd⟩
  · rintro ⟨hm, hf, hd⟩
    exact ⟨m, hm, f, ⟨hf, hd⟩, rfl, rfl⟩

theorem linked_of_otherSide {m t : Model} {f : Field} (h : (m, f) ∈ s.otherSideFields)
    (ht : t ∈ s.models.toList) (hf : f.baseType = t.name) (hne : t ≠ m) : s.Linked m t := by
  obtain ⟨hm, hmem, hfound⟩ := mem_otherSideFields.mp h
  obtain ⟨t', ht', hname, hcase⟩ := finding?_cases hfound
  obtain rfl := Catalog.eq_of_name_eq ht' ht (hname.symm.trans hf)
  rcases hcase with ⟨_, he⟩ | ⟨g, hg, _⟩
  · cases he
  · exact (linked_iff hm ht' hne.symm).mpr
      ⟨⟨f, hmem, hname⟩, Model.refersTo_of_fieldOfType? hg⟩

theorem fieldsOfFate_otherSide (s : Schema) : s.fieldsOfFate .otherSide = s.otherSideFields := by
  rw [fieldsOfFate, fields, otherSideFields, List.filter_flatMap]
  congr 1
  funext m
  rw [List.filter_map]
  congr 1
  refine List.filter_congr fun f _ => ?_
  rw [Bool.eq_iff_iff, Function.comp_apply, decide_eq_true_eq, decide_eq_true_eq]
  exact ⟨finding?_of_fate (by decide), fate_of_finding?⟩

theorem filter_log (s : Schema) :
    s.log.filter (·.message == "Relationship emitted from the other side") =
      s.otherSideFields.map fun p => (Finding.otherSide p.1.name p.2.name).record := by
  have hfound : s.log = s.findings.map Finding.record ++
      [(DrawingEvent.relationshipsInferred s.relationships.length).record,
        (DrawingEvent.rendered s.diagram.text).record] := by
    simp [log, DrawingEvent.ofSchema, DrawingEvent.record]
  have hrest : [(DrawingEvent.relationshipsInferred s.relationships.length).record,
      (DrawingEvent.rendered s.diagram.text).record].filter
        (·.message == "Relationship emitted from the other side") = [] := by
    simp [DrawingEvent.record]
  have hrecords := recordsOf_findings .otherSide rfl s.findings
  rw [filter_findings_of_ne_link s (by decide), fieldsOfFate_otherSide, List.map_filterMap]
    at hrecords
  rw [hfound, List.filter_append, hrest, List.append_nil]
  exact hrecords.trans (congrFun List.filterMap_eq_map _)

/-- Of two distinct models that refer to each other, exactly one first field draws their link, and
no link is drawn between models of which one does not refer to the other. So the fields that are
reported as left to the other side are never left out of the diagram. -/
theorem distinct_models_linked_once (s : Schema) :
    s.relationships = s.models.toList.flatMap (fun m => m.fields.filterMap (s.drawn? m)) ∧
    (∀ a ∈ s.models.toList, ∀ b ∈ s.models.toList, a ≠ b →
      (∀ f g, a.fieldOfType? b.name = some f → b.fieldOfType? a.name = some g →
        f.Leads a b g ∧ s.DrawnBy a f b g ∨ g.Leads b a f ∧ s.DrawnBy b g a f) ∧
      (a.fieldOfType? b.name = none ∨ b.fieldOfType? a.name = none →
        ∀ r ∈ s.relationships, ¬ r.Joins a b) ∧
      (s.Linked a b ↔ a.RefersTo b ∧ b.RefersTo a)) ∧
    s.log.filter (·.message == "Relationship emitted from the other side") =
      s.otherSideFields.map (fun p => ⟨.trace, "Relationship emitted from the other side",
        [("model", p.1.name), ("field", p.2.name)]⟩) ∧
    (∀ m f t, (m, f) ∈ s.otherSideFields → t ∈ s.models.toList → f.baseType = t.name → t ≠ m →
      s.Linked m t) := by
  refine ⟨relationships_eq_flatMap s, ?_, filter_log s, ?_⟩
  · intro a ha b hb hne
    refine ⟨fun f g hf hg => first_fields_drawnBy ha hb hne hf hg, ?_, linked_iff ha hb hne⟩
    intro hnone r hr hj
    obtain ⟨hab, hba⟩ := refersTo_of_linked ha hb ⟨r, hr, hj⟩
    rcases hnone with h | h
    · exact Model.fieldOfType?_eq_none_iff.mp h hab
    · exact Model.fieldOfType?_eq_none_iff.mp h hba
  · intro m f t h ht hf hne
    exact linked_of_otherSide h ht hf hne

end Schema

namespace Forum

def written : Field := ⟨"written", "Post[]", "written Post[]"⟩

def edited : Field := ⟨"edited", "Post[]", "edited Post[]"⟩

def author : Field := ⟨"author", "User", "author User"⟩

def editor : Field := ⟨"editor", "User?", "editor User?"⟩

def user : Model := ⟨"User", [written, edited]⟩

def post : Model := ⟨"Post", [author, editor]⟩

def schema : Schema := ⟨⟨[user, post], by decide⟩, Catalog.empty⟩

/-- Users and posts refer to each other twice; the first fields decide that the list draws, and the
second field of a post relies on it. -/
theorem user_post_linked_once :
    (user ∈ schema.models.toList ∧ post ∈ schema.models.toList ∧ user ≠ post ∧
      user.fieldOfType? post.name = some written ∧ post.fieldOfType? user.name = some author ∧
      (post, editor) ∈ schema.otherSideFields) ∧
    schema.DrawnBy user written post author ∧ schema.Linked post user := by
  have huser : user ∈ schema.models.toList := by decide
  have hpost : post ∈ schema.models.toList := by decide
  have hwritten : user.fieldOfType? post.name = some written := by decide
  have hauthor : post.fieldOfType? user.name = some author := by decide
  have heditor : (post, editor) ∈ schema.otherSideFields := by decide
  obtain ⟨_, hpair, _, hreported⟩ := Schema.distinct_models_linked_once schema
  refine ⟨⟨huser, hpost, by decide, hwritten, hauthor, heditor⟩, ?_,
    hreported post editor user heditor huser (by decide) (by decide)⟩
  rcases (hpair user huser post hpost (by decide)).1 written author hwritten hauthor with
    ⟨_, h⟩ | ⟨hleads, _⟩
  · exact h
  · exact absurd hleads (by unfold Field.Leads; decide)

end Forum

end EntityDiagram

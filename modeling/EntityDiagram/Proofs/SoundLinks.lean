import EntityDiagram.Proofs.DeclarationOrder

namespace EntityDiagram

namespace Cardinality

theorem ofSides?_eq_some {model related : String} {isArray inverseIsArray : Bool} {c : Cardinality}
    (h : ofSides? model related isArray inverseIsArray = some c) :
    (c = .oneToMany ↔ isArray = true ∧ inverseIsArray = false) ∧
      (c = .manyToMany ↔ isArray = true ∧ inverseIsArray = true) ∧
      (c = .oneToOne ↔ isArray = false ∧ inverseIsArray = false) ∧
      (c ≠ .oneToMany → model < related) := by
  unfold ofSides? at h
  split at h
  next =>
    obtain rfl := Option.some.inj h
    simp
  next => cases h
  next =>
    split at h
    next hlt =>
      obtain rfl := Option.some.inj h
      simp [hlt]
    next => cases h
  next =>
    split at h
    next hlt =>
      obtain rfl := Option.some.inj h
      simp [hlt]
    next => cases h

theorem ofSides?_self (model : String) (isArray inverseIsArray : Bool) :
    ofSides? model model isArray inverseIsArray =
      if isArray && !inverseIsArray then some .oneToMany else none := by
  have hirrefl : ¬ model < model := String.lt_irrefl model
  cases isArray with
  | true =>
    cases inverseIsArray with
    | true => exact if_neg hirrefl
    | false => rfl
  | false =>
    cases inverseIsArray with
    | true => rfl
    | false => exact if_neg hirrefl

end Cardinality

namespace Schema

/-- What holds of a link: `f` is the field of `m` that draws it, and `g` the first field of `t` that
points back. -/
structure DrawnFrom (s : Schema) (m : Model) (f : Field) (t : Model) (g : Field)
    (r : Relationship) : Prop where
  left : m ∈ s.models.toList ∧ r.left = m.name
  right : t ∈ s.models.toList ∧ r.right = t.name
  label : f ∈ m.fields ∧ r.label = f.name
  type : f.baseType = r.right
  inverse : t.fields.find? (·.baseType == r.left) = some g
  oneToMany : r.cardinality = .oneToMany ↔ f.isArray = true ∧ g.isArray = false
  manyToMany : r.cardinality = .manyToMany ↔ f.isArray = true ∧ g.isArray = true
  oneToOne : r.cardinality = .oneToOne ↔ f.isArray = false ∧ g.isArray = false
  ordered : r.cardinality ≠ .oneToMany → r.left < r.right
  left_shown : s.diagram.Shows r.left (m.fields.filter (·.baseType ∉ s.models.names))
  right_shown : s.diagram.Shows r.right (t.fields.filter (·.baseType ∉ s.models.names))
  not_listed : ∀ p ∈ m.fields.filter (·.baseType ∉ s.models.names), p ≠ f ∧ p.baseType ≠ r.right

def linksFrom (s : Schema) (a b : Model) : List Relationship :=
  s.relationships.filter fun r => r.left == a.name && r.right == b.name

variable {s : Schema}

theorem ne_of_mem_plainFields {m t : Model} (ht : t ∈ s.models.toList) {p : Field}
    (h : p ∈ s.plainFields m) : p.baseType ≠ t.name := by
  intro he
  refine (mem_plainFields.mp h).2 ?_
  rw [he]
  exact List.mem_map_of_mem ht

theorem drawnFrom_of_drawn? {m : Model} {f : Field} {r : Relationship} (hm : m ∈ s.models.toList)
    (hf : f ∈ m.fields) (h : s.drawn? m f = some r) : ∃ t g, s.DrawnFrom m f t g r := by
  obtain ⟨t, ht, hname, hback, _⟩ := drawn?_cases h
  obtain ⟨g, hg⟩ := hback.exists_first
  rw [drawn?_of_answered ht hname hg] at h
  obtain ⟨c, hc, rfl⟩ := Option.map_eq_some_iff.mp h
  obtain ⟨honeToMany, hmanyToMany, honeToOne, hlt⟩ := Cardinality.ofSides?_eq_some hc
  exact ⟨t, g, {
    left := ⟨hm, rfl⟩
    right := ⟨ht, rfl⟩
    label := ⟨hf, rfl⟩
    type := hname
    inverse := hg
    oneToMany := honeToMany
    manyToMany := hmanyToMany
    oneToOne := honeToOne
    ordered := hlt
    left_shown := shows_plainFields hm
    right_shown := shows_plainFields ht
    not_listed := fun p hp =>
      ⟨fun he => ne_of_mem_plainFields ht hp (he ▸ hname), ne_of_mem_plainFields ht hp⟩ }⟩

theorem forall₂_drawn? (s : Schema) :
    List.Forall₂ (fun p r => s.drawn? p.1 p.2 = some r) (s.fieldsOfFate .link) s.relationships := by
  have hmap := map_drawn?_fieldsOfFate s
  rw [← List.forall₂_eq_eq_eq, List.forall₂_map_left_iff, List.forall₂_map_right_iff] at hmap
  exact hmap

theorem linksFrom_eq {a : Model} (ha : a ∈ s.models.toList) (b : Model) :
    s.linksFrom a b = (a.fields.filter (·.baseType == b.name)).filterMap (s.drawn? a) := by
  have hfind : s.models.find? a.name = some a := Catalog.find?_eq_some_iff.mpr ⟨ha, rfl⟩
  have hleft : s.relationships.filter (·.left == a.name) = a.fields.filterMap (s.drawn? a) := by
    simp [filter_relationships_left, hfind]
  have hboth : s.linksFrom a b =
      (s.relationships.filter (·.left == a.name)).filter (·.right == b.name) := by
    rw [linksFrom, List.filter_filter]
    exact List.filter_congr fun r _ => Bool.and_comm _ _
  rw [hboth, hleft, List.filter_filterMap, List.filterMap_filter]
  -- A field draws a link to the model of its type, so the links to `b` may be told by the type.
  refine List.filterMap_congr fun f _ => ?_
  cases hd : s.drawn? a f with
  | none => simp
  | some r => simp [Option.filter_some, right_of_drawn? hd]

theorem linksFrom_self {m : Model} (hm : m ∈ s.models.toList) :
    s.linksFrom m m =
      if (m.fieldOfType? m.name).any (!·.isArray) then
        (m.fields.filter fun f => f.baseType == m.name && f.isArray).map
          fun f => ⟨m.name, m.name, .oneToMany, f.name⟩
      else [] := by
  rw [linksFrom_eq hm]
  cases hg : m.fieldOfType? m.name with
  | none =>
    have hnone : m.fields.filter (·.baseType == m.name) = [] :=
      List.filter_eq_nil_iff.mpr (List.find?_eq_none.mp hg)
    rw [hnone]
    rfl
  | some g =>
    have hdrawn : ∀ f ∈ m.fields.filter (·.baseType == m.name), s.drawn? m f =
        if f.isArray && !g.isArray then some ⟨m.name, m.name, .oneToMany, f.name⟩ else none := by
      intro f hf
      have hname : f.baseType = m.name := by simpa using (List.mem_filter.mp hf).2
      rw [drawn?_of_answered hm hname hg, Cardinality.ofSides?_self]
      split <;> rfl
    rw [List.filterMap_congr hdrawn]
    cases harray : g.isArray with
    | true => simp [harray]
    | false =>
      simp only [Option.any_some, harray, Bool.not_false, Bool.and_true, if_true]
      rw [← List.filterMap_eq_map, List.filterMap_filter, List.filterMap_filter]
      refine List.filterMap_congr fun f _ => ?_
      cases f.baseType == m.name <;> simp

/-- The links are drawn by some of the fields, one by each and in their order. Each of them joins
two declared models that the diagram shows, its label names the field that draws it and its
cardinality follows from this field and the first one that points back. Two alike sides are never
the same model, so that a model is linked to itself by its lists alone. -/
theorem relationships_sound (s : Schema) :
    (∃ chosen, chosen.Sublist s.fields ∧
      List.Forall₂ (fun p r => ∃ t g, s.DrawnFrom p.1 p.2 t g r) chosen s.relationships) ∧
    (∀ r ∈ s.relationships, r.left = r.right → r.cardinality = .oneToMany) ∧
    ∀ m ∈ s.models.toList, s.relationships.filter (fun r => r.left == m.name && r.right == m.name) =
      if (m.fields.find? (·.baseType == m.name)).any (!·.isArray) then
        (m.fields.filter fun f => f.baseType == m.name && f.isArray).map
          fun f => ⟨m.name, m.name, .oneToMany, f.name⟩
      else [] := by
  refine ⟨⟨s.fieldsOfFate .link, List.filter_sublist, ?_⟩, ?_, fun m hm => linksFrom_self hm⟩
  · have hfields : ∀ p ∈ s.fieldsOfFate .link, p.1 ∈ s.models.toList ∧ p.2 ∈ p.1.fields :=
      fun p hp => mem_fields.mp (List.mem_filter.mp hp).1
    refine List.Forall₂.imp ?_ ((List.forall₂_and_left _ _).mpr ⟨hfields, forall₂_drawn? s⟩)
    rintro p r ⟨⟨hm, hf⟩, hd⟩
    exact drawnFrom_of_drawn? hm hf hd
  · intro r hr he
    obtain ⟨m, hm, f, hf, hd⟩ := mem_relationships.mp hr
    obtain ⟨t, g, h⟩ := drawnFrom_of_drawn? hm hf hd
    by_contra hc
    have hlt := h.ordered hc
    rw [he] at hlt
    exact String.lt_irrefl _ hlt

end Schema

namespace Staff

def manager : Field := ⟨"manager", "Employee?", "manager Employee?"⟩

def reports : Field := ⟨"reports", "Employee[]", "reports Employee[]"⟩

def employee : Model := ⟨"Employee", [manager, reports]⟩

def schema : Schema := ⟨⟨[employee], by decide⟩, Catalog.empty⟩

def management : Relationship := ⟨"Employee", "Employee", .oneToMany, "reports"⟩

/-- An employee has one manager and many reports, and the reports draw the link. -/
theorem employee_linked_by_reports :
    (employee ∈ schema.models.toList ∧ management ∈ schema.relationships ∧
      management.left = management.right) ∧
    management.cardinality = .oneToMany ∧
    schema.relationships.filter (fun r => r.left == employee.name && r.right == employee.name) =
      [management] := by
  have hemployee : employee ∈ schema.models.toList := by decide
  have hmanagement : management ∈ schema.relationships := by decide
  obtain ⟨_, honly, hself⟩ := Schema.relationships_sound schema
  have hlinks := hself employee hemployee
  rw [if_pos (by decide)] at hlinks
  exact ⟨⟨hemployee, hmanagement, rfl⟩, honly management hmanagement rfl, hlinks⟩

end Staff

end EntityDiagram

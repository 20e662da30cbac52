import EntityDiagram.Proofs.CatalogRun
import EntityDiagram.Proofs.DeclarationOrder

namespace EntityDiagram

namespace Insertion

variable {kind : BlockKind}

theorem map_name_item?_congr (kind : BlockKind) {i k : Insertion} (h : i.header = k.header) :
    (i.item? kind).map Named.name = (k.item? kind).map Named.name := by
  rw [map_name_item?, map_name_item?, h]

theorem filterMap_filter_kind (steps : List Insertion) :
    (steps.filter (·.header.kind = kind)).filterMap (item? kind) =
      steps.filterMap (item? kind) := by
  rw [List.filterMap_filter]
  refine List.filterMap_congr fun i _ => ?_
  by_cases h : i.header.kind = kind
  · simp [h]
  · simp [h, item?_eq_none_iff.mpr h]

theorem filterMap_filter_other {other : BlockKind} (hne : other ≠ kind) (steps : List Insertion) :
    (steps.filter (·.header.kind = other)).filterMap (item? kind) = [] := by
  refine List.filterMap_eq_nil_iff.mpr fun i hi => item?_eq_none_iff.mpr ?_
  have hkind : i.header.kind = other := by simpa using (List.mem_filter.mp hi).2
  rw [hkind]
  exact hne

end Insertion

namespace Schema

section Overwritten

variable {i j k : Insertion} (before middle after : List Insertion)

/-- An insertion that is followed by another of its kind and name is never looked up. -/
theorem find?_catalog_dropped (h : i.header = k.header) (kind : BlockKind) :
    ((afterInsertions (before ++ i :: middle ++ k :: after)).catalog kind).find? =
      ((afterInsertions (before ++ middle ++ k :: after)).catalog kind).find? := by
  rw [catalog_afterInsertions, catalog_afterInsertions]
  have hname := Insertion.map_name_item?_congr kind h
  cases hk : k.item? kind with
  | none =>
    have hi : i.item? kind = none := by simpa [hk] using hname
    simp only [List.filterMap_append, List.filterMap_cons_none hi]
  | some z =>
    obtain ⟨x, hi, hx⟩ : ∃ x, i.item? kind = some x ∧ Named.name x = Named.name z := by
      simpa [hk] using hname
    simp only [List.filterMap_append, List.filterMap_cons_some hi, List.filterMap_cons_some hk]
    exact Catalog.find?_insertAll_overwritten hx _ _ _

theorem names_catalog_congr {steps others : List Insertion}
    (h : steps.map Insertion.header = others.map Insertion.header) (kind : BlockKind) :
    ((afterInsertions steps).catalog kind).names =
      ((afterInsertions others).catalog kind).names := by
  have hnames : ∀ is : List Insertion, (is.filterMap (Insertion.item? kind)).map Named.name =
      (is.map Insertion.header).filterMap fun h => if h.kind = kind then some h.name else none := by
    intro is
    rw [List.map_filterMap, List.filterMap_map]
    exact List.filterMap_congr fun i _ => i.map_name_item? kind
  rw [catalog_afterInsertions, catalog_afterInsertions, Catalog.names_insertAll_empty,
    Catalog.names_insertAll_empty, hnames, hnames, h]

theorem names_catalog_known (h : i.header ∈ before.map Insertion.header) (kind : BlockKind) :
    ((afterInsertions (before ++ i :: after)).catalog kind).names =
      ((afterInsertions (before ++ after)).catalog kind).names := by
  rw [catalog_afterInsertions, catalog_afterInsertions, List.filterMap_append,
    List.filterMap_append]
  cases hi : i.item? kind with
  | none => rw [List.filterMap_cons_none hi]
  | some x =>
    obtain ⟨j, hj, hheader⟩ := List.mem_map.mp h
    obtain ⟨y, hy, hname⟩ : ∃ y, j.item? kind = some y ∧ Named.name y = Named.name x := by
      simpa [hi] using Insertion.map_name_item?_congr kind hheader
    have hmem : Named.name x ∈ (before.filterMap (Insertion.item? kind)).map Named.name :=
      List.mem_map.mpr ⟨y, List.mem_filterMap.mpr ⟨j, hj, hy⟩, hname⟩
    rw [List.filterMap_cons_some hi]
    exact Catalog.names_insertAll_known hmem _

theorem same_dropped (h : i.header = k.header) :
    (afterInsertions (before ++ i :: middle ++ k :: after)).Same
      (afterInsertions (before ++ middle ++ k :: after)) :=
  same_of_catalog fun kind =>
    Catalog.same_of_find?_eq (find?_catalog_dropped before middle after h kind)

theorem afterInsertions_replaced (hi : i.header = k.header) (hj : j.header = k.header) :
    afterInsertions (before ++ i :: middle ++ k :: after) =
      afterInsertions (before ++ j :: middle ++ k :: after) := by
  have hheaders : (before ++ i :: middle ++ k :: after).map Insertion.header =
      (before ++ j :: middle ++ k :: after).map Insertion.header := by
    simp [hi, hj]
  refine ext_of_catalog fun kind => ?_
  have hfind := (find?_catalog_dropped before middle after hi kind).trans
    (find?_catalog_dropped before middle after hj kind).symm
  exact (Catalog.same_of_find?_eq hfind).eq_of_names_eq (names_catalog_congr hheaders kind)

theorem afterInsertions_dropped (h : i.header = k.header)
    (hknown : i.header ∈ before.map Insertion.header) :
    afterInsertions (before ++ i :: middle ++ k :: after) =
      afterInsertions (before ++ middle ++ k :: after) := by
  refine ext_of_catalog fun kind => ?_
  have hsame := Catalog.same_of_find?_eq (find?_catalog_dropped before middle after h kind)
  refine hsame.eq_of_names_eq ?_
  rw [List.append_assoc, List.append_assoc]
  exact names_catalog_known before _ hknown kind

end Overwritten

theorem holdsRun_catalog (steps : List Insertion) (kind : BlockKind) :
    ((afterInsertions steps).catalog kind).HoldsRun (steps.filterMap (Insertion.item? kind)) := by
  rw [catalog_afterInsertions]
  exact Catalog.holdsRun_insertAll_empty _

theorem isEmpty_iff {s : Schema} : s.isEmpty = true ↔ s.models.size = 0 ∧ s.enums.size = 0 := by
  simp [isEmpty, Catalog.isEmpty, Catalog.size]

theorem catalog_afterInsertions_kind (steps : List Insertion) (kind : BlockKind) :
    (afterInsertions (steps.filter (·.header.kind = kind))).catalog kind =
      (afterInsertions steps).catalog kind := by
  rw [catalog_afterInsertions, catalog_afterInsertions, Insertion.filterMap_filter_kind]

theorem catalog_afterInsertions_other (steps : List Insertion) {kind other : BlockKind}
    (hne : other ≠ kind) :
    (afterInsertions (steps.filter (·.header.kind = other))).catalog kind = Catalog.empty := by
  rw [catalog_afterInsertions, Insertion.filterMap_filter_other hne]
  rfl

structure HoldsInsertions (s : Schema) (steps : List Insertion) : Prop where
  models : s.models.HoldsRun (steps.filterMap Insertion.model?)
  enums : s.enums.HoldsRun (steps.filterMap Insertion.enum?)
  isModel : ∀ name, s.isModel name = true ↔ (s.models.find? name).isSome = true
  isEmpty : s.isEmpty = true ↔ s.models.size = 0 ∧ s.enums.size = 0
  models_alone : afterInsertions (steps.filter (·.header.kind = .model)) = ⟨s.models, Catalog.empty⟩
  enums_alone : afterInsertions (steps.filter (·.header.kind = .enum)) = ⟨Catalog.empty, s.enums⟩

theorem holdsInsertions (steps : List Insertion) :
    (afterInsertions steps).HoldsInsertions steps where
  models := holdsRun_catalog steps .model
  enums := holdsRun_catalog steps .enum
  isModel _ := Catalog.isSome_find?_iff.symm
  isEmpty := isEmpty_iff
  models_alone := Schema.ext (catalog_afterInsertions_kind steps .model)
    (catalog_afterInsertions_other steps (by decide : BlockKind.model ≠ .enum))
  enums_alone := Schema.ext
    (catalog_afterInsertions_other steps (by decide : BlockKind.enum ≠ .model))
    (catalog_afterInsertions_kind steps .enum)

/-- After any run of insertions a name has the place of its first insertion and stands for what its
last one brought, models and enumerations apart. A definition that is inserted again may have been
any other of its name, and had it not been inserted at all, nothing but the order could differ. The
reading of a source is such a run. -/
theorem first_place_last_definition :
    (∀ steps, (afterInsertions steps).HoldsInsertions steps) ∧
    (∀ (before middle after : List Insertion) (i k : Insertion), i.header = k.header →
      (∀ j : Insertion, j.header = k.header →
        afterInsertions (before ++ i :: middle ++ k :: after) =
          afterInsertions (before ++ j :: middle ++ k :: after)) ∧
      (afterInsertions (before ++ i :: middle ++ k :: after)).models.find? =
        (afterInsertions (before ++ middle ++ k :: after)).models.find? ∧
      (afterInsertions (before ++ i :: middle ++ k :: after)).enums.find? =
        (afterInsertions (before ++ middle ++ k :: after)).enums.find? ∧
      (afterInsertions (before ++ i :: middle ++ k :: after)).DrawnAlike
        (afterInsertions (before ++ middle ++ k :: after)) ∧
      (i.header ∈ before.map Insertion.header →
        afterInsertions (before ++ i :: middle ++ k :: after) =
          afterInsertions (before ++ middle ++ k :: after))) ∧
    ∀ source, ofSource source =
      afterInsertions ((blocks (sourceRoles source)).map Block.toInsertion) := by
  refine ⟨holdsInsertions, ?_, fun source => ofBlocks_eq_afterInsertions _⟩
  intro before middle after i k hi
  refine ⟨fun j hj => afterInsertions_replaced before middle after hi hj,
    find?_catalog_dropped before middle after hi .model,
    find?_catalog_dropped before middle after hi .enum,
    (same_dropped before middle after hi).drawnAlike,
    afterInsertions_dropped before middle after hi⟩

end Schema

namespace Forum

def firstUser : Insertion := .model ⟨"User", []⟩

def draftedUser : Insertion := .model ⟨"User", [author]⟩

def steps : List Insertion :=
  [firstUser] ++ draftedUser :: [.enum ⟨"User", ["ADMIN"]⟩, .model post] ++ .model user :: []

/-- Users are declared three times, and an enumeration of their name in between. -/
theorem drafted_user_unseen :
    (draftedUser.header = (Insertion.model user).header ∧
      firstUser.header = (Insertion.model user).header ∧
      draftedUser.header ∈ [firstUser].map Insertion.header) ∧
    (Schema.afterInsertions steps).models.HoldsRun [⟨"User", []⟩, ⟨"User", [author]⟩, post, user] ∧
    (Schema.afterInsertions steps).enums.HoldsRun [⟨"User", ["ADMIN"]⟩] ∧
    Schema.afterInsertions steps = Schema.afterInsertions
      ([firstUser] ++ firstUser :: [.enum ⟨"User", ["ADMIN"]⟩, .model post] ++ .model user :: []) ∧
    Schema.afterInsertions steps = Schema.afterInsertions
      ([firstUser] ++ [.enum ⟨"User", ["ADMIN"]⟩, .model post] ++ .model user :: []) := by
  have hdrafted : draftedUser.header = (Insertion.model user).header := by decide
  have hfirst : firstUser.header = (Insertion.model user).header := by decide
  have hknown : draftedUser.header ∈ [firstUser].map Insertion.header := by decide
  obtain ⟨hruns, hoverwritten, _⟩ := Schema.first_place_last_definition
  obtain ⟨hreplaced, _, _, _, hdropped⟩ := hoverwritten [firstUser]
    [.enum ⟨"User", ["ADMIN"]⟩, .model post] [] draftedUser (.model user) hdrafted
  exact ⟨⟨hdrafted, hfirst, hknown⟩, (hruns steps).models, (hruns steps).enums,
    hreplaced firstUser hfirst, hdropped hknown⟩

end Forum

end EntityDiagram

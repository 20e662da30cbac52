import EntityDiagram.Catalog
import Mathlib.Data.List.Nodup
import Mathlib.Data.List.Perm.Subperm

namespace EntityDiagram

variable {α : Type} [Named α]

theorem mem_place {x y : α} {xs : List α} (h : y ∈ place x xs) :
    y = x ∨ y ∈ xs := by
  induction xs with
  | nil => exact Or.inl (by simpa [place] using h)
  | cons z zs ih =>
    simp only [place] at h
    split at h
    · rcases List.mem_cons.mp h with h | h
      · exact Or.inl h
      · exact Or.inr (List.mem_cons_of_mem _ h)
    · rcases List.mem_cons.mp h with h | h
      · exact Or.inr (h ▸ List.mem_cons_self ..)
      · exact (ih h).imp_right (List.mem_cons_of_mem _)

theorem place_of_new {x : α} {xs : List α} (h : Named.name x ∉ xs.map Named.name) :
    place x xs = xs ++ [x] := by
  induction xs with
  | nil => rfl
  | cons y ys ih =>
    simp only [List.map_cons, List.mem_cons, not_or] at h
    have hy : Named.name y ≠ Named.name x := fun e => h.1 e.symm
    simp [place, hy, ih h.2]

theorem place_place {x y : α} (h : Named.name y = Named.name x) (xs : List α) :
    place x (place y xs) = place x xs := by
  induction xs with
  | nil => simp [place, h]
  | cons z zs ih =>
    by_cases hz : Named.name z = Named.name x
    · simp [place, h, hz]
    · have hzy : Named.name z ≠ Named.name y := fun e => hz (e.trans h)
      simp [place, hz, hzy, ih]

/-- A known name keeps its place, so that its item may be replaced sooner or later. -/
theorem place_comm {x y : α} (hne : Named.name y ≠ Named.name x) {xs : List α}
    (hx : Named.name x ∈ xs.map Named.name) : place x (place y xs) = place y (place x xs) := by
  induction xs with
  | nil => simp at hx
  | cons z zs ih =>
    by_cases hz : Named.name z = Named.name x
    · simp [place, hz, hne.symm]
    · have hx' : Named.name x ∈ zs.map Named.name := by
        rcases List.mem_cons.mp hx with e | hx
        · exact absurd e.symm hz
        · exact hx
      by_cases hzy : Named.name z = Named.name y
      · simp [place, hzy, hne]
      · simp [place, hz, hzy, ih hx']

namespace Catalog

variable {c : Catalog α}

theorem eq_of_name_eq {x y : α} (hx : x ∈ c.toList) (hy : y ∈ c.toList)
    (h : Named.name x = Named.name y) : x = y :=
  List.inj_on_of_nodup_map c.nodup hx hy h

theorem find?_eq_some_iff {name : String} {x : α} :
    c.find? name = some x ↔ x ∈ c.toList ∧ Named.name x = name := by
  constructor
  · intro h
    exact ⟨List.mem_of_find?_eq_some h, by simpa using List.find?_some h⟩
  · rintro ⟨hx, rfl⟩
    cases h : c.find? (Named.name x) with
    | none =>
      have := List.find?_eq_none.mp h x hx
      simp at this
    | some y =>
      have hy : Named.name y = Named.name x := by simpa using List.find?_some h
      rw [eq_of_name_eq (List.mem_of_find?_eq_some h) hx hy]

theorem isSome_find?_iff {name : String} :
    (c.find? name).isSome = true ↔ c.contains name = true := by
  simp [find?, contains]

theorem insert_insert {x y : α} (h : Named.name y = Named.name x) :
    (c.insert y).insert x = c.insert x :=
  Catalog.ext (place_place h c.toList)

theorem insert_comm {x y : α} (hne : Named.name y ≠ Named.name x) (hx : Named.name x ∈ c.names) :
    (c.insert y).insert x = (c.insert x).insert y :=
  Catalog.ext (place_comm hne hx)

theorem mem_names_insert {x : α} {name : String} :
    name ∈ (c.insert x).names ↔ name = Named.name x ∨ name ∈ c.names := by
  rw [names_insert]
  split
  next h => exact ⟨Or.inr, fun h' => h'.elim (fun e => e ▸ h) id⟩
  next => simp [or_comm]

theorem insertAll_cons (c : Catalog α) (x : α) (xs : List α) :
    c.insertAll (x :: xs) = (c.insert x).insertAll xs := rfl

theorem insertAll_insert_comm {x : α} {xs : List α} (hx : Named.name x ∈ c.names)
    (hxs : Named.name x ∉ xs.map Named.name) :
    (c.insertAll xs).insert x = (c.insert x).insertAll xs := by
  induction xs generalizing c with
  | nil => rfl
  | cons y ys ih =>
    simp only [List.map_cons, List.mem_cons, not_or] at hxs
    have hne : Named.name y ≠ Named.name x := fun e => hxs.1 e.symm
    rw [insertAll_cons, insertAll_cons, ih (mem_names_insert.mpr (Or.inr hx)) hxs.2,
      insert_comm hne hx]

/-- To insert all items of a list with one of them replaced is to insert them all and then the
replacement. -/
theorem insertAll_place (c : Catalog α) (x : α) {xs : List α}
    (h : (xs.map Named.name).Nodup) : c.insertAll (place x xs) = (c.insertAll xs).insert x := by
  induction xs generalizing c with
  | nil => rfl
  | cons y ys ih =>
    obtain ⟨hy, hys⟩ := List.nodup_cons.mp h
    by_cases he : Named.name y = Named.name x
    · have hx : Named.name x ∈ (c.insert y).names := mem_names_insert.mpr (Or.inl he.symm)
      have hp : place x (y :: ys) = x :: ys := by simp [place, he]
      rw [hp, insertAll_cons, insertAll_cons, insertAll_insert_comm hx (he ▸ hy), insert_insert he]
    · have hp : place x (y :: ys) = y :: place x ys := by simp [place, he]
      rw [hp, insertAll_cons, insertAll_cons, ih (c.insert y) hys]

theorem toList_insertAll_of_nodup {xs : List α}
    (h : ((c.toList ++ xs).map Named.name).Nodup) : (c.insertAll xs).toList = c.toList ++ xs := by
  induction xs generalizing c with
  | nil => simp [insertAll]
  | cons x xs ih =>
    have hx : Named.name x ∉ c.toList.map Named.name := by
      rw [List.map_append, List.map_cons] at h
      intro hm
      exact (List.nodup_append.mp h).2.2 _ hm _ (List.mem_cons_self ..) rfl
    have hp : (c.insert x).toList = c.toList ++ [x] := place_of_new hx
    rw [insertAll_cons, ih (by rw [hp]; simpa using h), hp]
    simp

theorem filterMap_find?_names (c : Catalog α) : c.names.filterMap c.find? = c.toList := by
  rw [names, List.filterMap_map]
  refine (List.filterMap_congr fun x hx => ?_).trans List.filterMap_some
  exact find?_eq_some_iff.mpr ⟨hx, rfl⟩

theorem filter_name (c : Catalog α) (name : String) :
    c.toList.filter (Named.name · == name) = (c.find? name).toList := by
  have hmem : ∀ x, x ∈ c.toList.filter (Named.name · == name) ↔ x ∈ (c.find? name).toList := by
    intro x
    rw [List.mem_filter, Option.mem_toList, find?_eq_some_iff, beq_iff_eq]
  have hnodup : (c.toList.filter (Named.name · == name)).Nodup := c.nodup.of_map.filter _
  cases hfind : c.find? name with
  | none =>
    rw [hfind] at hmem
    exact List.eq_nil_iff_forall_not_mem.mpr fun x hx => by simpa using (hmem x).mp hx
  | some y =>
    rw [hfind] at hmem
    have hperm : (c.toList.filter (Named.name · == name)).Perm [y] :=
      (List.perm_ext_iff_of_nodup hnodup (List.nodup_singleton y)).mpr hmem
    exact List.perm_singleton.mp hperm

variable {a b : Catalog α}

theorem Same.perm (h : a.Same b) : a.toList.Perm b.toList := by
  have hsub : a.toList ⊆ b.toList := fun x hx => (find?_eq_some_iff.mp (h.2 x hx)).1
  exact (List.subperm_of_subset a.nodup.of_map hsub).perm_of_length_le (Nat.le_of_eq h.1.symm)

theorem same_of_perm (h : a.toList.Perm b.toList) : a.Same b :=
  ⟨h.length_eq, fun _ hx => find?_eq_some_iff.mpr ⟨h.mem_iff.mp hx, rfl⟩⟩

theorem Same.find?_eq (h : a.Same b) : a.find? = b.find? := by
  funext name
  apply Option.ext
  intro x
  rw [find?_eq_some_iff, find?_eq_some_iff, h.perm.mem_iff]

theorem same_of_find?_eq (h : a.find? = b.find?) : a.Same b := by
  apply same_of_perm
  apply (List.perm_ext_iff_of_nodup a.nodup.of_map b.nodup.of_map).mpr
  intro x
  have ha : x ∈ a.toList ↔ a.find? (Named.name x) = some x := by simp [find?_eq_some_iff]
  have hb : x ∈ b.toList ↔ b.find? (Named.name x) = some x := by simp [find?_eq_some_iff]
  rw [ha, hb, h]

theorem Same.contains_eq (h : a.Same b) : a.contains = b.contains := by
  funext name
  rw [Bool.eq_iff_iff, contains_iff_mem_names, contains_iff_mem_names]
  exact (h.perm.map Named.name).mem_iff

theorem Same.eq_of_names_eq (h : a.Same b) (hnames : a.names = b.names) : a = b := by
  apply Catalog.ext
  rw [← filterMap_find?_names a, ← filterMap_find?_names b, h.find?_eq, hnames]

end Catalog

end EntityDiagram

import EntityDiagram.Proofs.CatalogOrder
import Mathlib.Data.Finset.Card
import Mathlib.Data.List.Induction

namespace EntityDiagram

namespace Catalog

variable {α : Type} [Named α]

structure HoldsRun (c : Catalog α) (xs : List α) : Prop where
  names : c.names = (xs.map Named.name).eraseDups
  items : c.toList = c.names.filterMap c.find?
  find? : ∀ name, c.find? name = xs.findRev? (Named.name · == name)
  name_of_find? : ∀ name x, c.find? name = some x → Named.name x = name
  isSome_find? : ∀ name, (c.find? name).isSome = true ↔ c.contains name = true
  contains : ∀ name, c.contains name = true ↔ name ∈ c.names
  size : c.size = (xs.map Named.name).toFinset.card

theorem find?_insert (c : Catalog α) (x : α) (name : String) :
    (c.insert x).find? name = if Named.name x = name then some x else c.find? name := by
  split
  next h => exact h ▸ find?_insert_self c x
  next h => exact find?_insert_of_ne c fun e => h e.symm

theorem insertAll_concat (c : Catalog α) (xs : List α) (x : α) :
    c.insertAll (xs ++ [x]) = (c.insertAll xs).insert x :=
  List.foldl_concat ..

theorem names_insertAll_empty (xs : List α) :
    (empty.insertAll xs).names = (xs.map Named.name).eraseDups := by
  induction xs using List.reverseRecOn with
  | nil => rfl
  | append_singleton xs x ih =>
    rw [insertAll_concat, names_insert, ih, List.map_append, List.eraseDups_append]
    by_cases h : Named.name x ∈ xs.map Named.name
    · have hold : (List.map Named.name [x]).removeAll (xs.map Named.name) = [] := by
        simpa [List.removeAll] using h
      rw [if_pos (List.mem_eraseDups.mpr h), hold, List.eraseDups_nil, List.append_nil]
    · have hnew : (List.map Named.name [x]).removeAll (xs.map Named.name) = [Named.name x] := by
        simpa [List.removeAll] using h
      rw [if_neg fun hm => h (List.mem_eraseDups.mp hm), hnew]
      rfl

theorem find?_insertAll_empty (xs : List α) (name : String) :
    (empty.insertAll xs).find? name = xs.findRev? (Named.name · == name) := by
  rw [List.findRev?_eq_find?_reverse]
  induction xs using List.reverseRecOn with
  | nil => rfl
  | append_singleton xs x ih =>
    rw [insertAll_concat, find?_insert, List.reverse_append, List.reverse_singleton,
      List.singleton_append, List.find?_cons, ih]
    by_cases h : Named.name x = name
    · rw [if_pos h, beq_iff_eq.mpr h]
    · rw [if_neg h, beq_eq_false_iff_ne.mpr h]

/-- A known name that is inserted again leaves the order of the names as it is. -/
theorem names_insertAll_known {x : α} {before : List α}
    (h : Named.name x ∈ before.map Named.name) (after : List α) :
    (empty.insertAll (before ++ x :: after)).names = (empty.insertAll (before ++ after)).names := by
  have hknown : (Named.name x :: after.map Named.name).removeAll (before.map Named.name) =
      (after.map Named.name).removeAll (before.map Named.name) := by
    rw [List.cons_removeAll, if_neg]
    simpa using h
  rw [names_insertAll_empty, names_insertAll_empty, List.map_append, List.map_append,
    List.map_cons, List.eraseDups_append, List.eraseDups_append, hknown]

theorem size_eq_card (c : Catalog α) : c.size = c.names.toFinset.card := by
  have hnodup : c.names.Nodup := c.nodup
  rw [List.toFinset_card_of_nodup hnodup, names, List.length_map]
  rfl

theorem holdsRun_insertAll_empty (xs : List α) : (empty.insertAll xs).HoldsRun xs where
  names := names_insertAll_empty xs
  items := (filterMap_find?_names _).symm
  find? := find?_insertAll_empty xs
  name_of_find? _ _ h := (find?_eq_some_iff.mp h).2
  isSome_find? _ := isSome_find?_iff
  contains _ := contains_iff_mem_names
  size := by
    rw [size_eq_card, names_insertAll_empty]
    congr 1
    ext name
    rw [List.mem_toFinset, List.mem_toFinset, List.mem_eraseDups]

theorem find?_insertAll_overwritten {x z : α} (h : Named.name x = Named.name z)
    (before middle after : List α) :
    (empty.insertAll (before ++ x :: middle ++ z :: after)).find? =
      (empty.insertAll (before ++ middle ++ z :: after)).find? := by
  funext name
  rw [find?_insertAll_empty, find?_insertAll_empty, List.findRev?_eq_find?_reverse,
    List.findRev?_eq_find?_reverse]
  have hreverse : ∀ xs : List α, (before ++ xs ++ z :: after).reverse =
      after.reverse ++ z :: (xs.reverse ++ before.reverse) := by
    intro xs
    simp
  -- From behind, the later item is met first: it is taken, or the earlier one is passed over too.
  rw [hreverse, hreverse, List.find?_append, List.find?_append, List.find?_cons, List.find?_cons]
  by_cases hz : Named.name z = name
  · rw [beq_iff_eq.mpr hz]
  · have hx : Named.name x ≠ name := fun e => hz (h.symm.trans e)
    rw [beq_eq_false_iff_ne.mpr hz]
    simp [List.find?_append, hx]

end Catalog

end EntityDiagram

import EntityDiagram.Declaration
import EntityDiagram.Proofs.CatalogOrder

namespace EntityDiagram

def BlockKind.Item : BlockKind → Type
  | model => Model
  | enum => Enumeration

instance : (kind : BlockKind) → Named kind.Item
  | .model => inferInstanceAs (Named Model)
  | .enum => inferInstanceAs (Named Enumeration)

inductive Insertion
  | model (m : Model)
  | enum (e : Enumeration)
deriving DecidableEq

namespace Insertion

def header : Insertion → Header
  | model m => ⟨.model, m.name⟩
  | enum e => ⟨.enum, e.name⟩

def model? : Insertion → Option Model
  | model m => some m
  | enum _ => none

def enum? : Insertion → Option Enumeration
  | model _ => none
  | enum e => some e

def item? : (kind : BlockKind) → Insertion → Option kind.Item
  | .model => model?
  | .enum => enum?

variable {kind : BlockKind}

theorem map_name_item? (kind : BlockKind) (i : Insertion) :
    (i.item? kind).map Named.name = if i.header.kind = kind then some i.header.name else none := by
  cases kind <;> cases i <;> rfl

theorem header_of_item? {i : Insertion} {x : kind.Item} (h : i.item? kind = some x) :
    i.header = ⟨kind, Named.name x⟩ := by
  have hname := i.map_name_item? kind
  rw [h, Option.map_some] at hname
  split at hname
  next hkind => rw [Option.some.inj hname, ← hkind]
  next => cases hname

theorem item?_eq_none_iff {i : Insertion} : i.item? kind = none ↔ i.header.kind ≠ kind := by
  have hname := i.map_name_item? kind
  rw [← Option.map_eq_none_iff (f := Named.name), hname]
  split <;> simp [*]

theorem nodup_names_filterMap (kind : BlockKind) {steps : List Insertion}
    (h : (steps.map header).Nodup) :
    ((steps.filterMap (item? kind)).map Named.name).Nodup := by
  induction steps with
  | nil => exact List.nodup_nil
  | cons i steps ih =>
    obtain ⟨hi, hsteps⟩ := List.nodup_cons.mp h
    cases hx : i.item? kind with
    | none => simpa [hx] using ih hsteps
    | some x =>
      rw [List.filterMap_cons_some hx, List.map_cons, List.nodup_cons]
      refine ⟨fun hmem => hi ?_, ih hsteps⟩
      obtain ⟨y, hy, hname⟩ := List.mem_map.mp hmem
      obtain ⟨j, hj, hjy⟩ := List.mem_filterMap.mp hy
      refine List.mem_map.mpr ⟨j, hj, ?_⟩
      rw [header_of_item? hjy, header_of_item? hx, hname]

end Insertion

def Block.toInsertion (b : Block) : Insertion :=
  match b.header.kind with
  | .model => .model b.toModel
  | .enum => .enum b.toEnum

theorem Block.header_toInsertion (b : Block) : b.toInsertion.header = b.header := by
  unfold toInsertion
  split
  next h => exact congrArg (Header.mk · b.header.name) h.symm
  next h => exact congrArg (Header.mk · b.header.name) h.symm

namespace Schema

def catalog (s : Schema) : (kind : BlockKind) → Catalog kind.Item
  | .model => s.models
  | .enum => s.enums

def insert (s : Schema) : Insertion → Schema
  | .model m => s.insertModel m
  | .enum e => s.insertEnum e

def afterInsertions (steps : List Insertion) : Schema := steps.foldl insert empty

def insertions (s : Schema) : List Insertion :=
  s.models.toList.map .model ++ s.enums.toList.map .enum

variable {s t : Schema}

theorem ext_of_catalog (h : ∀ kind, s.catalog kind = t.catalog kind) : s = t :=
  Schema.ext (h .model) (h .enum)

theorem same_of_catalog (h : ∀ kind, (s.catalog kind).Same (t.catalog kind)) : s.Same t :=
  ⟨h .model, h .enum⟩

/-- An insertion changes the catalog of its own kind only. -/
theorem catalog_insert (s : Schema) (i : Insertion) (kind : BlockKind) :
    (s.insert i).catalog kind = (s.catalog kind).insertAll (i.item? kind).toList := by
  cases kind <;> cases i <;> rfl

theorem catalog_foldl_insert (steps : List Insertion) (s : Schema) (kind : BlockKind) :
    (steps.foldl insert s).catalog kind =
      (s.catalog kind).insertAll (steps.filterMap (Insertion.item? kind)) := by
  induction steps generalizing s with
  | nil => rfl
  | cons i steps ih =>
    rw [List.foldl_cons, ih, catalog_insert]
    cases h : i.item? kind with
    | none => rw [List.filterMap_cons_none h]; rfl
    | some x => rw [List.filterMap_cons_some h]; rfl

theorem catalog_afterInsertions (steps : List Insertion) (kind : BlockKind) :
    (afterInsertions steps).catalog kind =
      Catalog.empty.insertAll (steps.filterMap (Insertion.item? kind)) := by
  rw [afterInsertions, catalog_foldl_insert]
  cases kind <;> rfl

theorem filterMap_item?_insertions (s : Schema) (kind : BlockKind) :
    s.insertions.filterMap (Insertion.item? kind) = (s.catalog kind).toList := by
  cases kind with
  | model =>
    show s.insertions.filterMap Insertion.model? = s.models.toList
    simp [insertions, Insertion.model?, List.filterMap_map, Function.comp_def]
  | enum =>
    show s.insertions.filterMap Insertion.enum? = s.enums.toList
    simp [insertions, Insertion.enum?, List.filterMap_map, Function.comp_def]

theorem afterInsertions_insertions (s : Schema) : afterInsertions s.insertions = s := by
  refine ext_of_catalog fun kind => Catalog.ext ?_
  rw [catalog_afterInsertions, filterMap_item?_insertions]
  exact Catalog.toList_insertAll_of_nodup (s.catalog kind).nodup

theorem merge_eq_foldl_insert (s t : Schema) : s.merge t = t.insertions.foldl insert s := by
  refine ext_of_catalog fun kind => ?_
  rw [catalog_foldl_insert, filterMap_item?_insertions]
  cases kind <;> rfl

theorem ofBlocks_eq_afterInsertions (bs : List Block) :
    ofBlocks bs = afterInsertions (bs.map Block.toInsertion) := by
  have hstep : declare = fun s b => s.insert b.toInsertion := by
    funext s b
    unfold declare Block.toInsertion
    cases b.header.kind <;> rfl
  rw [ofBlocks, afterInsertions, List.foldl_map, hstep]

theorem same_afterInsertions {steps others : List Insertion}
    (h : (steps.map Insertion.header).Nodup) (hperm : steps.Perm others) :
    (afterInsertions steps).Same (afterInsertions others) := by
  refine same_of_catalog fun kind => Catalog.same_of_perm ?_
  have hsteps := Insertion.nodup_names_filterMap kind h
  have hothers := Insertion.nodup_names_filterMap kind
    ((hperm.map Insertion.header).nodup_iff.mp h)
  rw [catalog_afterInsertions, catalog_afterInsertions,
    Catalog.toList_insertAll_of_nodup (by simpa using hsteps),
    Catalog.toList_insertAll_of_nodup (by simpa using hothers)]
  exact (hperm.filterMap (Insertion.item? kind)).append_left _

end Schema

end EntityDiagram

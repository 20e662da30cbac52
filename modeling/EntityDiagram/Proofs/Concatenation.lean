import EntityDiagram.Proofs.Insertion
import EntityDiagram.Proofs.KeptLines
import EntityDiagram.Proofs.Scan

namespace EntityDiagram

theorem keptLines_append_closing (a b : String) :
    keptLines (a ++ "\n\x7d\n" ++ b) = keptLines a ++ closingLine :: keptLines b := by
  have hsplit : a ++ "\n\x7d\n" ++ b = a ++ "\n" ++ (closingLine ++ "\n" ++ b) := by
    apply String.toList_injective
    simp [closingLine]
  have hclosing : keptLines closingLine = [closingLine] := by decide
  rw [hsplit, keptLines_append, keptLines_append, hclosing]
  rfl

theorem sourceRoles_append_closing (a b : String) :
    sourceRoles (a ++ "\n\x7d\n" ++ b) = sourceRoles a ++ .closing :: sourceRoles b := by
  unfold sourceRoles
  rw [keptLines_append_closing, lineRoles_append, lineRoles_cons, lineRole_closingLine]
  rfl

namespace Schema

theorem merge_insert (s t : Schema) (i : Insertion) :
    s.merge (t.insert i) = (s.merge t).insert i := by
  cases i with
  | model m => exact Schema.ext (Catalog.insertAll_place s.models m t.models.nodup) rfl
  | enum e => exact Schema.ext rfl (Catalog.insertAll_place s.enums e t.enums.nodup)

/-- Inserting into a merged schema is merging what is inserted. -/
theorem merge_afterInsertions (s : Schema) (steps : List Insertion) :
    s.merge (afterInsertions steps) = steps.foldl insert s := by
  suffices h : ∀ t : Schema, s.merge (steps.foldl insert t) = steps.foldl insert (s.merge t) from
    h empty
  intro t
  induction steps generalizing t with
  | nil => rfl
  | cons i steps ih => rw [List.foldl_cons, List.foldl_cons, ih, merge_insert]

theorem ofBlocks_append (bs cs : List Block) :
    ofBlocks (bs ++ cs) = (ofBlocks bs).merge (ofBlocks cs) := by
  simp only [ofBlocks_eq_afterInsertions, merge_afterInsertions]
  rw [afterInsertions, List.map_append, List.foldl_append]
  rfl

theorem merge_eq_foldl (s t : Schema) :
    s.merge t = t.enums.toList.foldl insertEnum (t.models.toList.foldl insertModel s) := by
  rw [merge_eq_foldl_insert, insertions, List.foldl_append, List.foldl_map, List.foldl_map]
  rfl

/-- A closing line ends whatever the first source leaves open, so that the second one is read as if
it stood alone: its models and then its enumerations are inserted into the schema of the first. -/
theorem ofSource_append_closing (a b : String) :
    ofSource (a ++ "\n\x7d\n" ++ b) =
      (ofSource b).enums.toList.foldl insertEnum
        ((ofSource b).models.toList.foldl insertModel (ofSource a)) := by
  rw [← merge_eq_foldl, ofSource, sourceRoles_append_closing, blocks_append_closing,
    ofBlocks_append]
  rfl

end Schema

end EntityDiagram

import EntityDiagram.Declaration
import EntityDiagram.Proofs.CatalogOrder
import EntityDiagram.Proofs.HeaderGrammar
import EntityDiagram.Proofs.KeptLines
import EntityDiagram.Proofs.Scan

namespace EntityDiagram

structure IsInterior (line : String) : Prop extends IsKept line where
  not_closing : line ≠ closingLine
  not_header : Header.ofLine? line = none

structure Field.WellFormed (f : Field) : Prop where
  interior : IsInterior f.attributes
  not_directive : (after? directiveMark.toList f.attributes.toList).isSome = false
  declared : (words f.attributes.toList).take 2 = [f.name.toList, f.rawType.toList]

structure Model.WellFormed (m : Model) : Prop where
  name : IsRun isWordChar m.name.toList
  fields : ∀ f ∈ m.fields, f.WellFormed

structure Enumeration.WellFormed (e : Enumeration) : Prop where
  name : IsRun isWordChar e.name.toList
  values : ∀ v ∈ e.values, IsInterior v

/-- The names of each catalog are distinct by its type. -/
structure Schema.WellFormed (s : Schema) : Prop where
  models : ∀ m ∈ s.models.toList, m.WellFormed
  enums : ∀ e ∈ s.enums.toList, e.WellFormed

structure Block.WellFormed (b : Block) : Prop where
  name : IsRun isWordChar b.header.name.toList
  lines : ∀ line ∈ b.lines, IsInterior line

instance (line : String) : Decidable (IsInterior line) :=
  decidable_of_iff (('\n' ∉ line.toList ∧ line ≠ "" ∧ trim line.toList = line.toList ∧
      isComment line = false) ∧ line ≠ closingLine ∧ Header.ofLine? line = none)
    ⟨fun ⟨⟨hfeed, hne, htrim, hcomment⟩, hclosing, hheader⟩ =>
      ⟨⟨hfeed, hne, htrim, hcomment⟩, hclosing, hheader⟩,
    fun ⟨⟨hfeed, hne, htrim, hcomment⟩, hclosing, hheader⟩ =>
      ⟨⟨hfeed, hne, htrim, hcomment⟩, hclosing, hheader⟩⟩

instance (f : Field) : Decidable f.WellFormed :=
  decidable_of_iff (IsInterior f.attributes ∧
      (after? directiveMark.toList f.attributes.toList).isSome = false ∧
      (words f.attributes.toList).take 2 = [f.name.toList, f.rawType.toList])
    ⟨fun ⟨hline, hmark, hwords⟩ => ⟨hline, hmark, hwords⟩,
    fun ⟨hline, hmark, hwords⟩ => ⟨hline, hmark, hwords⟩⟩

instance (m : Model) : Decidable m.WellFormed :=
  decidable_of_iff (IsRun isWordChar m.name.toList ∧ ∀ f ∈ m.fields, f.WellFormed)
    ⟨fun ⟨hname, hfields⟩ => ⟨hname, hfields⟩, fun ⟨hname, hfields⟩ => ⟨hname, hfields⟩⟩

instance (e : Enumeration) : Decidable e.WellFormed :=
  decidable_of_iff (IsRun isWordChar e.name.toList ∧ ∀ v ∈ e.values, IsInterior v)
    ⟨fun ⟨hname, hvalues⟩ => ⟨hname, hvalues⟩, fun ⟨hname, hvalues⟩ => ⟨hname, hvalues⟩⟩

instance (s : Schema) : Decidable s.WellFormed :=
  decidable_of_iff ((∀ m ∈ s.models.toList, m.WellFormed) ∧ ∀ e ∈ s.enums.toList, e.WellFormed)
    ⟨fun ⟨hmodels, henums⟩ => ⟨hmodels, henums⟩, fun ⟨hmodels, henums⟩ => ⟨hmodels, henums⟩⟩

theorem Header.name_isRun {line : String} {h : Header} (hl : Header.ofLine? line = some h) :
    IsRun isWordChar h.name.toList := by
  obtain ⟨_, _, _, _, _, hname, _⟩ := Header.ofLine?_eq_some_iff.mp hl
  exact hname

theorem Block.wellFormed_of_mem {source : String} {b : Block}
    (h : b ∈ blocks (sourceRoles source)) : b.WellFormed := by
  obtain ⟨hopening, hlines⟩ := roles_of_mem_blocks h
  constructor
  · obtain ⟨line, _, _, hrole⟩ := exists_line_of_mem_lineRoles hopening
    exact Header.name_isRun (lineRole_eq_opening_iff.mp hrole.symm)
  · intro inside hinside
    obtain ⟨line, hline, _, hrole⟩ := exists_line_of_mem_lineRoles (hlines inside hinside)
    obtain ⟨hnone, hclosing, _, rfl⟩ := lineRole_eq_interior_iff.mp hrole.symm
    exact ⟨isKept_of_mem hline, hclosing, hnone⟩

theorem Field.WellFormed.words_eq {f : Field} (h : f.WellFormed) :
    ∃ rest, words f.attributes.toList = f.name.toList :: f.rawType.toList :: rest := by
  refine ⟨(words f.attributes.toList).drop 2, ?_⟩
  rw [← List.take_append_drop 2 (words f.attributes.toList), h.declared]
  simp

theorem Field.wellFormed_of_line {line : String} {f : Field} (hline : IsInterior line)
    (h : (Member.ofLine line).field? = some f) : f.WellFormed := by
  unfold Member.ofLine at h
  split at h
  next => cases h
  next hmark =>
    split at h
    next name rawType rest hwords =>
      obtain rfl := Option.some.inj h
      exact ⟨hline, by simpa using hmark, by simp [hwords]⟩
    next => cases h

theorem Block.WellFormed.toModel {b : Block} (h : b.WellFormed) : b.toModel.WellFormed := by
  refine ⟨h.name, fun f hf => ?_⟩
  obtain ⟨member, hmember, hf⟩ := List.mem_filterMap.mp hf
  obtain ⟨line, hline, rfl⟩ := List.mem_map.mp hmember
  exact Field.wellFormed_of_line (h.lines line hline) hf

theorem Block.WellFormed.toEnum {b : Block} (h : b.WellFormed) : b.toEnum.WellFormed :=
  ⟨h.name, h.lines⟩

namespace Schema

theorem WellFormed.declare {s : Schema} {b : Block} (hs : s.WellFormed) (hb : b.WellFormed) :
    (s.declare b).WellFormed := by
  unfold Schema.declare
  split
  next =>
    refine ⟨fun m hm => ?_, hs.enums⟩
    rcases mem_place hm with rfl | hm
    · exact hb.toModel
    · exact hs.models m hm
  next =>
    refine ⟨hs.models, fun e he => ?_⟩
    rcases mem_place he with rfl | he
    · exact hb.toEnum
    · exact hs.enums e he

theorem wellFormed_empty : empty.WellFormed := ⟨by simp [empty], by simp [empty]⟩

theorem wellFormed_ofBlocks {bs : List Block} (h : ∀ b ∈ bs, b.WellFormed) :
    (ofBlocks bs).WellFormed := by
  unfold ofBlocks
  generalize hs : empty = s
  have hwf : s.WellFormed := hs ▸ wellFormed_empty
  clear hs
  induction bs generalizing s with
  | nil => exact hwf
  | cons b bs ih =>
    exact ih (fun b' hb' => h b' (List.mem_cons_of_mem _ hb')) (s.declare b)
      (hwf.declare (h b (List.mem_cons_self ..)))

theorem wellFormed_ofSource (source : String) : (ofSource source).WellFormed :=
  wellFormed_ofBlocks fun _ hb => Block.wellFormed_of_mem hb

end Schema

end EntityDiagram

import EntityDiagram.Proofs.Concatenation
import EntityDiagram.Proofs.WellFormed

namespace EntityDiagram

def Header.line (h : Header) : String := String.ofList h.kind.keyword ++ " " ++ h.name ++ " \x7b"

def Block.sourceLines (b : Block) : List String := b.header.line :: (b.lines ++ [closingLine])

def Model.toBlock (m : Model) : Block := ⟨⟨.model, m.name⟩, m.fields.map Field.attributes⟩

def Enumeration.toBlock (e : Enumeration) : Block := ⟨⟨.enum, e.name⟩, e.values⟩

namespace Schema

def toBlocks (s : Schema) : List Block :=
  s.models.toList.map Model.toBlock ++ s.enums.toList.map Enumeration.toBlock

def sourceText (s : Schema) : String := unlines (s.toBlocks.flatMap Block.sourceLines)

end Schema

namespace Header

theorem toList_line (h : Header) :
    h.line.toList = h.kind.keyword ++ ' ' :: (h.name.toList ++ [' ', '\x7b']) := by
  simp [line]

theorem ofLine?_line {h : Header} (hname : IsRun isWordChar h.name.toList) :
    ofLine? h.line = some h := by
  have hgap : IsRun isGap [' '] := by decide
  refine ofLine?_eq_some_iff.mpr ⟨[' '], [' '], [], ?_, hgap, hname, hgap⟩
  simp [toList_line]

/-- A keyword starts with a letter, which neither a blank nor a comment does. -/
theorem keyword_eq_cons (kind : BlockKind) :
    ∃ c rest, kind.keyword = c :: rest ∧ isWordChar c = true ∧ c ≠ '/' := by
  cases kind with
  | model => exact ⟨'m', "odel".toList, by decide, by decide, by decide⟩
  | enum => exact ⟨'e', "num".toList, by decide, by decide, by decide⟩

theorem isKept_line {h : Header} (hname : IsRun isWordChar h.name.toList) : IsKept h.line := by
  obtain ⟨c, rest, hkeyword, hword, hslash⟩ := keyword_eq_cons h.kind
  have hcons : h.line.toList = c :: (rest ++ ' ' :: (h.name.toList ++ [' ', '\x7b'])) := by
    rw [toList_line, hkeyword]
    rfl
  have hconcat : h.line.toList =
      (h.kind.keyword ++ ' ' :: (h.name.toList ++ [' '])) ++ ['\x7b'] := by
    simp [toList_line]
  refine ⟨?_, ?_, ?_, ?_⟩
  · intro hfeed
    rw [toList_line] at hfeed
    rcases List.mem_append.mp hfeed with hfeed | hfeed
    · cases hk : h.kind <;> rw [hk] at hfeed <;> revert hfeed <;> decide
    · exact hname.newline_not_mem (by simpa using hfeed)
  · intro he
    simp [he] at hcons
  · refine trim_eq_self (fun d hd => ?_) (fun d hd => ?_)
    · have hd' : c = d := by simpa [hcons] using hd
      exact hd' ▸ isBlank_eq_false_of_isWordChar hword
    · rw [hconcat, List.getLast?_concat] at hd
      obtain rfl := Option.some.inj hd
      decide
  · rw [isComment, hcons]
    simp [commentMark, after?, hslash]

end Header

theorem isKept_closingLine : IsKept closingLine :=
  ⟨by decide, by decide, by decide, by decide⟩

theorem Block.WellFormed.isKept {b : Block} (hb : b.WellFormed) :
    ∀ line ∈ b.sourceLines, IsKept line := by
  intro line hline
  rcases List.mem_cons.mp hline with rfl | hline
  · exact Header.isKept_line hb.name
  · rcases List.mem_append.mp hline with hline | hline
    · exact (hb.lines line hline).toIsKept
    · rw [List.mem_singleton.mp hline]
      exact isKept_closingLine

theorem lineRoles_interior_append {lines : List String} (h : ∀ line ∈ lines, IsInterior line)
    (rest : List String) :
    lineRoles true (lines ++ rest) = lines.map .interior ++ lineRoles true rest := by
  induction lines with
  | nil => rfl
  | cons line lines ih =>
    have hline := h line (List.mem_cons_self ..)
    have hrole : lineRole true line = .interior line :=
      lineRole_eq_interior_iff.mpr ⟨hline.not_header, hline.not_closing, rfl, rfl⟩
    rw [List.cons_append, lineRoles_cons, hrole, List.map_cons, List.cons_append]
    exact congrArg _ (ih fun l hl => h l (List.mem_cons_of_mem _ hl))

theorem Block.WellFormed.lineRoles_append {b : Block} (hb : b.WellFormed) (isOpen : Bool)
    (rest : List String) :
    lineRoles isOpen (b.sourceLines ++ rest) =
      (.opening b.header :: b.lines.map .interior) ++ .closing :: lineRoles false rest := by
  have hrole : lineRole isOpen b.header.line = .opening b.header :=
    lineRole_eq_opening_iff.mpr (Header.ofLine?_line hb.name)
  rw [Block.sourceLines, List.cons_append, lineRoles_cons, hrole, List.append_assoc]
  simp only [LineRole.leavesOpen, lineRoles_interior_append hb.lines, List.cons_append,
    List.nil_append, lineRoles_cons, lineRole_closingLine]

theorem blocks_interior (lines : List String) : blocks (lines.map .interior) = [] := by
  induction lines with
  | nil => rfl
  | cons line lines ih => simpa [blocks] using ih

theorem interiorRun_interior (lines : List String) :
    interiorRun (lines.map .interior) = lines := by
  induction lines with
  | nil => rfl
  | cons line lines ih => rw [List.map_cons, interiorRun, ih]

/-- Blocks are read back from the lines that declare them, whatever is open before. -/
theorem blocks_lineRoles {bs : List Block} (h : ∀ b ∈ bs, b.WellFormed) (isOpen : Bool) :
    blocks (lineRoles isOpen (bs.flatMap Block.sourceLines)) = bs := by
  induction bs generalizing isOpen with
  | nil => rfl
  | cons b bs ih =>
    rw [List.flatMap_cons, (h b (List.mem_cons_self ..)).lineRoles_append,
      blocks_append_closing, ih fun b' hb' => h b' (List.mem_cons_of_mem _ hb'), blocks,
      blocks_interior, interiorRun_interior]
    rfl

theorem blocks_sourceRoles_unlines {bs : List Block} (h : ∀ b ∈ bs, b.WellFormed) :
    blocks (sourceRoles (unlines (bs.flatMap Block.sourceLines))) = bs := by
  have hkept : keptLines (unlines (bs.flatMap Block.sourceLines)) =
      bs.flatMap Block.sourceLines := by
    refine keptLines_unlines fun line hline => ?_
    obtain ⟨b, hb, hline⟩ := List.mem_flatMap.mp hline
    exact (h b hb).isKept line hline
  rw [sourceRoles, hkept, blocks_lineRoles h]

theorem Field.WellFormed.ofLine {f : Field} (h : f.WellFormed) :
    Member.ofLine f.attributes = .field f := by
  obtain ⟨rest, hwords⟩ := h.words_eq
  simp [Member.ofLine, h.not_directive, hwords]

theorem Model.WellFormed.toModel_toBlock {m : Model} (h : m.WellFormed) :
    m.toBlock.toModel = m := by
  have hfields : m.toBlock.members.filterMap Member.field? = m.fields := by
    simp only [Block.members, Model.toBlock, List.map_map, List.filterMap_map]
    refine (List.filterMap_congr fun f hf => ?_).trans List.filterMap_some
    simp [(h.fields f hf).ofLine, Member.field?]
  exact congrArg (Model.mk m.name) hfields

theorem Model.WellFormed.toBlock {m : Model} (h : m.WellFormed) : m.toBlock.WellFormed := by
  refine ⟨h.name, fun line hline => ?_⟩
  obtain ⟨f, hf, rfl⟩ := List.mem_map.mp hline
  exact (h.fields f hf).interior

theorem Enumeration.WellFormed.toBlock {e : Enumeration} (h : e.WellFormed) :
    e.toBlock.WellFormed :=
  ⟨h.name, h.values⟩

namespace Schema

variable {s : Schema}

theorem WellFormed.toBlocks (h : s.WellFormed) : ∀ b ∈ s.toBlocks, b.WellFormed := by
  intro b hb
  rcases List.mem_append.mp hb with hb | hb
  · obtain ⟨m, hm, rfl⟩ := List.mem_map.mp hb
    exact (h.models m hm).toBlock
  · obtain ⟨e, he, rfl⟩ := List.mem_map.mp hb
    exact (h.enums e he).toBlock

theorem WellFormed.map_toInsertion_toBlocks (h : s.WellFormed) :
    s.toBlocks.map Block.toInsertion = s.insertions := by
  rw [Schema.toBlocks, insertions, List.map_append, List.map_map, List.map_map]
  refine congrArg₂ (· ++ ·) (List.map_congr_left fun m hm => ?_) rfl
  exact congrArg Insertion.model (h.models m hm).toModel_toBlock

theorem WellFormed.ofBlocks_toBlocks (h : s.WellFormed) : ofBlocks s.toBlocks = s := by
  rw [ofBlocks_eq_afterInsertions, h.map_toInsertion_toBlocks, afterInsertions_insertions]

theorem WellFormed.ofSource_sourceText (h : s.WellFormed) : ofSource s.sourceText = s := by
  rw [ofSource, sourceText, blocks_sourceRoles_unlines h.toBlocks, h.ofBlocks_toBlocks]

/-- The schemas that sources declare are exactly the well-formed ones, and each of those is declared
by its canonical source. -/
theorem wellFormed_iff_declared :
    (∀ s : Schema, s.WellFormed ↔ ∃ source, ofSource source = s) ∧
      ∀ s : Schema, s.WellFormed → ofSource s.sourceText = s := by
  refine ⟨fun s => ⟨fun h => ⟨s.sourceText, h.ofSource_sourceText⟩, ?_⟩,
    fun s h => h.ofSource_sourceText⟩
  rintro ⟨source, rfl⟩
  exact wellFormed_ofSource source

end Schema

namespace Roster

def code : Field := ⟨"code", "Int", "code Int @id"⟩

def holders : Field := ⟨"holders", "[]?", "holders\t[]? \x7d"⟩

def schema : Schema :=
  ⟨⟨[⟨"Role", [code, holders]⟩, ⟨"Team", []⟩], by decide⟩,
    ⟨[⟨"Role", ["@@map", "model \x7b", "Owner\rGuest"]⟩], by decide⟩⟩

theorem role_declared : schema.WellFormed ∧ Schema.ofSource schema.sourceText = schema := by
  have h : schema.WellFormed := by decide
  exact ⟨h, Schema.wellFormed_iff_declared.2 schema h⟩

end Roster

end EntityDiagram

import EntityDiagram.Proofs.KeptLines
import EntityDiagram.Proofs.Scan
import Mathlib.Data.List.Infix
import Mathlib.Data.List.TakeWhile

namespace EntityDiagram

def isInside (line : String) : Bool :=
  (Header.ofLine? line).isNone && line != closingLine

def blockAtFront? : List String → Option Block
  | [] => none
  | line :: lines =>
    (Header.ofLine? line).map fun header => ⟨header, lines.takeWhile isInside⟩

def describedBlocks (lines : List String) : List Block := lines.tails.filterMap blockAtFront?

structure BlockPass where
  finished : List Block := []
  filling : Option Block := none

namespace BlockPass

def flush (p : BlockPass) : BlockPass := { finished := p.finished ++ p.filling.toList }

def step (p : BlockPass) (line : String) : BlockPass :=
  match Header.ofLine? line with
  | some header => { p.flush with filling := some ⟨header, []⟩ }
  | none =>
    if line = closingLine then p.flush
    else { p with filling := p.filling.map fun b => { b with lines := b.lines ++ [line] } }

def completed (p : BlockPass) (lines : List String) : List Block :=
  p.finished ++
    (p.filling.map fun b => { b with lines := b.lines ++ lines.takeWhile isInside }).toList ++
    describedBlocks lines

end BlockPass

/-- The blocks of a source in one pass, which flushes the open block at a header, at a closing line
and at the end. -/
def scanBlocks (source : String) : List Block :=
  ((keptLines source).foldl BlockPass.step {}).flush.finished

theorem describedBlocks_cons (line : String) (lines : List String) :
    describedBlocks (line :: lines) =
      (blockAtFront? (line :: lines)).toList ++ describedBlocks lines := by
  rw [describedBlocks, List.tails_cons, List.filterMap_cons]
  cases blockAtFront? (line :: lines) <;> rfl

theorem isInside_eq_false_of_header {line : String} {header : Header}
    (h : Header.ofLine? line = some header) : isInside line = false := by
  simp [isInside, h]

theorem isInside_iff {line : String} :
    isInside line = true ↔ Header.ofLine? line = none ∧ line ≠ closingLine := by
  simp [isInside]

namespace BlockPass

theorem completed_step (p : BlockPass) (line : String) (lines : List String) :
    (p.step line).completed lines = p.completed (line :: lines) := by
  unfold step
  split
  next header hheader =>
    have hout : isInside line = false := isInside_eq_false_of_header hheader
    simp only [completed, flush, describedBlocks_cons, blockAtFront?, hheader,
      List.takeWhile_cons_of_neg (by simpa using hout)]
    cases p.filling <;> simp
  next hnone =>
    split
    next hclosing =>
      have hout : isInside line = false := by simp [isInside, hclosing]
      simp only [completed, flush, describedBlocks_cons, blockAtFront?, hnone,
        List.takeWhile_cons_of_neg (by simpa using hout)]
      cases p.filling <;> simp
    next hclosing =>
      have hin : isInside line = true := isInside_iff.mpr ⟨hnone, hclosing⟩
      simp only [completed, describedBlocks_cons, blockAtFront?, hnone,
        List.takeWhile_cons_of_pos hin]
      cases p.filling <;> simp

theorem completed_foldl (p : BlockPass) (lines others : List String) :
    (lines.foldl step p).completed others = p.completed (lines ++ others) := by
  induction lines generalizing p with
  | nil => rfl
  | cons line lines ih => rw [List.foldl_cons, ih, completed_step]; rfl

theorem completed_nil (p : BlockPass) : p.completed [] = p.flush.finished := by
  unfold completed flush
  cases p.filling <;> simp [describedBlocks, blockAtFront?]

end BlockPass

theorem scanBlocks_eq (source : String) :
    scanBlocks source = describedBlocks (keptLines source) := by
  have hrun := BlockPass.completed_foldl {} (keptLines source) []
  rw [BlockPass.completed_nil, List.append_nil] at hrun
  have hstart : ({} : BlockPass).completed (keptLines source) =
      describedBlocks (keptLines source) := by
    simp [BlockPass.completed]
  exact hrun.trans hstart

theorem interiorRun_lineRoles (lines : List String) :
    interiorRun (lineRoles true lines) = lines.takeWhile isInside := by
  induction lines with
  | nil => rfl
  | cons line lines ih =>
    rw [lineRoles_cons]
    cases hrole : lineRole true line with
    | opening header =>
      have hout := isInside_eq_false_of_header (lineRole_eq_opening_iff.mp hrole)
      rw [List.takeWhile_cons_of_neg (by simpa using hout)]
      rfl
    | closing =>
      have hclosing := lineRole_eq_closing_iff.mp hrole
      rw [List.takeWhile_cons_of_neg (by simp [isInside, hclosing])]
      rfl
    | interior inside =>
      obtain ⟨hnone, hclosing, _, rfl⟩ := lineRole_eq_interior_iff.mp hrole
      rw [List.takeWhile_cons_of_pos (isInside_iff.mpr ⟨hnone, hclosing⟩)]
      exact congrArg (line :: ·) ih
    | stray outside => exact absurd (isOpen_of_lineRole_eq_stray hrole) (by decide)

theorem blocks_cons_of_ne_opening {role : LineRole} (h : ∀ header, role ≠ .opening header)
    (roles : List LineRole) : blocks (role :: roles) = blocks roles := by
  cases role with
  | opening header => exact absurd rfl (h header)
  | closing => rfl
  | interior line => rfl
  | stray line => rfl

theorem blocks_eq_describedBlocks (isOpen : Bool) (lines : List String) :
    blocks (lineRoles isOpen lines) = describedBlocks lines := by
  induction lines generalizing isOpen with
  | nil => rfl
  | cons line lines ih =>
    rw [lineRoles_cons, describedBlocks_cons, blockAtFront?]
    cases hheader : Header.ofLine? line with
    | some header =>
      have hrole : lineRole isOpen line = .opening header := lineRole_eq_opening_iff.mpr hheader
      rw [hrole, LineRole.leavesOpen, blocks, ih, interiorRun_lineRoles]
      rfl
    | none =>
      have hrole : ∀ header, lineRole isOpen line ≠ .opening header := by
        intro header he
        rw [lineRole_eq_opening_iff.mp he] at hheader
        cases hheader
      rw [blocks_cons_of_ne_opening hrole, ih]
      rfl

structure Stretch where
  opening : String
  header : Header
  inside : List String
  outside : List String
  opens : Header.ofLine? opening = some header
  stays : ∀ line ∈ inside, isInside line = true
  closed : outside.head?.all (· = closingLine) = true
  opens_none : ∀ line ∈ outside, Header.ofLine? line = none

namespace Stretch

def lines (x : Stretch) : List String := x.opening :: x.inside ++ x.outside

def block (x : Stretch) : Block := ⟨x.header, x.inside⟩

theorem takeWhile_flatMap_lines (xs : List Stretch) :
    (xs.flatMap lines).takeWhile isInside = [] := by
  cases xs with
  | nil => rfl
  | cons x xs =>
    have hout : isInside x.opening = false := isInside_eq_false_of_header x.opens
    rw [List.flatMap_cons, lines, List.cons_append, List.cons_append,
      List.takeWhile_cons_of_neg (by simpa using hout)]

def ofLines {opening : String} {header : Header} (h : Header.ofLine? opening = some header)
    (rest : List String) (hrest : ∀ line ∈ rest, Header.ofLine? line = none) : Stretch where
  opening := opening
  header := header
  inside := rest.takeWhile isInside
  outside := rest.dropWhile isInside
  opens := h
  stays _ hline := List.mem_takeWhile_imp hline
  closed := by
    cases hhead : (rest.dropWhile isInside).head? with
    | none => rfl
    | some line =>
      have hmem : line ∈ rest :=
        (List.dropWhile_sublist isInside).subset (List.mem_of_head? hhead)
      have hout : isInside line = false := by
        simpa [hhead] using List.head?_dropWhile_not isInside rest
      have hclosing : line = closingLine := by
        by_contra hne
        rw [isInside_iff.mpr ⟨hrest line hmem, hne⟩] at hout
        cases hout
      simpa using hclosing
  opens_none line hline := hrest line ((List.dropWhile_sublist isInside).subset hline)

end Stretch

/-- Lines are those before the first header and then a stretch for each header. -/
theorem exists_stretches (lines : List String) :
    ∃ (lead : List String) (xs : List Stretch), (∀ line ∈ lead, Header.ofLine? line = none) ∧
      lines = lead ++ xs.flatMap Stretch.lines ∧
      describedBlocks lines = xs.map Stretch.block := by
  -- From the last line on: a header takes the lines that no later header has taken.
  induction lines with
  | nil => exact ⟨[], [], by simp, rfl, rfl⟩
  | cons line lines ih =>
    obtain ⟨lead, xs, hlead, hlines, hblocks⟩ := ih
    rw [describedBlocks_cons, blockAtFront?]
    cases hheader : Header.ofLine? line with
    | none =>
      refine ⟨line :: lead, xs, ?_, by rw [hlines]; rfl, hblocks⟩
      intro l hl
      rcases List.mem_cons.mp hl with rfl | hl
      · exact hheader
      · exact hlead l hl
    | some header =>
      have hinside : lines.takeWhile isInside = lead.takeWhile isInside := by
        rw [hlines, List.takeWhile_append]
        split
        next hall =>
          rw [Stretch.takeWhile_flatMap_lines, List.append_nil]
          exact ((List.takeWhile_prefix isInside).eq_of_length hall).symm
        next => rfl
      refine ⟨[], Stretch.ofLines hheader lead hlead :: xs, by simp, ?_, ?_⟩
      · rw [List.flatMap_cons, hlines]
        simp [Stretch.ofLines, Stretch.lines]
      · rw [hinside, hblocks]
        rfl

theorem map_header_describedBlocks (lines : List String) :
    (describedBlocks lines).map Block.header = lines.filterMap Header.ofLine? := by
  induction lines with
  | nil => rfl
  | cons line lines ih =>
    rw [describedBlocks_cons, List.map_append, ih, blockAtFront?]
    cases hheader : Header.ofLine? line with
    | none => rw [List.filterMap_cons_none hheader]; rfl
    | some header => rw [List.filterMap_cons_some hheader]; rfl

/-- A source has one block for each line that is a header, in their order, and the lines of a block
are the longest run of lines behind its header that neither open nor close a block. The pass that
fills one block at a time finds these blocks. Every line stands before the first header or in the
stretch of exactly one. -/
theorem blocks_of_source (source : String) :
    keptLines source =
      ((pieces (· == '\n') source.toList).map fun line => String.ofList (trim line)).filter
        (fun line => line ≠ "" ∧ ¬"//".toList <+: line.toList) ∧
    scanBlocks source = blocks (sourceRoles source) ∧
    blocks (sourceRoles source) = (keptLines source).tails.filterMap blockAtFront? ∧
    (blocks (sourceRoles source)).map Block.header = (keptLines source).filterMap Header.ofLine? ∧
    ∃ (lead : List String) (xs : List Stretch), (∀ line ∈ lead, Header.ofLine? line = none) ∧
      keptLines source = lead ++ xs.flatMap Stretch.lines ∧
      blocks (sourceRoles source) = xs.map Stretch.block := by
  have hblocks : blocks (sourceRoles source) = describedBlocks (keptLines source) :=
    blocks_eq_describedBlocks false (keptLines source)
  obtain ⟨lead, xs, hlead, hlines, hstretches⟩ := exists_stretches (keptLines source)
  refine ⟨keptLines_eq_filter source, (scanBlocks_eq source).trans hblocks.symm, hblocks, ?_,
    lead, xs, hlead, hlines, ?_⟩
  · rw [hblocks, map_header_describedBlocks]
  · rw [hblocks, hstretches]

example :
    scanBlocks "x\nmodel A \x7b\n\x7d \x7d\nenum B \x7b\n\x7d\n\x7d\n// y\nmodel A \x7b\n  z" =
      [⟨⟨.model, "A"⟩, ["\x7d \x7d"]⟩, ⟨⟨.enum, "B"⟩, []⟩, ⟨⟨.model, "A"⟩, ["z"]⟩] := by
  decide

end EntityDiagram

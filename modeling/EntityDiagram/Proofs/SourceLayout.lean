import EntityDiagram.Drawing
import EntityDiagram.Proofs.BlockScan
import EntityDiagram.Proofs.KeptLines
import Mathlib.Logic.Relation

namespace EntityDiagram

inductive LineEnd
  | feed
  | returnAndFeed

def LineEnd.text : LineEnd → String
  | feed => "\n"
  | returnAndFeed => "\r\n"

/-- The texts that some lines make up: each line is ended in one of the two ways, and the last one
may be left without an end. -/
inductive MakesUp : List String → String → Prop
  | nil : MakesUp [] ""
  | last (line : String) : MakesUp [line] line
  | cons (line : String) (lineEnd : LineEnd) {lines : List String} {text : String}
      (h : MakesUp lines text) : MakesUp (line :: lines) (line ++ lineEnd.text ++ text)

def IsPadding (text : String) : Prop := ∀ c ∈ text.toList, isBlank c = true ∧ c ≠ '\n'

instance (text : String) : Decidable (IsPadding text) := List.decidableBAll _ _

def isOpenBehind (lines : List String) : Bool :=
  ((lines.map trimmed).reverse.find? (! isInside ·)).any fun line => (Header.ofLine? line).isSome

/-- One change of the layout, at any place. A line that is no header may come in where no block is
open. -/
inductive LayoutEdit : List String → List String → Prop
  | pad (front back : List String) {before line after : String}
      (hbefore : IsPadding before) (hafter : IsPadding after) :
      LayoutEdit (front ++ line :: back) (front ++ (before ++ line ++ after) :: back)
  | blank (front back : List String) {line : String} (hline : IsPadding line) :
      LayoutEdit (front ++ back) (front ++ line :: back)
  | comment (front back : List String) {before rest : String}
      (hbefore : IsPadding before) (hrest : '\n' ∉ rest.toList) :
      LayoutEdit (front ++ back) (front ++ (before ++ "//" ++ rest) :: back)
  | outside (front back : List String) {line : String} (hfeed : '\n' ∉ line.toList)
      (hopen : isOpenBehind front = false) (hheader : Header.ofLine? (trimmed line) = none) :
      LayoutEdit (front ++ back) (front ++ line :: back)

theorem IsPadding.isBlank {text : String} (h : IsPadding text) :
    ∀ c ∈ text.toList, isBlank c = true := fun c hc => (h c hc).1

theorem IsPadding.no_feed {text : String} (h : IsPadding text) : '\n' ∉ text.toList :=
  fun hc => (h _ hc).2 rfl

theorem IsPadding.no_feed_around {before line after : String} (hbefore : IsPadding before)
    (hline : '\n' ∉ line.toList) (hafter : IsPadding after) :
    '\n' ∉ (before ++ line ++ after).toList := by
  simp [hbefore.no_feed, hline, hafter.no_feed]

theorem IsPadding.trimmed_eq {before after : String} (hbefore : IsPadding before)
    (hafter : IsPadding after) (line : String) :
    trimmed (before ++ line ++ after) = trimmed line := by
  rw [trimmed, String.toList_append, String.toList_append, trim_append_right hafter.isBlank,
    trim_append_left hbefore.isBlank]
  rfl

theorem isPadding_empty : IsPadding "" := by decide

theorem IsPadding.trimmed {line : String} (h : IsPadding line) : trimmed line = "" := by
  have hempty := h.trimmed_eq isPadding_empty ""
  rw [String.append_empty, String.append_empty] at hempty
  exact hempty

theorem isComment_trimmed (rest : String) : isComment (trimmed ("//" ++ rest)) = true := by
  have hslash : isBlank '/' = false := by decide
  have hstart : ("//" ++ rest).toList = '/' :: '/' :: rest.toList := by simp
  rw [isComment_iff, trimmed, String.toList_ofList, hstart, trim,
    List.dropWhile_cons_of_neg (by simp [hslash]), List.reverse_cons, List.reverse_cons,
    List.append_assoc, List.dropWhile_append]
  split
  next => exact ⟨[], by simp [hslash]⟩
  next => exact ⟨(rest.toList.reverse.dropWhile isBlank).reverse, by simp⟩

theorem isInside_of_isComment {line : String} (h : isComment line = true) :
    isInside line = true := by
  obtain ⟨rest, hline⟩ := isComment_iff.mp h
  refine isInside_iff.mpr ⟨?_, ?_⟩
  · rw [Header.ofLine?, Header.ofKind?, Header.ofKind?, hline]
    rfl
  · rintro rfl
    cases hline

theorem keptLines_cases {line : String} (h : '\n' ∉ line.toList) :
    keptLines line = [trimmed line] ∨ keptLines line = [] ∧ isInside (trimmed line) = true := by
  rw [keptLines, trimmedLines_of_no_feed h]
  by_cases hempty : trimmed line = ""
  · exact Or.inr ⟨by simp [hempty], by rw [hempty]; decide⟩
  · cases hcomment : isComment (trimmed line) with
    | true => exact Or.inr ⟨by simp [hcomment], isInside_of_isComment hcomment⟩
    | false => exact Or.inl (by simp [hempty, hcomment])

theorem IsPadding.keptLines_eq {before line after : String} (hbefore : IsPadding before)
    (hline : '\n' ∉ line.toList) (hafter : IsPadding after) :
    keptLines (before ++ line ++ after) = keptLines line := by
  rw [keptLines, keptLines, trimmedLines_of_no_feed hline,
    trimmedLines_of_no_feed (hbefore.no_feed_around hline hafter), hbefore.trimmed_eq hafter]

theorem keptLines_of_isPadding {line : String} (h : IsPadding line) : keptLines line = [] := by
  rw [keptLines, trimmedLines_of_no_feed h.no_feed, h.trimmed]
  rfl

theorem keptLines_comment {before rest : String} (hbefore : IsPadding before)
    (hrest : '\n' ∉ rest.toList) : keptLines (before ++ "//" ++ rest) = [] := by
  have htrimmed : trimmed (before ++ "//" ++ rest) = trimmed ("//" ++ rest) := by
    have hpadded := hbefore.trimmed_eq isPadding_empty ("//" ++ rest)
    rwa [String.append_empty, ← String.append_assoc] at hpadded
  have hfeed : '\n' ∉ (before ++ "//" ++ rest).toList := by
    simp [hbefore.no_feed, hrest]
  rw [keptLines, trimmedLines_of_no_feed hfeed, htrimmed]
  simp [isComment_trimmed]

theorem leavesOpen_lineRole (isOpen : Bool) (line : String) :
    (lineRole isOpen line).leavesOpen isOpen =
      if isInside line then isOpen else (Header.ofLine? line).isSome := by
  cases hheader : Header.ofLine? line with
  | some header => simp [lineRole, hheader, LineRole.leavesOpen, isInside]
  | none =>
    by_cases hclosing : line = closingLine
    · rw [hclosing, lineRole_closingLine]
      simp [LineRole.leavesOpen, isInside, ← hclosing, hheader]
    · cases isOpen <;> simp [lineRole, hheader, hclosing, LineRole.leavesOpen, isInside]

theorem isOpenBehind_concat (lines : List String) (line : String) :
    isOpenBehind (lines ++ [line]) =
      if isInside (trimmed line) then isOpenBehind lines
      else (Header.ofLine? (trimmed line)).isSome := by
  cases hinside : isInside (trimmed line) with
  | true => simp [isOpenBehind, hinside]
  | false => simp [isOpenBehind, hinside]

theorem foldl_leavesOpen_eq {lines : List String} (h : ∀ line ∈ lines, '\n' ∉ line.toList) :
    (lineRoles false (lines.flatMap keptLines)).foldl LineRole.leavesOpen false =
      isOpenBehind lines := by
  induction lines using List.reverseRecOn with
  | nil => rfl
  | append_singleton lines line ih =>
    have hstate := ih fun l hl => h l (List.mem_append_left _ hl)
    rw [List.flatMap_append, List.flatMap_singleton, lineRoles_append, List.foldl_append, hstate,
      isOpenBehind_concat]
    rcases keptLines_cases (h line (by simp)) with hkept | ⟨hdropped, hinside⟩
    · rw [hkept, lineRoles_cons, lineRoles, List.foldl_cons, List.foldl_nil, leavesOpen_lineRole]
    · rw [hdropped, lineRoles, List.foldl_nil, if_pos hinside]

theorem interiorRun_lineRoles_false (lines : List String) :
    interiorRun (lineRoles false lines) = [] := by
  cases lines with
  | nil => rfl
  | cons line lines =>
    rw [lineRoles_cons]
    cases hrole : lineRole false line with
    | interior inside => exact absurd (lineRole_eq_interior_iff.mp hrole).2.2.1 (by decide)
    | opening header => rfl
    | closing => rfl
    | stray outside => rfl

/-- Outside of the blocks a line that is no header makes no difference. -/
theorem blocks_lineRoles_outside {lines others : List String} {line : String}
    (hopen : (lineRoles false lines).foldl LineRole.leavesOpen false = false)
    (hheader : Header.ofLine? line = none) :
    blocks (lineRoles false (lines ++ line :: others)) =
      blocks (lineRoles false (lines ++ others)) := by
  have hrole : ∀ header, lineRole false line ≠ .opening header := by
    intro header he
    rw [lineRole_eq_opening_iff.mp he] at hheader
    cases hheader
  have hstays : (lineRole false line).leavesOpen false = false := by
    rw [leavesOpen_lineRole, hheader]
    simp
  have hline := interiorRun_lineRoles_false (line :: others)
  rw [lineRoles_append, lineRoles_append, hopen, blocks_append hline,
    blocks_append (interiorRun_lineRoles_false others), lineRoles_cons,
    blocks_cons_of_ne_opening hrole, hstays]

theorem MakesUp.keptLines_eq {lines : List String} {text : String} (h : MakesUp lines text)
    (hfeed : ∀ line ∈ lines, '\n' ∉ line.toList) :
    keptLines text = lines.flatMap keptLines := by
  induction h with
  | nil => rfl
  | last line => exact (List.flatMap_singleton keptLines line).symm
  | @cons line lineEnd lines text h ih =>
    have hrest := ih fun l hl => hfeed l (List.mem_cons_of_mem _ hl)
    have hline := hfeed line (List.mem_cons_self ..)
    rw [List.flatMap_cons, ← hrest]
    cases lineEnd with
    | feed => exact keptLines_append line text
    | returnAndFeed =>
      have hreturn : IsPadding "\r" := by decide
      have hkept : keptLines (line ++ "\r") = keptLines line := by
        have hpadded := isPadding_empty.keptLines_eq hline hreturn
        rwa [String.empty_append] at hpadded
      have hend : line ++ LineEnd.returnAndFeed.text ++ text = line ++ "\r" ++ "\n" ++ text := by
        apply String.toList_injective
        simp [LineEnd.text]
      rw [hend, keptLines_append, hkept]

namespace LayoutEdit

variable {lines edited : List String}

theorem no_feed (h : LayoutEdit lines edited) (hfeed : ∀ line ∈ lines, '\n' ∉ line.toList) :
    ∀ line ∈ edited, '\n' ∉ line.toList := by
  have hinsert : ∀ {front back : List String} {line : String}, '\n' ∉ line.toList →
      (∀ l ∈ front ++ back, '\n' ∉ l.toList) → ∀ l ∈ front ++ line :: back, '\n' ∉ l.toList := by
    intro front back line hline hothers l hl
    rcases List.mem_append.mp hl with hl | hl
    · exact hothers l (List.mem_append_left _ hl)
    · rcases List.mem_cons.mp hl with rfl | hl
      · exact hline
      · exact hothers l (List.mem_append_right _ hl)
  cases h with
  | @pad front back before line after hbefore hafter =>
    refine hinsert (hbefore.no_feed_around (hfeed line (by simp)) hafter) fun l hl => hfeed l ?_
    rcases List.mem_append.mp hl with hl | hl
    · exact List.mem_append_left _ hl
    · exact List.mem_append_right _ (List.mem_cons_of_mem _ hl)
  | blank front back hline => exact hinsert hline.no_feed hfeed
  | comment front back hbefore hrest => exact hinsert (by simp [hbefore.no_feed, hrest]) hfeed
  | outside front back hline _ _ => exact hinsert hline hfeed

theorem blocks_eq (h : LayoutEdit lines edited) (hfeed : ∀ line ∈ lines, '\n' ∉ line.toList) :
    blocks (lineRoles false (edited.flatMap keptLines)) =
      blocks (lineRoles false (lines.flatMap keptLines)) := by
  cases h with
  | @pad front back before line after hbefore hafter =>
    have hkept := hbefore.keptLines_eq (hfeed line (by simp)) hafter
    simp only [List.flatMap_append, List.flatMap_cons, hkept]
  | blank front back hline =>
    simp only [List.flatMap_append, List.flatMap_cons, keptLines_of_isPadding hline,
      List.nil_append]
  | comment front back hbefore hrest =>
    simp only [List.flatMap_append, List.flatMap_cons, keptLines_comment hbefore hrest,
      List.nil_append]
  | outside front back hline hopen hheader =>
    rw [List.flatMap_append, List.flatMap_append, List.flatMap_cons]
    rcases keptLines_cases hline with hkept | ⟨hdropped, _⟩
    · rw [hkept, List.singleton_append]
      refine blocks_lineRoles_outside ?_ hheader
      rw [foldl_leavesOpen_eq fun l hl => hfeed l (List.mem_append_left _ hl), hopen]
    · rw [hdropped, List.nil_append]

end LayoutEdit

theorem blocks_eq_of_layoutEdits {lines edited : List String}
    (h : Relation.ReflTransGen LayoutEdit lines edited)
    (hfeed : ∀ line ∈ lines, '\n' ∉ line.toList) :
    (∀ line ∈ edited, '\n' ∉ line.toList) ∧
      blocks (lineRoles false (edited.flatMap keptLines)) =
        blocks (lineRoles false (lines.flatMap keptLines)) := by
  induction h with
  | refl => exact ⟨hfeed, rfl⟩
  | tail _ hedit ih => exact ⟨hedit.no_feed ih.1, (hedit.blocks_eq ih.1).trans ih.2⟩

/-- Lines that are padded with blanks, and between which blank lines, comments and, outside of the
blocks, lines that are no headers are put, declare what they declared before, in the same order, and
are drawn as before, whichever way the lines are ended in each of the two texts. -/
theorem layout_without_influence {lines edited : List String} {source laidOut : String}
    (hfeed : ∀ line ∈ lines, '\n' ∉ line.toList)
    (hedits : Relation.ReflTransGen LayoutEdit lines edited)
    (hsource : MakesUp lines source) (hlaidOut : MakesUp edited laidOut) :
    blocks (sourceRoles laidOut) = blocks (sourceRoles source) ∧
    Schema.ofSource laidOut = Schema.ofSource source ∧ draw laidOut = draw source := by
  obtain ⟨hfeed', hblocks⟩ := blocks_eq_of_layoutEdits hedits hfeed
  rw [← hsource.keptLines_eq hfeed, ← hlaidOut.keptLines_eq hfeed'] at hblocks
  have hschema : Schema.ofSource laidOut = Schema.ofSource source :=
    congrArg Schema.ofBlocks hblocks
  exact ⟨hblocks, hschema, by rw [draw, draw, hschema]⟩

namespace Gallery

def lines : List String := ["model Picture \x7b", "title String", "\x7d"]

def edited : List String :=
  ["generator client \x7b", "\x7d", "model Picture \x7b", " \t", "  title String\u00A0", "  // oil",
    "\x7d"]

def source : String := "model Picture \x7b\ntitle String\n\x7d"

def laidOut : String :=
  "generator client \x7b\n\x7d\r\nmodel Picture \x7b\n \t\r\n  title String\u00A0\n" ++
    "  // oil\n\x7d\r\n"

theorem edits : Relation.ReflTransGen LayoutEdit lines edited := by
  have hopened : LayoutEdit lines ("generator client \x7b" :: lines) :=
    .outside [] lines (by decide) (by decide) (by decide)
  have hclosed : LayoutEdit ("generator client \x7b" :: lines)
      ("generator client \x7b" :: "\x7d" :: lines) :=
    .outside ["generator client \x7b"] lines (by decide) (by decide) (by decide)
  have hblank := LayoutEdit.blank (edited.take 3) ["title String", "\x7d"]
    (show IsPadding " \t" by decide)
  have hpadded := @LayoutEdit.pad (edited.take 4) ["\x7d"] "  " "title String" "\u00A0"
    (by decide) (by decide)
  have hcomment := LayoutEdit.comment (edited.take 5) ["\x7d"] (show IsPadding "  " by decide)
    (show '\n' ∉ " oil".toList by decide)
  exact .head hopened (.head hclosed (.head hblank (.head hpadded (.single hcomment))))

theorem laid_out_alike :
    (∀ line ∈ lines, '\n' ∉ line.toList) ∧ Relation.ReflTransGen LayoutEdit lines edited ∧
    MakesUp lines source ∧ MakesUp edited laidOut ∧ draw laidOut = draw source := by
  have hfeed : ∀ line ∈ lines, '\n' ∉ line.toList := by decide
  have hsource : MakesUp lines source := .cons _ .feed (.cons _ .feed (.last _))
  have hlaidOut : MakesUp edited laidOut :=
    .cons _ .feed (.cons _ .returnAndFeed (.cons _ .feed (.cons _ .returnAndFeed (.cons _ .feed
      (.cons _ .feed (.cons _ .returnAndFeed .nil))))))
  exact ⟨hfeed, edits, hsource, hlaidOut,
    (layout_without_influence hfeed edits hsource hlaidOut).2.2⟩

end Gallery

end EntityDiagram

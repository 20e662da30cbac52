import EntityDiagram.Block
import Mathlib.Data.List.DropRight

namespace EntityDiagram

theorem pieces_eq_splitOnP (separates : Char → Bool) (cs : List Char) :
    pieces separates cs = cs.splitOnP separates := by
  induction cs with
  | nil => rfl
  | cons c cs ih =>
    rw [List.splitOnP_cons_eq_if_modifyHead, ← ih]
    rfl

theorem pieces_append_cons {separates : Char → Bool} {c : Char} (h : separates c = true)
    (xs ys : List Char) :
    pieces separates (xs ++ c :: ys) = pieces separates xs ++ pieces separates ys := by
  simp only [pieces_eq_splitOnP]
  exact List.splitOnP_append_cons xs ys h

theorem pieces_eq_singleton {separates : Char → Bool} {cs : List Char}
    (h : ∀ c ∈ cs, separates c = false) : pieces separates cs = [cs] := by
  rw [pieces_eq_splitOnP]
  exact List.splitOnP_eq_singleton h

theorem pieces_of_no_feed {cs : List Char} (h : '\n' ∉ cs) : pieces (· == '\n') cs = [cs] := by
  refine pieces_eq_singleton fun c hc => ?_
  have hne : c ≠ '\n' := fun e => h (e ▸ hc)
  simpa using hne

def unlines (lines : List String) : String := String.join (lines.map (· ++ "\n"))

theorem unlines_append (xs ys : List String) : unlines (xs ++ ys) = unlines xs ++ unlines ys := by
  simp [unlines, String.join_append]

theorem unlines_flatMap {α : Type} (f : α → List String) (xs : List α) :
    unlines (xs.flatMap f) = String.join (xs.map fun x => unlines (f x)) := by
  induction xs with
  | nil => rfl
  | cons x xs ih => rw [List.flatMap_cons, unlines_append, ih, List.map_cons, String.join_cons]

theorem toList_unlines_cons (line : String) (lines : List String) :
    (unlines (line :: lines)).toList = line.toList ++ '\n' :: (unlines lines).toList := by
  simp [unlines, String.join_cons]

theorem pieces_unlines {lines : List String} (h : ∀ line ∈ lines, '\n' ∉ line.toList) :
    pieces (· == '\n') (unlines lines).toList = lines.map String.toList ++ [[]] := by
  induction lines with
  | nil => rfl
  | cons line lines ih =>
    rw [toList_unlines_cons, pieces_append_cons (by rfl),
      pieces_of_no_feed (h line (List.mem_cons_self ..)),
      ih fun l hl => h l (List.mem_cons_of_mem _ hl)]
    rfl

theorem count_unlines {lines : List String} (h : ∀ line ∈ lines, '\n' ∉ line.toList) :
    (unlines lines).toList.count '\n' = lines.length := by
  induction lines with
  | nil => rfl
  | cons line lines ih =>
    have hline := List.count_eq_zero.mpr (h line (List.mem_cons_self ..))
    have hrest := ih fun l hl => h l (List.mem_cons_of_mem _ hl)
    rw [toList_unlines_cons, List.count_append, List.count_cons_self, hline, hrest,
      List.length_cons, Nat.zero_add]

theorem getLast?_unlines {lines : List String} (h : lines ≠ []) :
    (unlines lines).toList.getLast? = some '\n' := by
  induction lines with
  | nil => exact absurd rfl h
  | cons line lines ih =>
    rw [toList_unlines_cons, List.getLast?_append, List.getLast?_cons]
    cases lines with
    | nil => rfl
    | cons next lines => simp [ih (List.cons_ne_nil _ _)]

theorem trim_prefix_dropWhile (cs : List Char) : trim cs <+: cs.dropWhile isBlank :=
  List.rdropWhile_prefix isBlank _

theorem mem_of_mem_trim {c : Char} {cs : List Char} (h : c ∈ trim cs) : c ∈ cs :=
  (List.dropWhile_sublist isBlank).subset ((trim_prefix_dropWhile cs).subset h)

theorem isBlank_of_head?_trim {c : Char} {cs : List Char} (h : (trim cs).head? = some c) :
    isBlank c = false := by
  obtain ⟨rest, hrest⟩ := trim_prefix_dropWhile cs
  have hhead : (cs.dropWhile isBlank).head? = some c := by
    rw [← hrest, List.head?_append, h]
    rfl
  simpa [hhead] using List.head?_dropWhile_not isBlank cs

theorem isBlank_of_getLast?_trim {c : Char} {cs : List Char} (h : (trim cs).getLast? = some c) :
    isBlank c = false := by
  rw [trim, List.getLast?_reverse] at h
  simpa [h] using List.head?_dropWhile_not isBlank (cs.dropWhile isBlank).reverse

theorem trim_eq_self {cs : List Char} (hhead : ∀ c, cs.head? = some c → isBlank c = false)
    (hlast : ∀ c, cs.getLast? = some c → isBlank c = false) : trim cs = cs := by
  have hdrop : cs.dropWhile isBlank = cs := by
    cases cs with
    | nil => rfl
    | cons c cs => exact List.dropWhile_cons_of_neg (by simp [hhead c rfl])
  have hdropLast : cs.rdropWhile isBlank = cs := by
    refine List.rdropWhile_eq_self_iff.mpr fun hne => ?_
    simp [hlast _ (List.getLast?_eq_some_getLast hne)]
  unfold trim
  rw [hdrop]
  exact hdropLast

theorem trim_trim (cs : List Char) : trim (trim cs) = trim cs :=
  trim_eq_self (fun _ => isBlank_of_head?_trim) (fun _ => isBlank_of_getLast?_trim)

theorem trim_append_left {blanks : List Char} (h : ∀ c ∈ blanks, isBlank c = true)
    (cs : List Char) : trim (blanks ++ cs) = trim cs := by
  rw [trim, List.dropWhile_append_of_pos h]
  rfl

theorem trim_append_right {blanks : List Char} (h : ∀ c ∈ blanks, isBlank c = true)
    (cs : List Char) : trim (cs ++ blanks) = trim cs := by
  have hreverse : ∀ c ∈ blanks.reverse, isBlank c = true := fun c hc =>
    h c (List.mem_reverse.mp hc)
  rw [trim, trim, List.dropWhile_append]
  split
  next hall => rw [List.dropWhile_eq_nil_iff.mpr h, List.isEmpty_iff.mp hall]
  next => rw [List.reverse_append, List.dropWhile_append_of_pos hreverse]

def trimmed (line : String) : String := String.ofList (trim line.toList)

theorem trimmedLines_of_no_feed {line : String} (h : '\n' ∉ line.toList) :
    trimmedLines line = [trimmed line] := by
  rw [trimmedLines, pieces_of_no_feed h]
  rfl

theorem trimmedLines_append (a b : String) :
    trimmedLines (a ++ "\n" ++ b) = trimmedLines a ++ trimmedLines b := by
  have h : (a ++ "\n" ++ b).toList = a.toList ++ '\n' :: b.toList := by simp
  rw [trimmedLines, h, pieces_append_cons (by rfl), List.map_append]
  rfl

theorem trimmedLines_unlines_append {lines : List String}
    (h : ∀ line ∈ lines, '\n' ∉ line.toList) (rest : String) :
    trimmedLines (unlines lines ++ rest) = lines.map trimmed ++ trimmedLines rest := by
  induction lines with
  | nil => rw [unlines, List.map_nil, String.join_nil, String.empty_append]; rfl
  | cons line lines ih =>
    have hcons : unlines (line :: lines) ++ rest = line ++ "\n" ++ (unlines lines ++ rest) := by
      rw [unlines, List.map_cons, String.join_cons, String.append_assoc]
      rfl
    rw [hcons, trimmedLines_append, trimmedLines_of_no_feed (h line (List.mem_cons_self ..)),
      ih fun l hl => h l (List.mem_cons_of_mem _ hl)]
    rfl

theorem isComment_iff {line : String} :
    isComment line = true ↔ ∃ rest, line.toList = '/' :: '/' :: rest := by
  rw [isComment, Option.isSome_iff_exists]
  exact exists_congr fun rest => after?_eq_some_iff

/-- The lines that are neither blank nor comments, without the blanks around them. -/
theorem keptLines_eq_filter (source : String) :
    keptLines source =
      ((pieces (· == '\n') source.toList).map fun line => String.ofList (trim line)).filter
        fun line => line ≠ "" ∧ ¬"//".toList <+: line.toList := by
  refine List.filter_congr fun line _ => ?_
  have hcomment : isComment line = true ↔ "//".toList <+: line.toList := by
    rw [isComment_iff]
    exact exists_congr fun rest => eq_comm
  rw [Bool.eq_iff_iff, Bool.and_eq_true, Bool.not_eq_true', Bool.not_eq_true',
    ← Bool.not_eq_true, ← Bool.not_eq_true, hcomment, String.isEmpty_iff, decide_eq_true_iff]

theorem keptLines_append (a b : String) :
    keptLines (a ++ "\n" ++ b) = keptLines a ++ keptLines b := by
  rw [keptLines, trimmedLines_append, List.filter_append]
  rfl

structure IsKept (line : String) : Prop where
  no_feed : '\n' ∉ line.toList
  nonempty : line ≠ ""
  trimmed : trim line.toList = line.toList
  not_comment : isComment line = false

theorem isKept_of_mem {source line : String} (h : line ∈ keptLines source) : IsKept line := by
  obtain ⟨hmem, hkeep⟩ := List.mem_filter.mp h
  obtain ⟨piece, hpiece, rfl⟩ := List.mem_map.mp hmem
  simp only [Bool.and_eq_true, Bool.not_eq_true'] at hkeep
  refine ⟨?_, ?_, ?_, hkeep.2⟩
  · intro hfeed
    rw [String.toList_ofList] at hfeed
    simpa using separates_eq_false_of_mem_pieces hpiece _ (mem_of_mem_trim hfeed)
  · intro he
    simp [he] at hkeep
  · rw [String.toList_ofList, trim_trim]

theorem keptLines_unlines {lines : List String} (h : ∀ line ∈ lines, IsKept line) :
    keptLines (unlines lines) = lines := by
  have htrimmed : trimmedLines (unlines lines) = lines ++ [""] := by
    rw [trimmedLines, pieces_unlines fun line hl => (h line hl).no_feed, List.map_append,
      List.map_map]
    congr 1
    refine (List.map_congr_left fun line hl => ?_).trans (List.map_id lines)
    simp [(h line hl).trimmed]
  rw [keptLines, htrimmed, List.filter_append]
  have hempty : [""].filter (fun line => !line.isEmpty && !isComment line) = [] := by decide
  rw [hempty, List.append_nil, List.filter_eq_self]
  intro line hl
  have hne := (h line hl).nonempty
  simp [hne, (h line hl).not_comment]

end EntityDiagram

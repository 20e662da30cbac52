import EntityDiagram.Blank

namespace EntityDiagram

def pieces (separates : Char → Bool) : List Char → List (List Char)
  | [] => [[]]
  | c :: cs =>
    if separates c then [] :: pieces separates cs
    else (pieces separates cs).modifyHead (c :: ·)

theorem pieces_ne_nil (separates : Char → Bool) (cs : List Char) : pieces separates cs ≠ [] := by
  cases cs with
  | nil => simp [pieces]
  | cons c cs => simp only [pieces]; split <;> simp [pieces_ne_nil separates cs]

theorem separates_eq_false_of_mem_pieces {separates : Char → Bool} {cs piece : List Char}
    (h : piece ∈ pieces separates cs) : ∀ c ∈ piece, separates c = false := by
  induction cs generalizing piece with
  | nil =>
    simp only [pieces, List.mem_singleton] at h
    subst h
    simp
  | cons c cs ih =>
    simp only [pieces] at h
    split at h
    next hc =>
      rcases List.mem_cons.mp h with h | h
      · subst h; simp
      · exact ih h
    next hc =>
      cases hp : pieces separates cs with
      | nil => exact absurd hp (pieces_ne_nil separates cs)
      | cons first others =>
        simp only [hp, List.modifyHead_cons] at h ih
        rcases List.mem_cons.mp h with h | h
        · subst h
          intro d hd
          rcases List.mem_cons.mp hd with hd | hd
          · subst hd; simpa using hc
          · exact ih (by simp) d hd
        · exact ih (by simp [h])

def after? : List Char → List Char → Option (List Char)
  | [], cs => some cs
  | _ :: _, [] => none
  | s :: start, c :: cs => if c = s then after? start cs else none

theorem after?_eq_some_iff {start cs rest : List Char} :
    after? start cs = some rest ↔ cs = start ++ rest := by
  induction start generalizing cs with
  | nil => simp [after?]
  | cons s start ih =>
    cases cs with
    | nil => simp [after?]
    | cons c cs =>
      by_cases h : c = s
      · simp [after?, h, ih]
      · simp [after?, h]

/-- The longest run of characters of one class, which has to be non-empty, and what follows it. -/
def leadingRun? (inClass : Char → Bool) (cs : List Char) : Option (List Char × List Char) :=
  match cs.takeWhile inClass with
  | [] => none
  | c :: run => some (c :: run, cs.dropWhile inClass)

theorem leadingRun?_eq_some_iff {inClass : Char → Bool} {cs run rest : List Char} :
    leadingRun? inClass cs = some (run, rest) ↔
      run ≠ [] ∧ run = cs.takeWhile inClass ∧ rest = cs.dropWhile inClass := by
  unfold leadingRun?
  split
  next h => simp +contextual [h]
  next c tail h =>
    simp only [Option.some.injEq, Prod.mk.injEq, h]
    constructor
    · rintro ⟨rfl, rfl⟩; simp
    · rintro ⟨_, rfl, rfl⟩; simp

def trim (cs : List Char) : List Char :=
  (((cs.dropWhile isBlank).reverse).dropWhile isBlank).reverse

/-- The words of a text: its longest runs of characters that are not blank. -/
def words (cs : List Char) : List (List Char) :=
  (pieces isBlank cs).filter (! ·.isEmpty)

def trimmedLines (text : String) : List String :=
  (pieces (· == '\n') text.toList).map fun line => String.ofList (trim line)

end EntityDiagram

import EntityDiagram.Proofs.HeaderGrammar

namespace EntityDiagram

theorem isWordChar_iff {c : Char} : isWordChar c = true ↔ c.isAlphanum = true ∨ c = '_' := by
  have hline : c = '_' ↔ c.toNat = 0x5F := by
    rw [← Char.toNat_inj]
    rfl
  have hupper : c.isUpper = true ↔ 65 ≤ c.toNat ∧ c.toNat ≤ 90 := decide_eq_true_iff
  have hlower : c.isLower = true ↔ 97 ≤ c.toNat ∧ c.toNat ≤ 122 :=
    Bool.and_eq_true_iff.trans (and_congr decide_eq_true_iff decide_eq_true_iff)
  have hdigit : c.isDigit = true ↔ 48 ≤ c.toNat ∧ c.toNat ≤ 57 :=
    Bool.and_eq_true_iff.trans (and_congr decide_eq_true_iff decide_eq_true_iff)
  have halphanum : c.isAlphanum = true ↔
      (c.isUpper = true ∨ c.isLower = true) ∨ c.isDigit = true :=
    Bool.or_eq_true_iff.trans (or_congr_left Bool.or_eq_true_iff)
  simp only [isWordChar, wordRanges, List.any_cons, List.any_nil, Bool.or_eq_true,
    Bool.and_eq_true, decide_eq_true_eq, Bool.false_eq_true, or_false, halphanum, hupper, hlower,
    hdigit, hline]
  omega

theorem Header.isGap_iff (c : Char) : Header.isGap c = true ↔ c = ' ' ∨ c = '\t' := by
  simp [Header.isGap]

theorem isRun_iff {inClass : Char → Bool} {P : Char → Prop} (h : ∀ c, inClass c = true ↔ P c)
    {text : String} : IsRun inClass text.toList ↔ text ≠ "" ∧ ∀ c ∈ text.toList, P c := by
  constructor
  · rintro ⟨hne, hall⟩
    exact ⟨fun e => hne (by rw [e]; rfl), fun c hc => (h c).mp (hall c hc)⟩
  · rintro ⟨hne, hall⟩
    exact ⟨fun e => hne (String.toList_eq_nil_iff.mp e), fun c hc => (h c).mpr (hall c hc)⟩

theorem IsRun.append_inj {inClass : Char → Bool} {run run' rest rest' : List Char}
    (hrun : IsRun inClass run) (hrun' : IsRun inClass run')
    (hrest : ∀ c, rest.head? = some c → inClass c = false)
    (hrest' : ∀ c, rest'.head? = some c → inClass c = false)
    (h : run ++ rest = run' ++ rest') : run = run' ∧ rest = rest' := by
  have hread := leadingRun?_append hrun hrest
  rw [h, leadingRun?_append hrun' hrest'] at hread
  simpa [eq_comm] using hread

@[ext]
structure WrittenHeader where
  kind : BlockKind
  before : String
  name : String
  after : String
  rest : String
  before_ne : before ≠ ""
  before_gap : ∀ c ∈ before.toList, c = ' ' ∨ c = '\t'
  name_ne : name ≠ ""
  name_word : ∀ c ∈ name.toList, c.isAlphanum = true ∨ c = '_'
  after_ne : after ≠ ""
  after_gap : ∀ c ∈ after.toList, c = ' ' ∨ c = '\t'

namespace WrittenHeader

def header (w : WrittenHeader) : Header := ⟨w.kind, w.name⟩

def text (w : WrittenHeader) : String :=
  String.ofList w.kind.keyword ++ w.before ++ w.name ++ w.after ++ "\x7b" ++ w.rest

variable (w : WrittenHeader)

theorem isRun_before : IsRun Header.isGap w.before.toList :=
  (isRun_iff Header.isGap_iff).mpr ⟨w.before_ne, w.before_gap⟩

theorem isRun_name : IsRun isWordChar w.name.toList :=
  (isRun_iff fun _ => isWordChar_iff).mpr ⟨w.name_ne, w.name_word⟩

theorem isRun_after : IsRun Header.isGap w.after.toList :=
  (isRun_iff Header.isGap_iff).mpr ⟨w.after_ne, w.after_gap⟩

theorem toList_text :
    w.text.toList = w.kind.keyword ++ (w.before.toList ++
      (w.name.toList ++ (w.after.toList ++ '\x7b' :: w.rest.toList))) := by
  simp [text]

theorem ofLine?_text : Header.ofLine? w.text = some w.header :=
  Header.ofLine?_eq_some_iff.mpr ⟨w.before.toList, w.after.toList, w.rest.toList, w.toList_text,
    w.isRun_before, w.isRun_name, w.isRun_after⟩

theorem exists_of_ofLine? {line : String} {header : Header}
    (h : Header.ofLine? line = some header) :
    ∃ w : WrittenHeader, w.text = line ∧ w.header = header := by
  obtain ⟨before, after, rest, hline, hbefore, hname, hafter⟩ := Header.ofLine?_eq_some_iff.mp h
  rw [← String.toList_ofList (l := before)] at hbefore
  rw [← String.toList_ofList (l := after)] at hafter
  obtain ⟨hbefore_ne, hbefore_gap⟩ := (isRun_iff Header.isGap_iff).mp hbefore
  obtain ⟨hname_ne, hname_word⟩ := (isRun_iff fun _ => isWordChar_iff).mp hname
  obtain ⟨hafter_ne, hafter_gap⟩ := (isRun_iff Header.isGap_iff).mp hafter
  refine ⟨⟨header.kind, String.ofList before, header.name, String.ofList after, String.ofList rest,
    hbefore_ne, hbefore_gap, hname_ne, hname_word, hafter_ne, hafter_gap⟩, ?_, rfl⟩
  rw [← String.toList_inj, toList_text, hline]
  simp

/-- The header is known from the text, so that the keyword comes off; then each run ends where the
class of its characters ends. -/
theorem text_injective : Function.Injective text := by
  intro v w h
  have hheader : v.header = w.header := by
    have hread := v.ofLine?_text
    rw [h, w.ofLine?_text] at hread
    exact (Option.some.inj hread).symm
  obtain ⟨hkind, hname⟩ := Header.mk.inj hheader
  have hlist := congrArg String.toList h
  rw [toList_text, toList_text, hkind, List.append_right_inj] at hlist
  obtain ⟨hbefore, hlist⟩ := v.isRun_before.append_inj w.isRun_before
    (fun c hc => Header.isGap_eq_false_of_isWordChar (v.isRun_name.mem_head hc))
    (fun c hc => Header.isGap_eq_false_of_isWordChar (w.isRun_name.mem_head hc)) hlist
  rw [hname, List.append_right_inj] at hlist
  have hbrace : ∀ rest : List Char, ∀ c, ('\x7b' :: rest).head? = some c →
      Header.isGap c = false := by
    intro rest c hc
    obtain rfl : '\x7b' = c := by simpa using hc
    decide
  obtain ⟨hafter, hrest⟩ := v.isRun_after.append_inj w.isRun_after (hbrace _) (hbrace _) hlist
  exact WrittenHeader.ext hkind (String.toList_inj.mp hbefore) hname (String.toList_inj.mp hafter)
    (String.toList_inj.mp (List.cons.inj hrest).2)

end WrittenHeader

namespace Header

def keyword? (cs : List Char) : Option (BlockKind × List Char) :=
  (after? BlockKind.model.keyword cs).map (BlockKind.model, ·) <|>
    (after? BlockKind.enum.keyword cs).map (BlockKind.enum, ·)

/-- A reading that does not come back behind a keyword to try another one. -/
def committed? (line : String) : Option Header := do
  let (kind, cs) ← keyword? line.toList
  return ⟨kind, ← nameOf? cs⟩

theorem committed?_eq_ofLine? (line : String) : committed? line = ofLine? line := by
  cases hmodel : after? BlockKind.model.keyword line.toList with
  | some cs =>
    have henum : after? BlockKind.enum.keyword line.toList = none := by
      rw [after?_eq_some_iff.mp hmodel]
      rfl
    simp [committed?, keyword?, ofLine?, ofKind?, hmodel, henum]
  | none =>
    cases henum : after? BlockKind.enum.keyword line.toList with
    | some cs => simp [committed?, keyword?, ofLine?, ofKind?, hmodel, henum]
    | none => simp [committed?, keyword?, ofLine?, ofKind?, hmodel, henum]

/-- A line is read as a header exactly if it is written as one, with the kind and the name that it
is written with. There is at most one way to write a line, its gaps and its rest included. A
reading that commits itself to the first keyword that fits misses no header. -/
theorem read_as_written (line : String) :
    (∀ kind name, ofLine? line = some ⟨kind, name⟩ ↔
      ∃ w : WrittenHeader, w.text = line ∧ w.kind = kind ∧ w.name = name) ∧
    (ofLine? line = none ↔ ∀ w : WrittenHeader, w.text ≠ line) ∧
    (∀ v w : WrittenHeader, v.text = line → w.text = line → v = w) ∧
    committed? line = ofLine? line := by
  refine ⟨fun kind name => ⟨fun h => ?_, ?_⟩, ⟨?_, fun h => ?_⟩, ?_, committed?_eq_ofLine? line⟩
  · obtain ⟨w, htext, hheader⟩ := WrittenHeader.exists_of_ofLine? h
    exact ⟨w, htext, Header.mk.inj hheader⟩
  · rintro ⟨w, rfl, rfl, rfl⟩
    exact w.ofLine?_text
  · rintro h w rfl
    rw [w.ofLine?_text] at h
    cases h
  · cases hread : ofLine? line with
    | none => rfl
    | some header =>
      obtain ⟨w, htext, _⟩ := WrittenHeader.exists_of_ofLine? hread
      exact absurd htext (h w)
  · rintro v w rfl hw
    exact (WrittenHeader.text_injective hw).symm

/-- A name may be a keyword, and what follows the brace is free; a name may not touch the brace. -/
example :
    ofLine? "enum \tmodel \x7b enum \x7b" = some ⟨.enum, "model"⟩ ∧
      ofLine? "modelmodel \x7b" = none ∧ ofLine? "model enum\x7b" = none := by
  decide

end Header

end EntityDiagram

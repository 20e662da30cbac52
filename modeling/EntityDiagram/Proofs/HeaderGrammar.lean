import EntityDiagram.Header

namespace EntityDiagram

structure IsRun (inClass : Char → Bool) (cs : List Char) : Prop where
  nonempty : cs ≠ []
  all_mem : ∀ c ∈ cs, inClass c = true

instance (inClass : Char → Bool) (cs : List Char) : Decidable (IsRun inClass cs) :=
  decidable_of_iff (cs ≠ [] ∧ cs.all inClass = true)
    ⟨fun ⟨hne, hall⟩ => ⟨hne, List.all_eq_true.mp hall⟩,
    fun ⟨hne, hall⟩ => ⟨hne, List.all_eq_true.mpr hall⟩⟩

theorem IsRun.mem_head {inClass : Char → Bool} {run rest : List Char} {c : Char}
    (h : IsRun inClass run) (hc : (run ++ rest).head? = some c) : inClass c = true := by
  cases run with
  | nil => exact absurd rfl h.nonempty
  | cons d run =>
    have hd : d = c := by simpa using hc
    exact hd ▸ h.all_mem d (List.mem_cons_self ..)

theorem newline_not_mem_of_isBlank {cs : List Char} (h : ∀ c ∈ cs, isBlank c = false) :
    '\n' ∉ cs := by
  intro hmem
  simpa [isBlank_newline] using h _ hmem

theorem IsRun.newline_not_mem {cs : List Char} (h : IsRun isWordChar cs) : '\n' ∉ cs :=
  newline_not_mem_of_isBlank fun c hc => isBlank_eq_false_of_isWordChar (h.all_mem c hc)

theorem leadingRun?_append {inClass : Char → Bool} {run rest : List Char}
    (hrun : IsRun inClass run) (hrest : ∀ c, rest.head? = some c → inClass c = false) :
    leadingRun? inClass (run ++ rest) = some (run, rest) := by
  have hstop : rest.takeWhile inClass = [] ∧ rest.dropWhile inClass = rest := by
    cases rest with
    | nil => simp
    | cons c rest => simp [hrest c rfl]
  refine leadingRun?_eq_some_iff.mpr ⟨hrun.nonempty, ?_, ?_⟩
  · rw [List.takeWhile_append_of_pos hrun.all_mem, hstop.1, List.append_nil]
  · rw [List.dropWhile_append_of_pos hrun.all_mem, hstop.2]

theorem leadingRun?_append_cons {inClass : Char → Bool} {run : List Char} {d : Char}
    (hrun : IsRun inClass run) (hd : inClass d = false) (rest : List Char) :
    leadingRun? inClass (run ++ d :: rest) = some (run, d :: rest) := by
  refine leadingRun?_append hrun fun c hc => ?_
  obtain rfl : d = c := by simpa using hc
  exact hd

theorem eq_append_of_leadingRun? {inClass : Char → Bool} {cs run rest : List Char}
    (h : leadingRun? inClass cs = some (run, rest)) : cs = run ++ rest ∧ IsRun inClass run := by
  obtain ⟨hne, hrun, hrest⟩ := leadingRun?_eq_some_iff.mp h
  refine ⟨?_, hne, ?_⟩
  · rw [hrun, hrest, List.takeWhile_append_dropWhile]
  · intro c hc
    rw [hrun] at hc
    exact List.all_eq_true.mp List.all_takeWhile c hc

namespace Header

theorem isBlank_of_isGap {c : Char} (h : isGap c = true) : isBlank c = true := by
  simp only [isGap, Bool.or_eq_true, beq_iff_eq] at h
  rcases h with rfl | rfl <;> decide

theorem isGap_eq_false_of_isWordChar {c : Char} (h : isWordChar c = true) : isGap c = false := by
  cases hg : isGap c with
  | false => rfl
  | true =>
    have := isBlank_of_isGap hg
    simp [isBlank_eq_false_of_isWordChar h] at this

theorem isWordChar_eq_false_of_isGap {c : Char} (h : isGap c = true) : isWordChar c = false := by
  cases hw : isWordChar c with
  | false => rfl
  | true =>
    have := isGap_eq_false_of_isWordChar hw
    simp [h] at this

theorem nameOf?_eq_some_iff {cs : List Char} {name : String} :
    nameOf? cs = some name ↔ ∃ before after rest,
      cs = before ++ (name.toList ++ (after ++ '\x7b' :: rest)) ∧
        IsRun isGap before ∧ IsRun isWordChar name.toList ∧ IsRun isGap after := by
  constructor
  · intro h
    obtain ⟨⟨before, cs₁⟩, h₁, hname⟩ := Option.bind_eq_some_iff.mp h
    obtain ⟨⟨word, cs₂⟩, h₂, hname⟩ := Option.bind_eq_some_iff.mp hname
    obtain ⟨⟨after, cs₃⟩, h₃, hname⟩ := Option.bind_eq_some_iff.mp hname
    obtain ⟨he₁, hbefore⟩ := eq_append_of_leadingRun? h₁
    obtain ⟨he₂, hword⟩ := eq_append_of_leadingRun? h₂
    obtain ⟨he₃, hafter⟩ := eq_append_of_leadingRun? h₃
    dsimp only at hname
    split at hname
    next hbrace =>
      obtain ⟨rest, rfl⟩ := List.head?_eq_some_iff.mp hbrace
      obtain rfl := Option.some.inj hname
      exact ⟨before, after, rest, by simp [he₁, he₂, he₃], hbefore, by simpa using hword, hafter⟩
    next => cases hname
  · rintro ⟨before, after, rest, rfl, hbefore, hword, hafter⟩
    have h₁ : leadingRun? isGap (before ++ (name.toList ++ (after ++ '\x7b' :: rest))) =
        some (before, name.toList ++ (after ++ '\x7b' :: rest)) :=
      leadingRun?_append hbefore fun c hc => isGap_eq_false_of_isWordChar (hword.mem_head hc)
    have h₂ : leadingRun? isWordChar (name.toList ++ (after ++ '\x7b' :: rest)) =
        some (name.toList, after ++ '\x7b' :: rest) :=
      leadingRun?_append hword fun c hc => isWordChar_eq_false_of_isGap (hafter.mem_head hc)
    have h₃ : leadingRun? isGap (after ++ '\x7b' :: rest) = some (after, '\x7b' :: rest) :=
      leadingRun?_append_cons hafter (by decide) rest
    simp [nameOf?, h₁, h₂, h₃]

theorem ofKind?_eq_some_iff {kind : BlockKind} {cs : List Char} {h : Header} :
    ofKind? kind cs = some h ↔ h.kind = kind ∧ ∃ before after rest,
      cs = kind.keyword ++ (before ++ (h.name.toList ++ (after ++ '\x7b' :: rest))) ∧
        IsRun isGap before ∧ IsRun isWordChar h.name.toList ∧ IsRun isGap after := by
  constructor
  · intro hk
    obtain ⟨behind, hafter, hk⟩ := Option.bind_eq_some_iff.mp hk
    obtain ⟨name, hname, hk⟩ := Option.bind_eq_some_iff.mp hk
    obtain rfl := Option.some.inj hk
    obtain ⟨before, after, rest, rfl, hruns⟩ := nameOf?_eq_some_iff.mp hname
    exact ⟨rfl, before, after, rest, after?_eq_some_iff.mp hafter, hruns⟩
  · rintro ⟨rfl, before, after, rest, rfl, hruns⟩
    have hafter : after? h.kind.keyword
        (h.kind.keyword ++ (before ++ (h.name.toList ++ (after ++ '\x7b' :: rest)))) =
        some (before ++ (h.name.toList ++ (after ++ '\x7b' :: rest))) :=
      after?_eq_some_iff.mpr rfl
    have hname := nameOf?_eq_some_iff.mpr ⟨before, after, rest, rfl, hruns⟩
    simp [ofKind?, hafter, hname]

theorem ofLine?_eq_some_iff {line : String} {h : Header} :
    ofLine? line = some h ↔ ∃ before after rest,
      line.toList = h.kind.keyword ++ (before ++ (h.name.toList ++ (after ++ '\x7b' :: rest))) ∧
        IsRun isGap before ∧ IsRun isWordChar h.name.toList ∧ IsRun isGap after := by
  constructor
  · intro hl
    rw [ofLine?, Option.orElse_eq_orElse, Option.orElse_eq_or] at hl
    rcases Option.or_eq_some_iff.mp hl with hk | ⟨_, hk⟩
    · obtain ⟨hkind, hline⟩ := ofKind?_eq_some_iff.mp hk
      exact hkind ▸ hline
    · obtain ⟨hkind, hline⟩ := ofKind?_eq_some_iff.mp hk
      exact hkind ▸ hline
  · intro hline
    have hkind := ofKind?_eq_some_iff.mpr ⟨rfl, hline⟩
    cases hk : h.kind with
    | model => simp [ofLine?, hk ▸ hkind]
    | enum =>
      have hnone : ofKind? .model line.toList = none := by
        obtain ⟨before, after, rest, he, _⟩ := hline
        rw [he, hk]
        rfl
      simp [ofLine?, hnone, hk ▸ hkind]

end Header

end EntityDiagram

import EntityDiagram.Block

namespace EntityDiagram

def lineRole (isOpen : Bool) (line : String) : LineRole :=
  match Header.ofLine? line with
  | some header => .opening header
  | none =>
    if line = closingLine then .closing
    else if isOpen then .interior line
    else .stray line

def LineRole.leavesOpen (isOpen : Bool) : LineRole → Bool
  | opening _ => true
  | closing => false
  | interior _ => isOpen
  | stray _ => isOpen

theorem lineRoles_cons (isOpen : Bool) (line : String) (lines : List String) :
    lineRoles isOpen (line :: lines) =
      lineRole isOpen line :: lineRoles ((lineRole isOpen line).leavesOpen isOpen) lines := by
  cases hh : Header.ofLine? line with
  | some header => simp [lineRoles, lineRole, hh, LineRole.leavesOpen]
  | none =>
    by_cases hc : line = closingLine
    · subst hc
      simp [lineRoles, lineRole, hh, LineRole.leavesOpen]
    · cases isOpen <;> simp [lineRoles, lineRole, hh, hc, LineRole.leavesOpen]

theorem lineRoles_append (isOpen : Bool) (lines others : List String) :
    lineRoles isOpen (lines ++ others) =
      lineRoles isOpen lines ++
        lineRoles ((lineRoles isOpen lines).foldl LineRole.leavesOpen isOpen) others := by
  induction lines generalizing isOpen with
  | nil => rfl
  | cons line lines ih => rw [List.cons_append, lineRoles_cons, lineRoles_cons, ih]; rfl

theorem exists_line_of_mem_lineRoles {isOpen : Bool} {lines : List String} {role : LineRole}
    (h : role ∈ lineRoles isOpen lines) :
    ∃ line ∈ lines, ∃ before, role = lineRole before line := by
  induction lines generalizing isOpen with
  | nil => cases h
  | cons line lines ih =>
    rw [lineRoles_cons] at h
    rcases List.mem_cons.mp h with he | h
    · exact ⟨line, List.mem_cons_self .., isOpen, he⟩
    · obtain ⟨l, hl, hrole⟩ := ih h
      exact ⟨l, List.mem_cons_of_mem _ hl, hrole⟩

theorem lineRole_eq_opening_iff {isOpen : Bool} {line : String} {header : Header} :
    lineRole isOpen line = .opening header ↔ Header.ofLine? line = some header := by
  cases hh : Header.ofLine? line with
  | some header' => simp [lineRole, hh]
  | none =>
    simp only [lineRole, hh, reduceCtorEq, iff_false]
    split
    · simp
    · split <;> simp

theorem lineRole_eq_interior_iff {isOpen : Bool} {line inside : String} :
    lineRole isOpen line = .interior inside ↔
      Header.ofLine? line = none ∧ line ≠ closingLine ∧ isOpen = true ∧ line = inside := by
  cases hh : Header.ofLine? line with
  | some header => simp [lineRole, hh]
  | none =>
    by_cases hc : line = closingLine
    · subst hc
      simp [lineRole, hh]
    · cases isOpen <;> simp [lineRole, hh, hc]

theorem lineRole_closingLine (isOpen : Bool) : lineRole isOpen closingLine = .closing := by
  have hnone : Header.ofLine? closingLine = none := by decide
  simp [lineRole, hnone]

theorem lineRole_eq_closing_iff {isOpen : Bool} {line : String} :
    lineRole isOpen line = .closing ↔ line = closingLine := by
  constructor
  · intro h
    unfold lineRole at h
    split at h
    next => cases h
    next =>
      split at h
      next hc => exact hc
      next => split at h <;> cases h
  · rintro rfl
    exact lineRole_closingLine isOpen

theorem isOpen_of_lineRole_eq_stray {isOpen : Bool} {line outside : String}
    (h : lineRole isOpen line = .stray outside) : isOpen = false := by
  unfold lineRole at h
  split at h
  next => cases h
  next =>
    split at h
    next => cases h
    next =>
      split at h
      next => cases h
      next hopen => simpa using hopen

theorem mem_interiorRun {line : String} {roles : List LineRole} (h : line ∈ interiorRun roles) :
    .interior line ∈ roles := by
  fun_induction interiorRun roles with
  | case1 line' roles ih =>
    rcases List.mem_cons.mp h with rfl | h
    · exact List.mem_cons_self ..
    · exact List.mem_cons_of_mem _ (ih h)
  | case2 => cases h

theorem roles_of_mem_blocks {b : Block} {roles : List LineRole} (h : b ∈ blocks roles) :
    .opening b.header ∈ roles ∧ ∀ line ∈ b.lines, .interior line ∈ roles := by
  fun_induction blocks roles with
  | case1 => cases h
  | case2 header roles ih =>
    rcases List.mem_cons.mp h with rfl | h
    · exact ⟨List.mem_cons_self .., fun line hl => List.mem_cons_of_mem _ (mem_interiorRun hl)⟩
    · obtain ⟨hopening, hlines⟩ := ih h
      refine ⟨List.mem_cons_of_mem _ hopening, fun line hl => ?_⟩
      exact List.mem_cons_of_mem _ (hlines line hl)
  | case3 role roles _ ih =>
    obtain ⟨hopening, hlines⟩ := ih h
    refine ⟨List.mem_cons_of_mem _ hopening, fun line hl => ?_⟩
    exact List.mem_cons_of_mem _ (hlines line hl)

theorem interiorRun_append {roles others : List LineRole} (h : interiorRun others = []) :
    interiorRun (roles ++ others) = interiorRun roles := by
  induction roles with
  | nil => exact h
  | cons role roles ih =>
    cases role with
    | interior line => rw [List.cons_append, interiorRun, interiorRun, ih]
    | opening header => rfl
    | closing => rfl
    | stray line => rfl

/-- No block goes on where no interior line follows. -/
theorem blocks_append {roles others : List LineRole} (h : interiorRun others = []) :
    blocks (roles ++ others) = blocks roles ++ blocks others := by
  induction roles with
  | nil => rfl
  | cons role roles ih =>
    cases role with
    | opening header =>
      rw [List.cons_append, blocks, blocks, interiorRun_append h, ih, List.cons_append]
    | closing => simpa [blocks] using ih
    | interior line => simpa [blocks] using ih
    | stray line => simpa [blocks] using ih

theorem blocks_append_closing (roles others : List LineRole) :
    blocks (roles ++ .closing :: others) = blocks roles ++ blocks others := by
  rw [blocks_append rfl]
  rfl

end EntityDiagram

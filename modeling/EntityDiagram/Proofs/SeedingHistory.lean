import EntityDiagram.Seeding

namespace EntityDiagram

inductive StoreAction
  | setFaults (countFault : Option String) (insertFault : Option Int)
  | seed (programs : List Program)
deriving DecidableEq

def SeedingOutcome.storesAny : SeedingOutcome → Bool
  | seeded programs => 0 < programs
  | _ => false

namespace Store

def act (s : Store) : StoreAction → Store
  | .setFaults countFault insertFault => { s with countFault, insertFault }
  | .seed programs => (s.seed programs).store

def actAll (s : Store) (actions : List StoreAction) : Store := actions.foldl act s

def outcomes : Store → List StoreAction → List SeedingOutcome
  | _, [] => []
  | s, .setFaults countFault insertFault :: actions =>
    outcomes (s.act (.setFaults countFault insertFault)) actions
  | s, .seed programs :: actions =>
    (s.seed programs).outcome :: outcomes (s.act (.seed programs)) actions

/-- Of all actions on a store that is empty at first, the one between `before` and `later` fills it:
nothing is stored before, and nothing changes what it stored. -/
structure FilledBy (before : List StoreAction) (programs : List Program)
    (later : List StoreAction) : Prop where
  empty_before : ∀ part, part <+: before → (actAll {} part).rows = []
  filled : (actAll {} (before ++ [.seed programs])).rows ≠ []
  in_order : (actAll {} (before ++ [.seed programs])).rows <+: programs
  kept : ∀ part, part <+: later →
    (actAll {} (before ++ .seed programs :: part)).rows =
      (actAll {} (before ++ [.seed programs])).rows
  skipped : ∀ part others, part ++ [.seed others] <+: later →
    (actAll {} (before ++ .seed programs :: part)).countFault = none →
    ((actAll {} (before ++ .seed programs :: part)).seed others).outcome =
      .skipped (actAll {} (before ++ .seed programs :: part)).rows.length

variable {s : Store}

theorem insert_of_fault (h : s.insertFault = some (s.rows.length : Int)) (p : Program) :
    s.insert p = .error (.insert s.rows.length) := if_pos h

theorem insert_of_ne (h : s.insertFault ≠ some (s.rows.length : Int)) (p : Program) :
    s.insert p = .ok { s with rows := s.rows ++ [p] } := if_neg h

theorem insertAll_cons_of_error {p : Program} {fault : StoreFault} (h : s.insert p = .error fault)
    (ps : List Program) : s.insertAll (p :: ps) = (s, [], some fault) := by
  rw [insertAll, h]

theorem insertAll_cons_of_ok {p : Program} {stored : Store} (h : s.insert p = .ok stored)
    (ps : List Program) :
    s.insertAll (p :: ps) =
      ((stored.insertAll ps).1, p :: (stored.insertAll ps).2.1, (stored.insertAll ps).2.2) := by
  rw [insertAll, h]

theorem store_insertAll (s : Store) (ps : List Program) :
    (s.insertAll ps).1 = { s with rows := s.rows ++ (s.insertAll ps).2.1 } := by
  induction ps generalizing s with
  | nil => simp [insertAll]
  | cons p ps ih =>
    by_cases h : s.insertFault = some (s.rows.length : Int)
    · rw [insertAll_cons_of_error (insert_of_fault h p), List.append_nil]
    · rw [insertAll_cons_of_ok (insert_of_ne h p), ih, List.append_assoc]
      rfl

theorem taken_insertAll (s : Store) (ps : List Program) :
    (s.insertAll ps).2.1 <+: ps ∧ ((s.insertAll ps).2.2 = none → (s.insertAll ps).2.1 = ps) := by
  induction ps generalizing s with
  | nil => simp [insertAll]
  | cons p ps ih =>
    cases h : s.insert p with
    | error fault => simp [insertAll_cons_of_error h]
    | ok stored => simpa [insertAll_cons_of_ok h] using ih stored

theorem seed_of_count_error {fault : StoreFault} (h : s.count = .error fault)
    (programs : List Program) : s.seed programs = ⟨.failed fault, s, []⟩ := by
  simp [seed, h]

theorem seed_of_count_ne_zero {n : Int} (h : s.count = .ok n) (hn : n ≠ 0)
    (programs : List Program) :
    s.seed programs = ⟨.skipped n, s, [.counted n, .alreadySeeded]⟩ := by
  simp [seed, h, hn]

theorem store_seed_of_count_zero (h : s.count = .ok 0) (programs : List Program) :
    (s.seed programs).store = (s.insertAll programs).1 := by
  simp only [seed, h, ne_eq, not_true_eq_false, ↓reduceIte]
  split <;> rfl

theorem outcome_seed_of_count_zero (h : s.count = .ok 0) (programs : List Program) :
    (s.seed programs).outcome =
      match (s.insertAll programs).2.2 with
      | none => .seeded programs.length
      | some fault => .failed fault := by
  simp only [seed, h, ne_eq, not_true_eq_false, ↓reduceIte]
  split <;> simp [*]

theorem count_of_countFault {text : String} (h : s.countFault = some text) :
    s.count = .error (.count text) := by
  simp [count, h]

theorem count_of_countFault_none (h : s.countFault = none) :
    s.count = .ok (s.reportedCount.getD s.rows.length) := by
  rw [count, h]

theorem count_of_reportedCount_none (hs : s.reportedCount = none) (h : s.countFault = none) :
    s.count = .ok s.rows.length := by
  rw [count_of_countFault_none h, hs]
  rfl

theorem store_seed_of_rows_ne_nil (hs : s.reportedCount = none) (hrows : s.rows ≠ [])
    (programs : List Program) : (s.seed programs).store = s := by
  rcases Option.eq_none_or_eq_some s.countFault with hfault | ⟨text, hfault⟩
  · have hlength : (s.rows.length : Int) ≠ 0 := by
      have := List.length_pos_iff.mpr hrows
      omega
    rw [seed_of_count_ne_zero (count_of_reportedCount_none hs hfault) hlength]
  · rw [seed_of_count_error (count_of_countFault hfault)]

theorem outcome_seed_of_rows_ne_nil (hs : s.reportedCount = none) (hrows : s.rows ≠ [])
    (hfault : s.countFault = none) (programs : List Program) :
    (s.seed programs).outcome = .skipped s.rows.length := by
  have hlength : (s.rows.length : Int) ≠ 0 := by
    have := List.length_pos_iff.mpr hrows
    omega
  rw [seed_of_count_ne_zero (count_of_reportedCount_none hs hfault) hlength]

theorem storesAny_seed_of_rows_ne_nil (hs : s.reportedCount = none) (hrows : s.rows ≠ [])
    (programs : List Program) : ¬ (s.seed programs).outcome.storesAny = true := by
  rcases Option.eq_none_or_eq_some s.countFault with hfault | ⟨text, hfault⟩
  · rw [outcome_seed_of_rows_ne_nil hs hrows hfault]
    exact Bool.false_ne_true
  · rw [seed_of_count_error (count_of_countFault hfault)]
    exact Bool.false_ne_true

theorem seed_of_rows_nil (hs : s.reportedCount = none) (hrows : s.rows = [])
    (programs : List Program) :
    ∃ taken, taken <+: programs ∧ (s.seed programs).store = { s with rows := taken } ∧
      ∀ n, (s.seed programs).outcome = .seeded n → taken = programs ∧ n = programs.length := by
  rcases Option.eq_none_or_eq_some s.countFault with hfault | ⟨text, hfault⟩
  · have hcount := count_of_reportedCount_none hs hfault
    rw [hrows] at hcount
    obtain ⟨htaken, hall⟩ := taken_insertAll s programs
    refine ⟨_, htaken, ?_, fun n hn => ?_⟩
    · rw [store_seed_of_count_zero hcount, store_insertAll, hrows, List.nil_append]
    · rw [outcome_seed_of_count_zero hcount] at hn
      split at hn
      next hf => exact ⟨hall hf, (SeedingOutcome.seeded.inj hn).symm⟩
      next => cases hn
  · rw [seed_of_count_error (count_of_countFault hfault)]
    refine ⟨[], List.nil_prefix, ?_, nofun⟩
    rw [← hrows]

theorem rows_seed_of_storesAny (hs : s.reportedCount = none) {programs : List Program}
    (h : (s.seed programs).outcome.storesAny = true) : (s.seed programs).store.rows ≠ [] := by
  by_cases hrows : s.rows = []
  · obtain ⟨taken, _, hstore, hall⟩ := seed_of_rows_nil hs hrows programs
    cases ho : (s.seed programs).outcome with
    | seeded n =>
      obtain ⟨rfl, rfl⟩ := hall n ho
      rw [ho] at h
      rw [hstore]
      exact List.length_pos_iff.mp (of_decide_eq_true h)
    | skipped n => simp [ho, SeedingOutcome.storesAny] at h
    | failed fault => simp [ho, SeedingOutcome.storesAny] at h
  · rwa [store_seed_of_rows_ne_nil hs hrows programs]

theorem reportedCount_act (hs : s.reportedCount = none) (a : StoreAction) :
    (s.act a).reportedCount = none := by
  cases a with
  | setFaults countFault insertFault => exact hs
  | seed programs =>
    by_cases hrows : s.rows = []
    · obtain ⟨taken, _, hstore, _⟩ := seed_of_rows_nil hs hrows programs
      rw [act, hstore]
      exact hs
    · rw [act, store_seed_of_rows_ne_nil hs hrows programs]
      exact hs

theorem rows_act_of_ne_nil (hs : s.reportedCount = none) (hrows : s.rows ≠ []) (a : StoreAction) :
    (s.act a).rows = s.rows := by
  cases a with
  | setFaults countFault insertFault => rfl
  | seed programs => rw [act, store_seed_of_rows_ne_nil hs hrows programs]

theorem rows_act_of_nil (hs : s.reportedCount = none) (hrows : s.rows = []) (a : StoreAction) :
    (s.act a).rows = [] ∨ ∃ programs, a = .seed programs ∧ (s.act a).rows <+: programs := by
  cases a with
  | setFaults countFault insertFault => exact Or.inl hrows
  | seed programs =>
    obtain ⟨taken, htaken, hstore, _⟩ := seed_of_rows_nil hs hrows programs
    refine Or.inr ⟨programs, rfl, ?_⟩
    rw [act, hstore]
    exact htaken

theorem actAll_append (s : Store) (as bs : List StoreAction) :
    s.actAll (as ++ bs) = (s.actAll as).actAll bs :=
  List.foldl_append ..

theorem reportedCount_actAll (hs : s.reportedCount = none) (as : List StoreAction) :
    (s.actAll as).reportedCount = none := by
  induction as generalizing s with
  | nil => exact hs
  | cons a as ih => exact ih (reportedCount_act hs a)

/-- Once a store has rows, nothing changes them. -/
theorem rows_actAll_of_ne_nil (hs : s.reportedCount = none) (hrows : s.rows ≠ [])
    (as : List StoreAction) : (s.actAll as).rows = s.rows := by
  induction as generalizing s with
  | nil => rfl
  | cons a as ih =>
    have hact := rows_act_of_ne_nil hs hrows a
    rw [← hact]
    exact ih (reportedCount_act hs a) (hact ▸ hrows)

/-- Either nothing is ever stored, or there is a first action that stores something. -/
theorem exists_filling (hs : s.reportedCount = none) (hrows : s.rows = [])
    (as : List StoreAction) :
    (∀ part, part <+: as → (s.actAll part).rows = []) ∨
      ∃ before programs later, as = before ++ .seed programs :: later ∧
        (∀ part, part <+: before → (s.actAll part).rows = []) ∧
        (s.actAll (before ++ [.seed programs])).rows ≠ [] ∧
        (s.actAll (before ++ [.seed programs])).rows <+: programs := by
  induction as generalizing s with
  | nil =>
    refine Or.inl fun part hpart => ?_
    rw [List.prefix_nil.mp hpart]
    exact hrows
  | cons a as ih =>
    -- Either the first action stores nothing and those behind it decide, or it is the one.
    by_cases hact : (s.act a).rows = []
    · have hcons : ∀ bs, (∀ part, part <+: bs → ((s.act a).actAll part).rows = []) →
          ∀ part, part <+: a :: bs → (s.actAll part).rows = [] := by
        intro bs hbs part hpart
        rcases List.prefix_cons_iff.mp hpart with rfl | ⟨rest, rfl, hrest⟩
        · exact hrows
        · exact hbs rest hrest
      rcases ih (reportedCount_act hs a) hact with
        hnone | ⟨before, programs, later, rfl, hbefore, h⟩
      · exact Or.inl (hcons as hnone)
      · exact Or.inr ⟨a :: before, programs, later, rfl, hcons before hbefore, h⟩
    · obtain ⟨programs, rfl, htaken⟩ := (rows_act_of_nil hs hrows a).resolve_left hact
      refine Or.inr ⟨[], programs, as, rfl, fun part hpart => ?_, hact, htaken⟩
      rw [List.prefix_nil.mp hpart]
      exact hrows

theorem filledBy_of_filling {before later : List StoreAction} {programs : List Program}
    (hbefore : ∀ part, part <+: before → (actAll {} part).rows = [])
    (hfilled : (actAll {} (before ++ [.seed programs])).rows ≠ [])
    (htaken : (actAll {} (before ++ [.seed programs])).rows <+: programs) :
    FilledBy before programs later := by
  have hkept : ∀ part, (actAll {} (before ++ .seed programs :: part)).rows =
      (actAll {} (before ++ [.seed programs])).rows := by
    intro part
    rw [List.append_cons, actAll_append]
    exact rows_actAll_of_ne_nil (reportedCount_actAll rfl _) hfilled part
  refine ⟨hbefore, hfilled, htaken, fun part _ => hkept part, fun part others _ hcount => ?_⟩
  have hrows := hkept part ▸ hfilled
  exact outcome_seed_of_rows_ne_nil (reportedCount_actAll rfl _) hrows hcount others

theorem filter_storesAny_outcomes_of_ne_nil (hs : s.reportedCount = none) (hrows : s.rows ≠ [])
    (as : List StoreAction) : (s.outcomes as).filter SeedingOutcome.storesAny = [] := by
  induction as generalizing s with
  | nil => rfl
  | cons a as ih =>
    have hrest := ih (reportedCount_act hs a) (rows_act_of_ne_nil hs hrows a ▸ hrows)
    cases a with
    | setFaults countFault insertFault => exact hrest
    | seed programs =>
      rw [outcomes, List.filter_cons_of_neg (storesAny_seed_of_rows_ne_nil hs hrows programs)]
      exact hrest

theorem length_storesAny_outcomes_le (hs : s.reportedCount = none) (as : List StoreAction) :
    ((s.outcomes as).filter SeedingOutcome.storesAny).length ≤ 1 := by
  induction as generalizing s with
  | nil => simp [outcomes]
  | cons a as ih =>
    have hrest := ih (reportedCount_act hs a)
    cases a with
    | setFaults countFault insertFault => exact hrest
    | seed programs =>
      by_cases h : (s.seed programs).outcome.storesAny = true
      · have hnone := filter_storesAny_outcomes_of_ne_nil
          (reportedCount_act hs (.seed programs)) (rows_seed_of_storesAny hs h) as
        refine Nat.le_of_eq ?_
        rw [outcomes, List.filter_cons_of_pos h, hnone, List.length_singleton]
      · rw [outcomes, List.filter_cons_of_neg h]
        exact hrest

/-- Of all seedings of a store that is empty at first, whatever faults come and go between them, at
most one puts anything there, and it alone may answer that it stored something. -/
theorem filled_at_most_once (actions : List StoreAction) :
    ((∀ part, part <+: actions → (actAll {} part).rows = []) ∨
      ∃ before programs later,
        actions = before ++ .seed programs :: later ∧ FilledBy before programs later) ∧
    ((outcomes {} actions).filter SeedingOutcome.storesAny).length ≤ 1 := by
  refine ⟨?_, length_storesAny_outcomes_le rfl actions⟩
  rcases exists_filling (s := {}) rfl rfl actions with
    hnone | ⟨before, programs, later, rfl, hb, hf, ht⟩
  · exact Or.inl hnone
  · exact Or.inr ⟨before, programs, later, rfl, filledBy_of_filling hb hf ht⟩

example : outcomes {} [.setFaults none (some 2), .seed defaultPrograms, .setFaults none none,
    .seed defaultPrograms] = [.failed (.insert 2), .skipped 2] := by decide

end Store

end EntityDiagram

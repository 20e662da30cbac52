import EntityDiagram.Proofs.SeedingHistory
import EntityDiagram.Text

namespace EntityDiagram

def Seeding.log (run : Seeding) : List LogRecord := run.events.map SeedingEvent.record

def LogRecord.createdTitle? (r : LogRecord) : Option String :=
  (after? "Created: ".toList r.message.toList).map String.ofList

def SeedingEvent.title? : SeedingEvent → Option String
  | created title => some title
  | _ => none

theorem LogRecord.createdTitle?_eq_none {r : LogRecord}
    (h : after? "Created: ".toList r.message.toList = none) : r.createdTitle? = none := by
  rw [createdTitle?, h]
  rfl

theorem SeedingEvent.createdTitle?_record (e : SeedingEvent) :
    e.record.createdTitle? = e.title? := by
  cases e with
  | created title =>
    have hafter : after? "Created: ".toList ("Created: " ++ title).toList = some title.toList :=
      after?_eq_some_iff.mpr String.toList_append
    rw [record, LogRecord.createdTitle?, hafter, Option.map_some, String.ofList_toList]
    rfl
  | counted count =>
    have hcounted : after? "Created: ".toList "Current program count".toList = none := by decide
    exact LogRecord.createdTitle?_eq_none hcounted
  | alreadySeeded => exact LogRecord.createdTitle?_eq_none (by decide)
  | started programs =>
    have hstarted : after? "Created: ".toList "Seeding programs".toList = none := by decide
    exact LogRecord.createdTitle?_eq_none hstarted
  | completed => exact LogRecord.createdTitle?_eq_none (by decide)

theorem SeedingEvent.record_eq_completed_iff {e : SeedingEvent} :
    e.record = ⟨.info, "Seeding complete", []⟩ ↔ e = .completed := by
  cases e with
  | created title =>
    refine iff_of_false (fun h => ?_) nofun
    have hhead := congrArg (fun r => r.message.toList.head?) h
    simp [record] at hhead
  | counted count => simp [record]
  | alreadySeeded => simp [record]
  | started programs => simp [record]
  | completed => simp [record]

namespace Seeding

theorem filterMap_createdTitle?_log (run : Seeding) :
    run.log.filterMap LogRecord.createdTitle? = run.events.filterMap SeedingEvent.title? := by
  have htitle : LogRecord.createdTitle? ∘ SeedingEvent.record = SeedingEvent.title? :=
    funext SeedingEvent.createdTitle?_record
  rw [log, List.filterMap_map, htitle]

theorem completed_mem_log_iff {run : Seeding} :
    ⟨.info, "Seeding complete", []⟩ ∈ run.log ↔ .completed ∈ run.events := by
  rw [log, List.mem_map]
  constructor
  · rintro ⟨e, he, hrecord⟩
    rwa [← SeedingEvent.record_eq_completed_iff.mp hrecord]
  · intro h
    exact ⟨_, h, rfl⟩

end Seeding

theorem filterMap_title?_created (ps : List Program) :
    (ps.map fun p => SeedingEvent.created p.title).filterMap SeedingEvent.title? =
      ps.map Program.title := by
  rw [List.filterMap_map]
  exact congrFun (List.filterMap_eq_map (f := Program.title)) ps

structure SeedingPass where
  store : Store
  events : List SeedingEvent

def SeedingPass.step (p : SeedingPass) (program : Program) :
    Except (StoreFault × SeedingPass) SeedingPass :=
  match p.store.insert program with
  | .error fault => .error (fault, p)
  | .ok stored => .ok ⟨stored, p.events ++ [.created program.title]⟩

def Store.seedStepwise (s : Store) (programs : List Program) : Seeding :=
  match s.count with
  | .error fault => ⟨.failed fault, s, []⟩
  | .ok count =>
    if count ≠ 0 then ⟨.skipped count, s, [.counted count, .alreadySeeded]⟩
    else
      match programs.foldlM SeedingPass.step ⟨s, [.counted count, .started programs.length]⟩ with
      | .error (fault, p) => ⟨.failed fault, p.store, p.events⟩
      | .ok p => ⟨.seeded programs.length, p.store, p.events ++ [.completed]⟩

namespace Store

variable {s : Store}

theorem insertAll_of_refused {n : Int} (hfault : s.insertFault = some n)
    (hlow : (s.rows.length : Int) ≤ n) {programs : List Program}
    (hhigh : n < s.rows.length + programs.length) :
    (s.insertAll programs).2 =
      (programs.take (n - s.rows.length).toNat, some (.insert n)) := by
  induction programs generalizing s with
  | nil =>
    rw [List.length_nil] at hhigh
    omega
  | cons p ps ih =>
    by_cases hn : n = s.rows.length
    · rw [insertAll_cons_of_error (insert_of_fault (hn ▸ hfault) p), hn, Int.sub_self]
      rfl
    · have hne : s.insertFault ≠ some (s.rows.length : Int) := by
        rw [hfault]
        exact fun he => hn (Option.some.inj he)
      have hrows : (s.rows ++ [p]).length = s.rows.length + 1 := List.length_append
      have hrest := ih (s := { s with rows := s.rows ++ [p] }) hfault (by rw [hrows]; omega)
        (by rw [hrows]; rw [List.length_cons] at hhigh; omega)
      have htake : (n - s.rows.length).toNat = (n - (s.rows ++ [p]).length).toNat + 1 := by
        rw [hrows]
        omega
      rw [insertAll_cons_of_ok (insert_of_ne hne p), hrest, htake, List.take_succ_cons]

theorem insertAll_of_not_refused {programs : List Program}
    (h : ∀ n, s.insertFault = some n → n < s.rows.length ∨ s.rows.length + programs.length ≤ n) :
    (s.insertAll programs).2 = (programs, none) := by
  induction programs generalizing s with
  | nil => rfl
  | cons p ps ih =>
    have hne : s.insertFault ≠ some (s.rows.length : Int) := by
      intro hfault
      have hout := h _ hfault
      rw [List.length_cons] at hout
      omega
    have hrest := ih (s := { s with rows := s.rows ++ [p] }) fun n hn => by
      have hout := h n hn
      rw [List.length_cons] at hout
      rw [List.length_append, List.length_singleton]
      omega
    rw [insertAll_cons_of_ok (insert_of_ne hne p), hrest]

end Store

namespace SeedingPass

def reached (p : SeedingPass) (programs : List Program) : SeedingPass :=
  ⟨(p.store.insertAll programs).1,
    p.events ++ (p.store.insertAll programs).2.1.map (.created ·.title)⟩

theorem foldlM_step (p : SeedingPass) (programs : List Program) :
    programs.foldlM step p =
      match (p.store.insertAll programs).2.2 with
      | some fault => .error (fault, p.reached programs)
      | none => .ok (p.reached programs) := by
  induction programs generalizing p with
  | nil =>
    rw [reached, Store.insertAll, List.map_nil, List.append_nil]
    rfl
  | cons program programs ih =>
    rw [List.foldlM_cons, step]
    cases h : p.store.insert program with
    | error fault =>
      rw [reached, Store.insertAll_cons_of_error h, List.map_nil, List.append_nil]
      rfl
    | ok stored =>
      have hrest := ih ⟨stored, p.events ++ [.created program.title]⟩
      -- The pass that goes on from here comes to the same end.
      have hreached : reached ⟨stored, p.events ++ [.created program.title]⟩ programs =
          p.reached (program :: programs) := by
        rw [reached, reached, Store.insertAll_cons_of_ok h, List.append_assoc]
        rfl
      rw [hreached] at hrest
      rw [Store.insertAll_cons_of_ok h]
      exact hrest

end SeedingPass

namespace Store

variable {s : Store}

theorem seed_of_count_zero (h : s.count = .ok 0) (programs : List Program) :
    s.seed programs =
      let begun := .counted 0 :: .started programs.length ::
        (s.insertAll programs).2.1.map (.created ·.title)
      match (s.insertAll programs).2.2 with
      | some fault => ⟨.failed fault, (s.insertAll programs).1, begun⟩
      | none => ⟨.seeded programs.length, (s.insertAll programs).1, begun ++ [.completed]⟩ := by
  rw [seed, h]
  rcases s.insertAll programs with ⟨last, taken, fault?⟩
  cases fault? with
  | some fault => rfl
  | none => rfl

theorem seedStepwise_eq (s : Store) (programs : List Program) :
    s.seedStepwise programs = s.seed programs := by
  cases h : s.count with
  | error fault => rw [seed_of_count_error h, seedStepwise, h]
  | ok count =>
    by_cases hcount : count = 0
    · subst hcount
      rw [seed_of_count_zero h, seedStepwise, h]
      simp only [ne_eq, not_true_eq_false, ↓reduceIte, SeedingPass.foldlM_step]
      cases (s.insertAll programs).2.2 with
      | some fault => rfl
      | none => rfl
    · rw [seed_of_count_ne_zero h hcount, seedStepwise, h]
      exact if_pos hcount

/-- What a seeding puts behind the rows of a store, as its log tells it. -/
structure Adds (s : Store) (run : Seeding) (added : List Program) : Prop where
  store : run.store = { s with rows := s.rows ++ added }
  created : run.log.filterMap LogRecord.createdTitle? = added.map Program.title
  completed : ⟨.info, "Seeding complete", []⟩ ∈ run.log ↔ ∃ n, run.outcome = .seeded n

theorem adds_nil {run : Seeding} (hstore : run.store = s)
    (hevents : ∀ e ∈ run.events, e.title? = none ∧ e ≠ .completed)
    (houtcome : ∀ n, run.outcome ≠ .seeded n) : s.Adds run [] where
  store := by rw [hstore, List.append_nil]
  created := by
    rw [run.filterMap_createdTitle?_log]
    exact List.filterMap_eq_nil_iff.mpr fun e he => (hevents e he).1
  completed := by
    rw [Seeding.completed_mem_log_iff]
    exact iff_of_false (fun h => (hevents _ h).2 rfl) fun ⟨n, hn⟩ => houtcome n hn

theorem exists_adds (s : Store) (programs : List Program) :
    ∃ added, s.Adds (s.seed programs) added := by
  cases h : s.count with
  | error fault =>
    rw [seed_of_count_error h]
    exact ⟨[], adds_nil rfl nofun nofun⟩
  | ok count =>
    by_cases hcount : count = 0
    · subst hcount
      refine ⟨(s.insertAll programs).2.1, ?_⟩
      rw [seed_of_count_zero h, store_insertAll]
      cases (s.insertAll programs).2.2 with
      | some fault =>
        refine ⟨rfl, ?_, ?_⟩
        · rw [Seeding.filterMap_createdTitle?_log]
          exact filterMap_title?_created _
        · rw [Seeding.completed_mem_log_iff]
          simp
      | none =>
        refine ⟨rfl, ?_, ?_⟩
        · rw [Seeding.filterMap_createdTitle?_log, List.filterMap_append]
          exact (List.append_nil _).trans (filterMap_title?_created _)
        · rw [Seeding.completed_mem_log_iff]
          simp
    · rw [seed_of_count_ne_zero h hcount]
      refine ⟨[], adds_nil rfl (fun e he => ?_) nofun⟩
      simp only [List.mem_cons, List.not_mem_nil, or_false] at he
      rcases he with rfl | rfl
      · exact ⟨rfl, nofun⟩
      · exact ⟨rfl, nofun⟩

/-- A seeding from its start to its end. It does nothing if the count fails or is not zero, whether
it is the true one or not; else it puts the programs behind the rows, up to the number of rows at
which the store refuses one. The log names what is added, and the end if it is reached. -/
theorem seed_from_count_to_completion (s : Store) (programs : List Program) :
    s.seedStepwise programs = s.seed programs ∧
    (∀ text, s.countFault = some text → s.seed programs = ⟨.failed (.count text), s, []⟩) ∧
    (s.countFault = none →
      let count := s.reportedCount.getD s.rows.length
      (count ≠ 0 → (s.seed programs).outcome = .skipped count ∧ (s.seed programs).store = s) ∧
      (count = 0 →
        (∀ n : Int, s.insertFault = some n →
          s.rows.length ≤ n → n < s.rows.length + programs.length →
          (s.seed programs).outcome = .failed (.insert n) ∧
          (s.seed programs).store.rows = s.rows ++ programs.take (n - s.rows.length).toNat) ∧
        ((∀ n : Int, s.insertFault = some n →
            n < s.rows.length ∨ s.rows.length + programs.length ≤ n) →
          (s.seed programs).outcome = .seeded programs.length ∧
          (s.seed programs).store.rows = s.rows ++ programs))) ∧
    ∃ added, s.Adds (s.seed programs) added := by
  refine ⟨s.seedStepwise_eq programs, fun text h => ?_, fun hfault => ⟨fun hcount => ?_,
    fun hcount => ⟨fun n hn hlow hhigh => ?_, fun hnot => ?_⟩⟩, s.exists_adds programs⟩
  · exact seed_of_count_error (count_of_countFault h) programs
  · rw [seed_of_count_ne_zero (count_of_countFault_none hfault) hcount]
    exact ⟨rfl, rfl⟩
  · have hzero : s.count = .ok 0 := hcount ▸ count_of_countFault_none hfault
    rw [store_seed_of_count_zero hzero, outcome_seed_of_count_zero hzero, rows_insertAll,
      insertAll_of_refused hn hlow hhigh]
    exact ⟨rfl, rfl⟩
  · have hzero : s.count = .ok 0 := hcount ▸ count_of_countFault_none hfault
    rw [store_seed_of_count_zero hzero, outcome_seed_of_count_zero hzero, rows_insertAll,
      insertAll_of_not_refused hnot]
    exact ⟨rfl, rfl⟩

def miscounting : Store :=
  { rows := defaultPrograms.take 1, reportedCount := some 0, insertFault := some 3 }

theorem miscounting_seeded_midway :
    miscounting.countFault = none ∧
    miscounting.reportedCount.getD miscounting.rows.length = 0 ∧
    miscounting.insertFault = some 3 ∧ (miscounting.rows.length : Int) ≤ 3 ∧
    (3 : Int) < miscounting.rows.length + defaultPrograms.length ∧
    (miscounting.seed defaultPrograms).outcome = .failed (.insert 3) ∧
    (miscounting.seed defaultPrograms).store.rows =
      defaultPrograms.take 1 ++ defaultPrograms.take 2 := by
  have hlow : (miscounting.rows.length : Int) ≤ 3 := by decide
  have hhigh : (3 : Int) < miscounting.rows.length + defaultPrograms.length := by decide
  have hrun := (((seed_from_count_to_completion miscounting defaultPrograms).2.2.1 rfl).2 rfl).1 3
    rfl hlow hhigh
  exact ⟨rfl, rfl, rfl, hlow, hhigh, hrun⟩

end Store

end EntityDiagram

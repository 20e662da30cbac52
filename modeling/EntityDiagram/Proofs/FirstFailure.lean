import EntityDiagram.Proofs.SessionRun

namespace EntityDiagram

inductive RunStage
  | configuration
  | schema
  | output
  | connection
  | script
  | database
deriving DecidableEq

/-- The stages of a command in their order. Printing does not fail. -/
def Command.stages : Command → List RunStage
  | diagram _ none => [.configuration, .schema]
  | diagram _ (some _) => [.configuration, .schema, .output]
  | dbSync _ _ => [.configuration, .connection, .script, .database]
  | seed _ => [.configuration, .connection, .database]

def Command.output? : Command → Option String
  | diagram _ output => output
  | _ => none

def Command.task (script : String) : Command → DatabaseTask
  | seed _ => .seed defaultPrograms
  | _ => .execute script

theorem Command.exists_stages (command : Command) :
    ∃ others, command.stages = .configuration :: others := by
  cases command with
  | diagram schema output => cases output <;> exact ⟨_, rfl⟩
  | dbSync sql envFile => exact ⟨_, rfl⟩
  | seed envFile => exact ⟨_, rfl⟩

def fault? {ε α : Type} : Except ε α → Option ε
  | .ok _ => none
  | .error fault => some fault

theorem eq_error_iff_fault? {ε : Type} {result : Except ε Unit} {fault : ε} :
    result = .error fault ↔ fault? result = some fault := by
  cases result with
  | ok u => simp [fault?]
  | error e => simp [fault?]

theorem eq_ok_iff_fault? {ε : Type} {result : Except ε Unit} :
    result = .ok () ↔ fault? result = none := by
  cases result with
  | ok u => simp [fault?]
  | error e => simp [fault?]

theorem findSome?_cons_eq_or {α β : Type} (f : α → Option β) (a : α) (as : List α) :
    (a :: as).findSome? f = (f a).or (as.findSome? f) := by
  cases h : f a with
  | none => simp [h]
  | some b => simp [h]

theorem findSome?_of_prefix {α β : Type} {f g : α → Option β} {through as : List α} {b : β}
    (h : through <+: as) (hsame : ∀ a ∈ through, g a = f a) (hb : through.findSome? f = some b) :
    as.findSome? g = some b := by
  obtain ⟨rest, rfl⟩ := h
  obtain ⟨earlier, a, later, rfl, ha, hearlier⟩ := List.findSome?_eq_some_iff.mp hb
  refine List.findSome?_eq_some_iff.mpr ⟨earlier, a, later ++ rest, by simp, ?_, fun x hx => ?_⟩
  · exact (hsame a (by simp)).trans ha
  · exact (hsame x (by simp [hx])).trans (hearlier x hx)

namespace Session

def failureAt (s : Session) (args : Arguments) : RunStage → Option Failure
  | .configuration => fault? (s.configuration args.config)
  | .schema =>
    (fault? (s.files.readText (s.settings args).schema)).map
      (.schemaUnreadable (s.settings args).schema)
  | .output => args.command.output?.bind fun path => (fault? (s.files.target path)).map .fileAccess
  | .connection =>
    if (s.connection? (s.resolver args)).isSome then none
    else some (.connectionStringMissing (s.resolver args).key (s.resolver args).envFile)
  | .script =>
    (fault? (s.files.readText (s.settings args).sqlScript)).map
      (.scriptUnreadable (s.settings args).sqlScript)
  | .database =>
    let url := (s.connection? (s.resolver args)).getD ""
    let script := (s.files.readText (s.settings args).sqlScript).toOption.getD ""
    (fault? (s.database url (args.command.task script))).map .database

variable (s : Session)

theorem fault?_drawDiagram {args : Arguments} {schema output : Option String}
    (h : args.command = .diagram schema output) :
    fault? (s.attempt (host.drawDiagram (s.settings args).schema output)).1 =
      (s.failureAt args .schema).or (s.failureAt args .output) := by
  rw [attempt_drawDiagram]
  cases hread : s.files.readText (s.settings args).schema with
  | error fault => simp [failureAt, hread, fault?]
  | ok source =>
    cases output with
    | none => simp [failureAt, hread, h, Command.output?, fault?]
    | some output =>
      cases htarget : s.files.target output with
      | error fault => simp [failureAt, hread, h, Command.output?, htarget, fault?]
      | ok place => simp [failureAt, hread, h, Command.output?, htarget, fault?]

theorem fault?_synchronise {args : Arguments} {sql envFile : Option String}
    (h : args.command = .dbSync sql envFile) :
    fault? (s.attempt (host.synchronise (s.resolver args) (s.settings args).sqlScript)).1 =
      (s.failureAt args .connection).or
        ((s.failureAt args .script).or (s.failureAt args .database)) := by
  rw [attempt_synchronise]
  cases hurl : s.connection? (s.resolver args) with
  | none => simp [failureAt, hurl, fault?]
  | some url =>
    cases hread : s.files.readText (s.settings args).sqlScript with
    | error fault => simp [failureAt, hurl, hread, fault?]
    | ok text =>
      cases hdone : s.database url (.execute text) with
      | error fault =>
        simp [failureAt, hurl, hread, h, Command.task, hdone, fault?, Except.toOption]
      | ok u =>
        simp [failureAt, hurl, hread, h, Command.task, hdone, fault?, Except.toOption]

theorem fault?_seedDefaults {args : Arguments} {envFile : Option String}
    (h : args.command = .seed envFile) :
    fault? (s.attempt (host.seedDefaults (s.resolver args))).1 =
      (s.failureAt args .connection).or (s.failureAt args .database) := by
  rw [attempt_seedDefaults]
  cases hurl : s.connection? (s.resolver args) with
  | none => simp [failureAt, hurl, fault?]
  | some url =>
    cases hdone : s.database url (.seed defaultPrograms) with
    | error fault => simp [failureAt, hurl, h, Command.task, hdone, fault?]
    | ok u => simp [failureAt, hurl, h, Command.task, hdone, fault?]

theorem fault?_run (args : Arguments) :
    fault? (s.run args).1 = args.command.stages.findSome? (s.failureAt args) := by
  -- The configuration is a stage of every command; the others follow if it does not fail.
  cases hconfiguration : s.configuration args.config with
  | error failure =>
    have hfirst : s.failureAt args .configuration = some failure := by
      rw [failureAt, hconfiguration]
      rfl
    obtain ⟨others, hothers⟩ := args.command.exists_stages
    rw [run_of_configuration_error s hconfiguration, hothers, findSome?_cons_eq_or, hfirst]
    rfl
  | ok o =>
    have hfirst : s.failureAt args .configuration = none := by
      rw [failureAt, hconfiguration]
      rfl
    rw [run_of_configuration s hconfiguration]
    cases hcommand : args.command with
    | diagram schema output =>
      have hdraw := fault?_drawDiagram s hcommand
      cases output with
      | none =>
        have houtput : s.failureAt args .output = none := by rw [failureAt, hcommand]; rfl
        simp only [Command.stages, findSome?_cons_eq_or, List.findSome?_nil, hfirst, hdraw,
          houtput, Option.none_or, Option.or_none]
      | some output =>
        simp only [Command.stages, findSome?_cons_eq_or, List.findSome?_nil, hfirst, hdraw,
          Option.none_or, Option.or_none]
    | dbSync sql envFile =>
      simp only [Command.stages, findSome?_cons_eq_or, List.findSome?_nil, hfirst,
        fault?_synchronise s hcommand, Option.none_or, Option.or_none]
    | seed envFile =>
      simp only [Command.stages, findSome?_cons_eq_or, List.findSome?_nil, hfirst,
        fault?_seedDefaults s hcommand, Option.none_or, Option.or_none]

/-- Two runs that go alike through the stages up to one that fails answer alike. -/
theorem run_eq_of_failing {t : Session} {args others : Arguments} {through : List RunStage}
    (h : through <+: args.command.stages) (h' : through <+: others.command.stages)
    (hsame : ∀ stage ∈ through, t.failureAt others stage = s.failureAt args stage)
    (hfails : ∃ stage ∈ through, s.failureAt args stage ≠ none) :
    (t.run others).1 = (s.run args).1 := by
  have hfound : (through.findSome? (s.failureAt args)).isSome := by
    obtain ⟨stage, hmem, hne⟩ := hfails
    exact List.findSome?_isSome_iff.mpr ⟨stage, hmem, Option.isSome_iff_ne_none.mpr hne⟩
  obtain ⟨failure, hfailure⟩ := Option.isSome_iff_exists.mp hfound
  have hs : (s.run args).1 = .error failure := by
    rw [eq_error_iff_fault?, fault?_run]
    exact findSome?_of_prefix h (fun _ _ => rfl) hfailure
  have ht : (t.run others).1 = .error failure := by
    rw [eq_error_iff_fault?, fault?_run]
    exact findSome?_of_prefix h' hsame hfailure
  rw [hs, ht]

/-- A run fails with the failure of the first stage that fails, and succeeds if none does. Nothing
behind a stage that fails has an influence. The configuration counts first of all, whatever the
command line overrides, and a setting is what the command line says, else what the configuration
says, else the default. -/
theorem run_answers_first_failure (args : Arguments) :
    (∀ failure, (s.run args).1 = .error failure ↔
      ∃ earlier stage later, args.command.stages = earlier ++ stage :: later ∧
        s.failureAt args stage = some failure ∧ ∀ e ∈ earlier, s.failureAt args e = none) ∧
    ((s.run args).1 = .ok () ↔ ∀ stage ∈ args.command.stages, s.failureAt args stage = none) ∧
    (∀ (t : Session) (others : Arguments) (through : List RunStage),
      through <+: args.command.stages → through <+: others.command.stages →
      (∀ stage ∈ through, t.failureAt others stage = s.failureAt args stage) →
      (∃ stage ∈ through, s.failureAt args stage ≠ none) → (t.run others).1 = (s.run args).1) ∧
    (∀ failure, s.configuration args.config = .error failure →
      ∀ command, (s.run { args with command }).1 = .error failure) ∧
    (∀ o, s.configuration args.config = .ok o →
      s.settings args = {
        schema := (args.command.overrides.schema.or o.schema).getD "prisma/schema.prisma"
        urlKey := o.urlKey.getD "DATABASE_URL"
        envFile := (args.command.overrides.envFile.or o.envFile).getD ".env"
        sqlScript := (args.command.overrides.sqlScript.or o.sqlScript).getD
          "create_missing_tables.sql" }) := by
  refine ⟨fun failure => ?_, ?_, fun t others through => run_eq_of_failing s,
    fun failure h command => ?_, fun o h => ?_⟩
  · rw [eq_error_iff_fault?, fault?_run, List.findSome?_eq_some_iff]
  · rw [eq_ok_iff_fault?, fault?_run, List.findSome?_eq_none_iff]
  · have hcommand : s.configuration { args with command }.config = .error failure := h
    rw [run_of_configuration_error s hcommand]
  · rw [settings_of_configuration s h]
    cases args.command with
    | diagram schema output => rfl
    | dbSync sql envFile => rfl
    | seed envFile => rfl

end Session

end EntityDiagram

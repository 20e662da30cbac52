import EntityDiagram.Proofs.FileWrite
import EntityDiagram.Proofs.SessionRun

namespace EntityDiagram.Session

theorem cases_of_kept {s : Session} {answer : Except Failure Unit × Session}
    (h : ∃ result, answer = (result, s)) :
    (∃ failure, answer = (.error failure, s)) ∨ answer = (.ok (), s) := by
  obtain ⟨_ | _, rfl⟩ := h
  · exact Or.inl ⟨_, rfl⟩
  · exact Or.inr rfl

theorem run_cases (s : Session) (args : Arguments) :
    (∃ failure, s.run args = (.error failure, s)) ∨
    (∃ schema source, args.command = .diagram schema none ∧
      s.files.readText (s.settings args).schema = .ok source ∧
      s.run args = (.ok (), { s with printed := s.printed ++ draw source })) ∨
    (∃ schema output source place, args.command = .diagram schema (some output) ∧
      s.files.readText (s.settings args).schema = .ok source ∧
      s.files.target output = .ok place ∧
      s.run args = (.ok (), { s with files := s.files.put place (.text (draw source)) })) ∨
    ((∀ schema output, args.command ≠ .diagram schema output) ∧ s.run args = (.ok (), s)) := by
  cases hconfiguration : s.configuration args.config with
  | error failure => exact Or.inl ⟨failure, run_of_configuration_error s hconfiguration⟩
  | ok o =>
    rw [run_of_configuration s hconfiguration]
    cases hcommand : args.command with
    | diagram schema output =>
      have hdraw := attempt_drawDiagram s (s.settings args).schema output
      cases hread : s.files.readText (s.settings args).schema with
      | error fault =>
        rw [hread] at hdraw
        exact Or.inl ⟨_, hdraw⟩
      | ok source =>
        rw [hread] at hdraw
        cases output with
        | none => exact Or.inr (Or.inl ⟨schema, source, rfl, rfl, hdraw⟩)
        | some output =>
          cases htarget : s.files.target output with
          | error fault =>
            simp only [htarget] at hdraw
            exact Or.inl ⟨_, hdraw⟩
          | ok place =>
            simp only [htarget] at hdraw
            exact Or.inr (Or.inr (Or.inl
              ⟨schema, output, source, place, rfl, rfl, htarget, hdraw⟩))
    | dbSync sql envFile =>
      have hkept := attempt_synchronise s (s.resolver args) (s.settings args).sqlScript
      exact (cases_of_kept ⟨_, hkept⟩).imp id fun h => Or.inr (Or.inr ⟨nofun, h⟩)
    | seed envFile =>
      have hkept := attempt_seedDefaults s (s.resolver args)
      exact (cases_of_kept ⟨_, hkept⟩).imp id fun h => Or.inr (Or.inr ⟨nofun, h⟩)

/-- A run that fails leaves the session as it was. One that draws a diagram prints it and no more,
or puts it into one file whose place its path leads to, drawn from the schema as it was before. -/
theorem run_changes_output_only (s : Session) (args : Arguments) :
    (∀ failure, (s.run args).1 = .error failure → (s.run args).2 = s) ∧
    ((s.run args).1 = .ok () →
      match args.command with
      | .diagram _ none => ∃ source, s.files.readText (s.settings args).schema = .ok source ∧
          (s.run args).2 = { s with printed := s.printed ++ draw source }
      | .diagram _ (some output) =>
        ∃ source place, s.files.readText (s.settings args).schema = .ok source ∧
          (s.run args).2 = { s with files := (s.run args).2.files } ∧
          s.files.Rewritten (s.run args).2.files output (draw source) place
      | _ => (s.run args).2 = s) := by
  rcases run_cases s args with ⟨failure, hrun⟩ | ⟨schema, source, hcommand, hread, hrun⟩ |
    ⟨schema, output, source, place, hcommand, hread, htarget, hrun⟩ | ⟨hcommand, hrun⟩
  · rw [hrun]
    exact ⟨fun _ _ => rfl, nofun⟩
  · rw [hrun, hcommand]
    exact ⟨nofun, fun _ => ⟨source, hread, rfl⟩⟩
  · rw [hrun, hcommand]
    exact ⟨nofun, fun _ => ⟨source, place, hread, rfl, FileTree.rewritten_put htarget _⟩⟩
  · rw [hrun]
    refine ⟨nofun, fun _ => ?_⟩
    split
    next schema h => exact absurd h (hcommand schema none)
    next schema output h => exact absurd h (hcommand schema (some output))
    next => rfl

/-- A diagram may be written over its own schema. -/
example :
    let s : Session := { files := ⟨[], [(["schema"], .text "enum Role \x7b\n\x7d\n")]⟩ }
    (s.run ⟨none, "info", .diagram (some "schema") (some "schema")⟩).2.files.readText "schema" =
      .ok (draw "enum Role \x7b\n\x7d\n") := by rfl

end EntityDiagram.Session

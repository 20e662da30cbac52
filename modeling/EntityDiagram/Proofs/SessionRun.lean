import EntityDiagram.Proofs.ResolvedUrl
import EntityDiagram.Proofs.SettingsLoading

namespace EntityDiagram

def Command.overrides : Command → Overrides
  | diagram schema _ => { schema }
  | dbSync sql envFile => { envFile, sqlScript := sql }
  | seed envFile => { envFile }

def Overrides.over (first second : Overrides) : Overrides where
  schema := first.schema.or second.schema
  urlKey := first.urlKey.or second.urlKey
  envFile := first.envFile.or second.envFile
  sqlScript := first.sqlScript.or second.sqlScript

/-- A command goes by what the command line sets, else by what the configuration sets, else by the
defaults. -/
theorem Host.perform_complete {m : Type → Type} [Monad m] (h : Host m) (o : Overrides)
    (command : Command) :
    h.perform o.complete command =
      let settings := (command.overrides.over o).complete
      match command with
      | .diagram _ output => h.drawDiagram settings.schema output
      | .dbSync _ _ => h.synchronise ⟨settings.urlKey, settings.envFile⟩ settings.sqlScript
      | .seed _ => h.seedDefaults ⟨settings.urlKey, settings.envFile⟩ := by
  cases command with
  | diagram schema output => cases schema <;> rfl
  | dbSync sql envFile => cases sql <;> cases envFile <;> rfl
  | seed envFile => cases envFile <;> rfl

namespace FileTree

def envFileState (t : FileTree) (path : String) : EnvFileState :=
  if t.isPresent path then
    match t.readText path with
    | .ok content => .readable content
    | .error fault => .unreadable fault
  else .absent

end FileTree

namespace Session

variable {α β : Type}

def operate (s : Session) (operation : StateM Session α) : α × Session := operation.run s

def attempt (s : Session) (operation : ExceptT Failure (StateM Session) α) :
    Except Failure α × Session :=
  s.operate operation.run

def running : Execution (StateM Session) Session where
  run s operation := s.operate operation
  run_pure _ _ := rfl
  run_map _ _ _ := rfl
  run_bind _ _ _ := rfl

theorem answers_host : running.Answers host id fun s _ => s where
  valueOf? _ _ := rfl
  isPresent _ _ := rfl
  readText _ _ := rfl
  session_note _ _ := rfl
  note_nil _ := rfl
  note_note _ _ _ := rfl

def settings (s : Session) (args : Arguments) : Settings :=
  (args.command.overrides.over ((s.configuration args.config).toOption.getD {})).complete

def resolver (s : Session) (args : Arguments) : Resolver :=
  ⟨(s.settings args).urlKey, (s.settings args).envFile⟩

def connection? (s : Session) (r : Resolver) : Option String :=
  (r.found? (s.valueOf? r.key) (s.files.envFileState r.envFile)).map Resolver.sanitize

variable (s : Session)

@[simp]
theorem operate_bind (x : StateM Session α) (f : α → StateM Session β) :
    s.operate (x >>= f) = (s.operate x).2.operate (f (s.operate x).1) := rfl

@[simp]
theorem operate_map (f : α → β) (x : StateM Session α) :
    s.operate (f <$> x) = (f (s.operate x).1, (s.operate x).2) := rfl

@[simp]
theorem operate_pure (a : α) : s.operate (pure a) = (a, s) := rfl

@[simp]
theorem operate_valueOf? (name : String) : s.operate (host.valueOf? name) = (s.valueOf? name, s) :=
  rfl

@[simp]
theorem operate_isPresent (path : String) :
    s.operate (host.isPresent path) = (s.files.isPresent path, s) := (rfl)

@[simp]
theorem operate_readText (path : String) :
    s.operate (host.readText path) = (s.files.readText path, s) := rfl

@[simp]
theorem operate_writeText (path content : String) :
    s.operate (host.writeText path content) = s.writeText path content := rfl

@[simp]
theorem operate_print (text : String) :
    s.operate (host.print text) = ((), { s with printed := s.printed ++ text }) := rfl

@[simp]
theorem operate_atDatabase (url : String) (task : DatabaseTask) :
    s.operate (host.atDatabase url task) = (s.database url task, s) := rfl

@[simp]
theorem attempt_bind (x : ExceptT Failure (StateM Session) α)
    (f : α → ExceptT Failure (StateM Session) β) :
    s.attempt (x >>= f) =
      match s.attempt x with
      | (.ok a, t) => t.attempt (f a)
      | (.error failure, t) => (.error failure, t) := by
  have hx : running.attempt s x = s.attempt x := rfl
  refine (running.attempt_bind s x f).trans ?_
  rw [hx]
  rcases s.attempt x with ⟨_ | _, t⟩
  · rfl
  · rfl

@[simp]
theorem attempt_lift (x : StateM Session α) :
    s.attempt (liftM x) = (.ok (s.operate x).1, (s.operate x).2) := rfl

@[simp]
theorem attempt_orFail {ε : Type} (failure : ε → Failure) (x : StateM Session (Except ε α)) :
    s.attempt (orFail failure x) = ((s.operate x).1.mapError failure, (s.operate x).2) := rfl

@[simp]
theorem attempt_loadSettings (given : Option String) :
    s.attempt (host.loadSettings given) = ((s.configuration given).map Overrides.complete, s) :=
  answers_host.attempt_loadSettings s given

@[simp]
theorem operate_envFileState (path : String) :
    s.operate (host.envFileState path) = (s.files.envFileState path, s) := by
  by_cases hpresent : s.files.isPresent path = true
  · cases htext : s.files.readText path with
    | error fault => simp [Host.envFileState, FileTree.envFileState, hpresent, htext]
    | ok text => simp [Host.envFileState, FileTree.envFileState, hpresent, htext]
  · simp [Host.envFileState, FileTree.envFileState, hpresent]

/-- The env file is not looked at if the environment has a value, and does not matter then. -/
@[simp]
theorem operate_resolve (r : Resolver) :
    s.operate (host.resolve r) =
      (r.resolve (s.valueOf? r.key) (s.files.envFileState r.envFile), s) := by
  cases hvalue : Resolver.nonEmpty? (s.valueOf? r.key) with
  | none => simp [Host.resolve, hvalue]
  | some raw => simp [Host.resolve, Resolver.resolve, hvalue]

@[simp]
theorem attempt_connectionString (r : Resolver) :
    s.attempt (host.connectionString r) =
      (match s.connection? r with
        | some url => .ok url
        | none => .error (.connectionStringMissing r.key r.envFile), s) := by
  simp only [Host.connectionString, connection?, attempt_bind, attempt_lift, operate_resolve,
    Resolver.url_resolve]
  cases r.found? (s.valueOf? r.key) (s.files.envFileState r.envFile) with
  | none => rfl
  | some raw => rfl

theorem attempt_drawDiagram (schema : String) (output : Option String) :
    s.attempt (host.drawDiagram schema output) =
      match s.files.readText schema, output with
      | .error fault, _ => (.error (.schemaUnreadable schema fault), s)
      | .ok source, none => (.ok (), { s with printed := s.printed ++ draw source })
      | .ok source, some path =>
        match s.files.target path with
        | .error fault => (.error (.fileAccess fault), s)
        | .ok place => (.ok (), { s with files := s.files.put place (.text (draw source)) }) := by
  simp only [Host.drawDiagram, attempt_bind, attempt_orFail, operate_readText]
  cases s.files.readText schema with
  | error fault => rfl
  | ok source =>
    cases output with
    | none => simp only [mapError_ok, attempt_lift, operate_print]
    | some path =>
      simp only [mapError_ok, attempt_orFail, operate_writeText, writeText, FileTree.writeText]
      cases s.files.target path with
      | error fault => rfl
      | ok place => rfl

theorem attempt_synchronise (r : Resolver) (script : String) :
    s.attempt (host.synchronise r script) =
      (match s.connection? r, s.files.readText script with
        | none, _ => .error (.connectionStringMissing r.key r.envFile)
        | some _, .error fault => .error (.scriptUnreadable script fault)
        | some url, .ok text => (s.database url (.execute text)).mapError .database, s) := by
  simp only [Host.synchronise, attempt_bind, attempt_connectionString, attempt_orFail,
    operate_readText, operate_atDatabase]
  cases s.connection? r with
  | none => rfl
  | some url =>
    dsimp only
    cases s.files.readText script with
    | error fault => rfl
    | ok text => rfl

theorem attempt_seedDefaults (r : Resolver) :
    s.attempt (host.seedDefaults r) =
      (match s.connection? r with
        | none => .error (.connectionStringMissing r.key r.envFile)
        | some url => (s.database url (.seed defaultPrograms)).mapError .database, s) := by
  simp only [Host.seedDefaults, attempt_bind, attempt_connectionString, attempt_orFail,
    operate_atDatabase]
  cases s.connection? r with
  | none => rfl
  | some url => rfl

theorem settings_of_configuration {args : Arguments} {o : Overrides}
    (h : s.configuration args.config = .ok o) :
    s.settings args = (args.command.overrides.over o).complete := by
  rw [settings, h]
  rfl

theorem run_of_configuration_error {args : Arguments} {failure : Failure}
    (h : s.configuration args.config = .error failure) : s.run args = (.error failure, s) := by
  change s.attempt (host.run args) = _
  rw [Host.run, attempt_bind, attempt_loadSettings, h]
  rfl

theorem run_of_configuration {args : Arguments} {o : Overrides}
    (h : s.configuration args.config = .ok o) :
    s.run args =
      s.attempt (match args.command with
        | .diagram _ output => host.drawDiagram (s.settings args).schema output
        | .dbSync _ _ => host.synchronise (s.resolver args) (s.settings args).sqlScript
        | .seed _ => host.seedDefaults (s.resolver args)) := by
  have hperform : s.run args = s.attempt (host.perform o.complete args.command) := by
    change s.attempt (host.run args) = _
    rw [Host.run, attempt_bind, attempt_loadSettings, h]
    rfl
  rw [hperform, resolver, settings_of_configuration s h, Host.perform_complete]

end Session

end EntityDiagram

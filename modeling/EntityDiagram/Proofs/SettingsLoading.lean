import EntityDiagram.Session

namespace EntityDiagram

@[simp]
theorem mapError_ok {ε δ α : Type} (f : ε → δ) (a : α) :
    (Except.ok a : Except ε α).mapError f = .ok a := rfl

@[simp]
theorem mapError_error {ε δ α : Type} (f : ε → δ) (e : ε) :
    (Except.error e : Except ε α).mapError f = .error (f e) := rfl

inductive Inquiry
  | presence (path : String)
  | content (path : String)
deriving DecidableEq

def FileTree.overrides (t : FileTree) (path : String) : Except Failure Overrides :=
  if t.isPresent path then
    match t.readText path with
    | .ok text =>
      match Overrides.read? text with
      | some o => .ok o
      | none => .error .configurationMalformed
    | .error fault => .error (.fileAccess fault)
  else .error (.configurationMissing path)

namespace Session

def userFile? (s : Session) : Option String :=
  ((s.valueOf? "HOME").filter (! ·.isEmpty)).map fun home =>
    ((s.valueOf? "XDG_CONFIG_HOME").filter (·.toList.head? = some '/')).getD (home ++ "/.config") ++
      "/" ++ Host.projectFile

def configurationFile? (s : Session) (given : Option String) : Option String :=
  given.or ((Host.projectFile :: s.userFile?.toList).find? s.files.isPresent)

def configuration (s : Session) (given : Option String) : Except Failure Overrides :=
  match s.configurationFile? given with
  | some path => s.files.overrides path
  | none => .ok {}

def tested (s : Session) : Option String → List String
  | some _ => []
  | none =>
    if s.files.isPresent Host.projectFile then [Host.projectFile]
    else Host.projectFile :: s.userFile?.toList

def inquiriesOn (s : Session) (path : String) : List Inquiry :=
  .presence path :: if s.files.isPresent path then [.content path] else []

def inquiries (s : Session) (given : Option String) : List Inquiry :=
  (s.tested given).map .presence ++ (s.configurationFile? given).toList.flatMap s.inquiriesOn

end Session

/-- A way to carry out the operations of a monad, each in the state that the one before it left. -/
structure Execution (m : Type → Type) [Monad m] (σ : Type) where
  run : {α : Type} → σ → m α → α × σ
  run_pure : ∀ {α : Type} (s : σ) (a : α), run s (pure a) = (a, s)
  run_map : ∀ {α β : Type} (s : σ) (f : α → β) (x : m α),
    run s (f <$> x) = (f (run s x).1, (run s x).2)
  run_bind : ∀ {α β : Type} (s : σ) (x : m α) (f : α → m β),
    run s (x >>= f) = run (run s x).2 (f (run s x).1)

namespace Execution

variable {m : Type → Type} [Monad m] {σ α β : Type} (e : Execution m σ) (s : σ)

def attempt (operation : ExceptT Failure m α) : Except Failure α × σ := e.run s operation.run

theorem attempt_bind (x : ExceptT Failure m α) (f : α → ExceptT Failure m β) :
    e.attempt s (x >>= f) =
      match e.attempt s x with
      | (.ok a, t) => e.attempt t (f a)
      | (.error failure, t) => (.error failure, t) := by
  unfold attempt
  rw [ExceptT.run_bind, e.run_bind]
  rcases e.run s x.run with ⟨_ | _, t⟩
  · exact e.run_pure _ _
  · rfl

theorem attempt_pure (a : α) : e.attempt s (pure a) = (.ok a, s) := e.run_pure _ _

theorem attempt_throw (failure : Failure) :
    e.attempt s (throw failure : ExceptT Failure m α) = (.error failure, s) := e.run_pure _ _

theorem attempt_lift (x : m α) : e.attempt s (liftM x) = (.ok (e.run s x).1, (e.run s x).2) :=
  e.run_map _ _ _

theorem attempt_orFail {ε : Type} (failure : ε → Failure) (x : m (Except ε α)) :
    e.attempt s (orFail failure x) = ((e.run s x).1.mapError failure, (e.run s x).2) :=
  e.run_map _ _ _

/-- A host answers as the session of a state does, and notes in the state what it is asked about
files. -/
structure Answers (e : Execution m σ) (h : Host m) (session : σ → Session)
    (note : σ → List Inquiry → σ) : Prop where
  valueOf? : ∀ s name, e.run s (h.valueOf? name) = ((session s).valueOf? name, s)
  isPresent : ∀ s path,
    e.run s (h.isPresent path) = ((session s).files.isPresent path, note s [.presence path])
  readText : ∀ s path,
    e.run s (h.readText path) = ((session s).files.readText path, note s [.content path])
  session_note : ∀ s asked, session (note s asked) = session s
  note_nil : ∀ s, note s [] = s
  note_note : ∀ s asked others, note (note s asked) others = note s (asked ++ others)

namespace Answers

variable {e : Execution m σ} {h : Host m} {session : σ → Session} {note : σ → List Inquiry → σ}
  (answers : e.Answers h session note) (s : σ)

include answers

theorem run_userFile? : e.run s h.userFile? = ((session s).userFile?, s) := by
  simp only [Host.userFile?, e.run_bind, answers.valueOf?, Session.userFile?]
  cases ((session s).valueOf? "HOME").filter (! ·.isEmpty) with
  | none => exact e.run_pure _ _
  | some home => exact e.run_pure _ _

theorem run_configurationFile? (given : Option String) :
    e.run s (h.configurationFile? given) =
      ((session s).configurationFile? given,
        note s (((session s).tested given).map .presence)) := by
  cases given with
  | some path =>
    simp [Host.configurationFile?, Session.configurationFile?, Session.tested, e.run_pure,
      answers.note_nil]
  | none =>
    simp only [Host.configurationFile?, Session.configurationFile?, Session.tested, e.run_bind,
      answers.isPresent, Option.none_or]
    by_cases hproject : (session s).files.isPresent Host.projectFile = true
    · simp [hproject, e.run_pure]
    · have huserFile := answers.run_userFile? (note s [.presence Host.projectFile])
      rw [answers.session_note] at huserFile
      cases huser : (session s).userFile? with
      | none => simp [hproject, e.run_bind, e.run_pure, huserFile, huser]
      | some path =>
        by_cases hpath : (session s).files.isPresent path = true
        · simp [hproject, e.run_bind, e.run_pure, huserFile, huser, hpath, answers.isPresent,
            answers.session_note, answers.note_note]
        · simp [hproject, e.run_bind, e.run_pure, huserFile, huser, hpath, answers.isPresent,
            answers.session_note, answers.note_note]

theorem attempt_loadFile (path : String) :
    e.attempt s (h.loadFile path) =
      (((session s).files.overrides path).map Overrides.complete,
        note s ((session s).inquiriesOn path)) := by
  by_cases hpresent : (session s).files.isPresent path = true
  · have hasked : note (note s [.presence path]) [.content path] =
        note s ((session s).inquiriesOn path) := by
      simp [answers.note_note, Session.inquiriesOn, hpresent]
    simp only [Host.loadFile, attempt_bind, attempt_lift, answers.isPresent, hpresent,
      attempt_orFail, answers.readText, answers.session_note, hasked, FileTree.overrides, if_true]
    cases (session s).files.readText path with
    | error fault => rfl
    | ok text =>
      simp only [mapError_ok]
      cases Overrides.read? text with
      | none => exact attempt_throw ..
      | some o => exact attempt_pure ..
  · simp [Host.loadFile, FileTree.overrides, Session.inquiriesOn, hpresent, Except.map,
      attempt_bind, attempt_lift, attempt_throw, answers.isPresent]

/-- The settings that are loaded and what is asked on the way depend on the session alone. -/
theorem attempt_loadSettings (given : Option String) :
    e.attempt s (h.loadSettings given) =
      (((session s).configuration given).map Overrides.complete,
        note s ((session s).inquiries given)) := by
  simp only [Host.loadSettings, attempt_bind, attempt_lift, answers.run_configurationFile?,
    Session.configuration, Session.inquiries]
  cases (session s).configurationFile? given with
  | none =>
    rw [Option.toList_none, List.flatMap_nil, List.append_nil]
    exact attempt_pure ..
  | some path =>
    simp only [answers.attempt_loadFile, answers.session_note, answers.note_note,
      Option.toList_some, List.flatMap_singleton]

end Answers

end Execution

end EntityDiagram

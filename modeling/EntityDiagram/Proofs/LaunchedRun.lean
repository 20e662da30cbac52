import EntityDiagram.Proofs.SessionRun

namespace EntityDiagram

def EqButCase (a b : String) : Prop := a.toList.map Char.toLower = b.toList.map Char.toLower

instance (a b : String) : Decidable (EqButCase a b) := inferInstanceAs (Decidable (_ = _))

theorem map_toLower_eq_iff {text lower : String}
    (h : lower.toList.map Char.toLower = lower.toList) :
    text.map Char.toLower = lower ↔ EqButCase text lower := by
  rw [EqButCase, h, ← String.toList_inj, String.toList_map]

theorem toLower_logLevels : ∀ level ∈ logLevels, level.toList.map Char.toLower = level.toList := by
  decide

theorem isLogLevel_iff {text : String} :
    isLogLevel text = true ↔ ∃ level ∈ logLevels, EqButCase text level := by
  rw [isLogLevel, List.contains_iff_mem]
  constructor
  · intro h
    exact ⟨_, h, (map_toLower_eq_iff (toLower_logLevels _ h)).mp rfl⟩
  · rintro ⟨level, hlevel, heq⟩
    rwa [(map_toLower_eq_iff (toLower_logLevels level hlevel)).mpr heq]

theorem noticeOn_eq_some_iff {text notice : String} :
    noticeOn text = some notice ↔
      (¬∃ level ∈ logLevels, EqButCase text level) ∧
        notice = "Invalid log level: " ++ text ++ ". Using 'warn' instead." := by
  rw [noticeOn, ← isLogLevel_iff]
  by_cases h : isLogLevel text = true
  · simp [h]
  · simp [h, eq_comm]

def Ending.silenced : Ending → Ending
  | refused why => .refused why
  | failed _ failure => .failed none failure
  | completed _ => .completed none

def Ending.ofAnswer (notice : Option String) : Except Failure Unit → Ending
  | .error failure => .failed notice failure
  | .ok () => .completed notice

namespace Ending

variable {notice : Option String} {answer : Except Failure Unit}

theorem notice?_ofAnswer : (ofAnswer notice answer).notice? = notice := by
  cases answer with
  | ok u => rfl
  | error failure => rfl

theorem silenced_ofAnswer : (ofAnswer notice answer).silenced = ofAnswer none answer := by
  cases answer with
  | ok u => rfl
  | error failure => rfl

theorem exitCode_ofAnswer_cases :
    answer = .ok () ∧ (ofAnswer notice answer).exitCode = 0 ∨
      ∃ failure, answer = .error failure ∧ (ofAnswer notice answer).exitCode = 1 := by
  cases answer with
  | ok u => exact Or.inl ⟨rfl, rfl⟩
  | error failure => exact Or.inr ⟨failure, rfl, rfl⟩

theorem exitCode_ofAnswer :
    (ofAnswer notice answer).exitCode = (ofAnswer none answer).exitCode := by
  cases answer with
  | ok u => rfl
  | error failure => rfl

end Ending

section Host

variable {m : Type → Type} [Monad m] (h : Host m)

/-- A launch does what a run does, and nothing else. -/
theorem launch_of_ofWords [LawfulMonad m] {words : List String} {args : Arguments}
    (hwords : Arguments.ofWords words = .ok args) :
    launch h words = Ending.ofAnswer (noticeOn args.logLevel) <$> (h.run args).run := by
  rw [launch, hwords, map_eq_pure_bind]
  refine bind_congr fun answer => ?_
  cases answer with
  | ok u => rfl
  | error failure => rfl

theorem Host.run_logLevel (args : Arguments) (logLevel : String) :
    h.run { args with logLevel } = h.run args := rfl

end Host

namespace Session

variable (s : Session)

theorem launch_eq {words : List String} {args : Arguments}
    (h : Arguments.ofWords words = .ok args) :
    s.launch words = (.ofAnswer (noticeOn args.logLevel) (s.run args).1, (s.run args).2) := by
  rw [launch, launch_of_ofWords host h]
  rfl

theorem run_logLevel (args : Arguments) (logLevel : String) :
    s.run { args with logLevel } = s.run args := by
  rw [run, Host.run_logLevel, run]

/-- Words that come to arguments are launched as those arguments are run: what is left behind is the
same, and the exit code tells whether the run succeeded. The text of the log level decides about the
notice alone. -/
theorem launch_is_run {words : List String} {args : Arguments}
    (h : Arguments.ofWords words = .ok args) :
    (s.launch words).2 = (s.run args).2 ∧
    ((s.run args).1 = .ok () ∧ (s.launch words).1.exitCode = 0 ∨
      ∃ failure, (s.run args).1 = .error failure ∧ (s.launch words).1.exitCode = 1) ∧
    (∀ notice, (s.launch words).1.notice? = some notice ↔
      (¬∃ level ∈ ["off", "error", "warn", "info", "debug", "trace"],
        EqButCase args.logLevel level) ∧
      notice = "Invalid log level: " ++ args.logLevel ++ ". Using 'warn' instead.") ∧
    (∀ logLevel others, Arguments.ofWords others = .ok { args with logLevel } →
      (s.launch others).2 = (s.launch words).2 ∧
      (s.launch others).1.exitCode = (s.launch words).1.exitCode ∧
      (s.launch others).1.silenced = (s.launch words).1.silenced) := by
  rw [launch_eq s h]
  refine ⟨rfl, Ending.exitCode_ofAnswer_cases, fun notice => ?_, fun logLevel others h' => ?_⟩
  · rw [Ending.notice?_ofAnswer]
    exact noticeOn_eq_some_iff
  · rw [launch_eq s h', run_logLevel]
    exact ⟨rfl, Ending.exitCode_ofAnswer.trans Ending.exitCode_ofAnswer.symm,
      Ending.silenced_ofAnswer.trans Ending.silenced_ofAnswer.symm⟩

end Session

namespace Loud

def session : Session where
  files := {
    workingDirectory := []
    entries := [(["prisma"], .directory),
      (["prisma", "schema.prisma"], .text "enum Role \x7b\n\x7d\n")] }

def words : List String := ["diagram", "--log-level=loud"]

def otherWords : List String := ["--log-level", "TRACE", "diagram"]

def arguments : Arguments := ⟨none, "loud", .diagram none none⟩

theorem notice_and_no_more :
    (session.launch words).2 = (session.run arguments).2 ∧
    (session.launch words).1.notice? = some "Invalid log level: loud. Using 'warn' instead." ∧
    (session.launch otherWords).2 = (session.launch words).2 ∧
    (session.launch otherWords).1.exitCode = (session.launch words).1.exitCode := by
  have hwords : Arguments.ofWords words = .ok arguments := rfl
  have hothers : Arguments.ofWords otherWords = .ok { arguments with logLevel := "TRACE" } := rfl
  obtain ⟨hafter, _, hnotice, hsame⟩ := Session.launch_is_run session hwords
  obtain ⟨hleft, hcode, _⟩ := hsame "TRACE" otherWords hothers
  exact ⟨hafter, (hnotice _).mpr ⟨by decide, by decide⟩, hleft, hcode⟩

end Loud

end EntityDiagram

import EntityDiagram.Proofs.FileWrite
import EntityDiagram.Proofs.SessionRun
import Mathlib.Logic.Equiv.Prod

namespace EntityDiagram

def Inquiry.content? : Inquiry → Option String
  | presence _ => none
  | content path => some path

def Inquiry.AnsweredAlike (t t' : FileTree) : Inquiry → Prop
  | presence path => t'.isPresent path = t.isPresent path
  | content path => t'.readText path = t.readText path

/-- A host that writes down what it is asked about files. -/
def Host.watched {m : Type → Type} [Monad m] (h : Host m) : Host (StateT (List Inquiry) m) where
  valueOf? name := h.valueOf? name
  isPresent path := do
    modify (· ++ [.presence path])
    h.isPresent path
  readText path := do
    modify (· ++ [.content path])
    h.readText path
  writeText path content := h.writeText path content
  print text := h.print text
  atDatabase url task := h.atDatabase url task

namespace Configuration.Node

def text? : Node → Option String
  | .text content => some content
  | _ => none

def sectionText? (key : String) (position : Nat) : Option Node → Option String
  | some (.table _ entries) => (entries.lookup key).bind text?
  | some (.array items) => items[position]?.bind text?
  | _ => none

def textAt? (root : Node) (name key : String) (position : Nat) : Option String :=
  match root with
  | .table _ entries => sectionText? key position (entries.lookup name)
  | _ => none

end Configuration.Node

namespace Overrides

open EntityDiagram.Configuration (Node)

theorem setting?_eq_some {node : Option Node} {value : Option String}
    (h : setting? node = some value) : value = node.bind Node.text? := by
  cases node with
  | none => exact (Option.some.inj h).symm
  | some node =>
    cases node with
    | text content => exact (Option.some.inj h).symm
    | _ => cases h

theorem eq_map_of_mapM {α β : Type} {f : α → Option β} {g : α → β}
    (hf : ∀ a b, f a = some b → b = g a) {as : List α} {bs : List β} (h : as.mapM f = some bs) :
    bs = as.map g := by
  induction as generalizing bs with
  | nil => exact (Option.some.inj h).symm
  | cons a as ih =>
    rw [List.mapM_cons] at h
    obtain ⟨b, hb, h⟩ := Option.bind_eq_some_iff.mp h
    obtain ⟨others, hothers, h⟩ := Option.bind_eq_some_iff.mp h
    obtain rfl := Option.some.inj h
    rw [List.map_cons, hf a b hb, ih hothers]

/-- Each setting of a section is what stands in its own place, whatever else is there. -/
theorem readSection?_eq_some {keys : List String} {part : Option Node}
    {values : List (Option String)} (h : readSection? keys part = some values) :
    values = keys.zipIdx.map fun key => Node.sectionText? key.1 key.2 part := by
  have hkeys : ∀ g : String → Option String, keys.map g = keys.zipIdx.map fun key => g key.1 := by
    intro g
    calc keys.map g = (keys.zipIdx.map Prod.fst).map g := by rw [List.zipIdx_map_fst]
      _ = _ := List.map_map
  cases part with
  | none => exact (Option.some.inj h).symm.trans (hkeys _)
  | some node =>
    cases node with
    | moment => exact (Option.some.inj h).symm.trans (hkeys _)
    | table origin entries =>
      exact (eq_map_of_mapM (fun _ _ => setting?_eq_some) h).trans (hkeys _)
    | array items => exact eq_map_of_mapM (fun _ _ => setting?_eq_some) h
    | _ => cases h

theorem ofRoot?_eq_some {root : Node} {o : Overrides} (h : ofRoot? root = some o) :
    o = { schema := root.textAt? "diagram" "schema" 0
          urlKey := root.textAt? "database" "url_key" 0
          envFile := root.textAt? "database" "env_file" 1
          sqlScript := root.textAt? "database" "sql_script" 2 } := by
  cases root with
  | table origin entries =>
    obtain ⟨diagram, hdiagram, h⟩ := Option.bind_eq_some_iff.mp h
    obtain ⟨database, hdatabase, h⟩ := Option.bind_eq_some_iff.mp h
    obtain rfl := readSection?_eq_some hdiagram
    obtain rfl := readSection?_eq_some hdatabase
    exact (Option.some.inj h).symm
  | _ => cases h

end Overrides

inductive FileTree.FailsToLoad (t : FileTree) (path : String) : Failure → Prop
  | missing (h : t.isPresent path = false) : FailsToLoad t path (.configurationMissing path)
  | unreadable {fault : FileFault} (hpresent : t.isPresent path = true)
      (h : t.readText path = .error fault) : FailsToLoad t path (.fileAccess fault)
  | malformed {text : String} (hread : t.readText path = .ok text)
      (h : Overrides.read? text = none) : FailsToLoad t path .configurationMalformed

namespace FileTree

variable {t : FileTree} {path : String}

theorem isPresent_of_readText {text : String} (h : t.readText path = .ok text) :
    t.isPresent path = true := by
  rw [isPresent, readText_eq_ok_iff.mp h]
  rfl

theorem overrides_eq_error_iff {failure : Failure} :
    t.overrides path = .error failure ↔ t.FailsToLoad path failure := by
  constructor
  · intro h
    unfold overrides at h
    split at h
    next hpresent =>
      split at h
      next text htext =>
        split at h
        next => cases h
        next hread => exact Except.error.inj h ▸ .malformed htext hread
      next fault hfault => exact Except.error.inj h ▸ .unreadable hpresent hfault
    next habsent => exact Except.error.inj h ▸ .missing (by simpa using habsent)
  · rintro (h | ⟨hpresent, h⟩ | ⟨htext, h⟩)
    · simp [overrides, h]
    · simp [overrides, hpresent, h]
    · simp [overrides, isPresent_of_readText htext, htext, h]

theorem overrides_eq_ok_iff {o : Overrides} :
    t.overrides path = .ok o ↔
      ∃ text, t.readText path = .ok text ∧ Overrides.read? text = some o := by
  constructor
  · intro h
    unfold overrides at h
    split at h
    next hpresent =>
      split at h
      next text htext =>
        split at h
        next o' hread => exact ⟨text, htext, Except.ok.inj h ▸ hread⟩
        next => cases h
      next => cases h
    next => cases h
  · rintro ⟨text, htext, hread⟩
    simp [overrides, isPresent_of_readText htext, htext, hread]

end FileTree

namespace Session

variable {α β : Type}

/-- Carries out an operation of a host that watches, after some inquiries: its result with all the
inquiries made then, and the session after it. -/
def look (s : Session) (asked : List Inquiry)
    (operation : StateT (List Inquiry) (StateM Session) α) : (α × List Inquiry) × Session :=
  (operation.run asked).run s

def watch (s : Session) (asked : List Inquiry)
    (operation : ExceptT Failure (StateT (List Inquiry) (StateM Session)) α) :
    (Except Failure α × List Inquiry) × Session :=
  s.look asked operation.run

def watching : Execution (StateT (List Inquiry) (StateM Session)) (List Inquiry × Session) where
  run state operation := Equiv.prodAssoc _ _ _ (state.2.look state.1 operation)
  run_pure _ _ := rfl
  run_map _ _ _ := rfl
  run_bind _ _ _ := rfl

theorem answers_watched :
    watching.Answers host.watched Prod.snd fun state asked => (state.1 ++ asked, state.2) where
  valueOf? _ _ := rfl
  isPresent _ _ := rfl
  readText _ _ := rfl
  session_note _ _ := rfl
  note_nil _ := by rw [List.append_nil]
  note_note _ _ _ := by rw [List.append_assoc]

variable (s : Session) (asked : List Inquiry)

/-- The watching changes nothing. -/
theorem watch_loadSettings (given : Option String) :
    s.watch asked (host.watched.loadSettings given) =
      (((s.attempt (host.loadSettings given)).1, asked ++ s.inquiries given), s) := by
  rw [attempt_loadSettings]
  exact (Equiv.prodAssoc _ _ _).injective (answers_watched.attempt_loadSettings (asked, s) given)

theorem configurationFile?_eq (given : Option String) :
    s.configurationFile? given =
      given.or (if s.files.isPresent "schemaviz/config.toml" then some "schemaviz/config.toml"
        else s.userFile?.filter s.files.isPresent) := by
  rw [configurationFile?, List.find?_cons, Host.projectFile]
  cases s.files.isPresent "schemaviz/config.toml" with
  | true => rfl
  | false =>
    cases s.userFile? with
    | none => rfl
    | some path => cases h : s.files.isPresent path <;> simp [Option.filter, h]

theorem isPresent_of_configurationFile? {path : String}
    (h : s.configurationFile? none = some path) : s.files.isPresent path = true := by
  rw [configurationFile?, Option.none_or] at h
  exact List.find?_some h

theorem filterMap_content?_inquiries (given : Option String) :
    (s.inquiries given).filterMap Inquiry.content? =
      ((s.configurationFile? given).filter s.files.isPresent).toList := by
  have hpresence : ∀ paths : List String,
      (paths.map Inquiry.presence).filterMap Inquiry.content? = [] := by simp [Inquiry.content?]
  rw [inquiries, List.filterMap_append, hpresence, List.nil_append]
  cases s.configurationFile? given with
  | none => rfl
  | some path =>
    rw [Option.toList_some, List.flatMap_singleton, inquiriesOn]
    cases h : s.files.isPresent path with
    | true => rw [Option.filter_some_pos h]; rfl
    | false => rw [Option.filter_some_neg (by simp [h])]; rfl

theorem configuration_eq_error_iff {given : Option String} {failure : Failure} :
    s.configuration given = .error failure ↔
      ∃ path, s.configurationFile? given = some path ∧ s.files.FailsToLoad path failure := by
  rw [configuration]
  cases s.configurationFile? given with
  | none => simp
  | some path => simp [FileTree.overrides_eq_error_iff]

theorem configuration_eq_missing_iff {given : Option String} {path : String} :
    s.configuration given = .error (.configurationMissing path) ↔
      given = some path ∧ s.files.isPresent path = false := by
  rw [configuration_eq_error_iff]
  constructor
  · rintro ⟨_, hfile, ⟨habsent⟩⟩
    cases given with
    | some explicit => exact ⟨hfile, habsent⟩
    | none =>
      rw [isPresent_of_configurationFile? s hfile] at habsent
      cases habsent
  · rintro ⟨rfl, habsent⟩
    exact ⟨path, rfl, .missing habsent⟩

theorem presence_mem_inquiries {given : Option String} {path : String}
    (h : path ∈ s.tested given) : .presence path ∈ s.inquiries given :=
  List.mem_append_left _ (List.mem_map_of_mem h)

theorem mem_inquiries_of_mem_inquiriesOn {given : Option String} {path : String}
    (hfile : s.configurationFile? given = some path) {inquiry : Inquiry}
    (h : inquiry ∈ s.inquiriesOn path) : inquiry ∈ s.inquiries given := by
  rw [inquiries, hfile]
  exact List.mem_append_right _ (by simpa using h)

section OtherTree

variable {given : Option String} {files : FileTree}
  (h : ∀ inquiry ∈ s.inquiries given, inquiry.AnsweredAlike s.files files)

include h

theorem configurationFile?_of_answeredAlike :
    { s with files }.configurationFile? given = s.configurationFile? given := by
  rw [configurationFile?_eq, configurationFile?_eq]
  cases given with
  | some path => rfl
  | none =>
    have huser : { s with files }.userFile? = s.userFile? := rfl
    have htested : ∀ path ∈ s.tested none, files.isPresent path = s.files.isPresent path :=
      fun path hpath => h (.presence path) (presence_mem_inquiries s hpath)
    have hproject : files.isPresent "schemaviz/config.toml" =
        s.files.isPresent "schemaviz/config.toml" :=
      htested Host.projectFile (by rw [tested]; split <;> simp)
    rw [hproject, huser]
    cases hthere : s.files.isPresent "schemaviz/config.toml" with
    | true => rfl
    | false =>
      cases hpath : s.userFile? with
      | none => rfl
      | some path =>
        have hsame : files.isPresent path = s.files.isPresent path :=
          htested path (by simp [tested, Host.projectFile, hthere, hpath])
        simp [Option.filter, hsame]

theorem configuration_of_answeredAlike :
    { s with files }.configuration given = s.configuration given := by
  rw [configuration, configuration, configurationFile?_of_answeredAlike s h]
  cases hfile : s.configurationFile? given with
  | none => rfl
  | some path =>
    have hon := fun inquiry hmem =>
      h inquiry (mem_inquiries_of_mem_inquiriesOn s hfile hmem)
    have hpresent : files.isPresent path = s.files.isPresent path :=
      hon (.presence path) (List.mem_cons_self ..)
    change files.overrides path = s.files.overrides path
    cases hthere : s.files.isPresent path with
    | false => simp [FileTree.overrides, hpresent, hthere]
    | true =>
      have hread : files.readText path = s.files.readText path :=
        hon (.content path) (by simp [inquiriesOn, hthere])
      simp [FileTree.overrides, hpresent, hthere, hread]

end OtherTree

theorem loadSettings_eq_error_iff {given : Option String} {failure : Failure} :
    (s.attempt (host.loadSettings given)).1 = .error failure ↔
      s.configuration given = .error failure := by
  rw [attempt_loadSettings]
  cases s.configuration given with
  | ok o => simp [Except.map]
  | error e => simp [Except.map]

theorem loadSettings_eq_ok_iff {given : Option String} {settings : Settings} :
    (s.attempt (host.loadSettings given)).1 = .ok settings ↔
      s.configurationFile? given = none ∧ settings = .default ∨
      ∃ path text root, s.configurationFile? given = some path ∧ s.files.readText path = .ok text ∧
        Configuration.read? text = some root ∧ (Overrides.ofRoot? root).isSome = true ∧
        settings = {
          schema := (root.textAt? "diagram" "schema" 0).getD "prisma/schema.prisma"
          urlKey := (root.textAt? "database" "url_key" 0).getD "DATABASE_URL"
          envFile := (root.textAt? "database" "env_file" 1).getD ".env"
          sqlScript := (root.textAt? "database" "sql_script" 2).getD
            "create_missing_tables.sql" } := by
  rw [attempt_loadSettings, configuration]
  cases hfile : s.configurationFile? given with
  | none =>
    constructor
    · intro h
      exact Or.inl ⟨rfl, (Except.ok.inj h).symm⟩
    · rintro (⟨_, rfl⟩ | ⟨_, _, _, h, _⟩)
      · rfl
      · cases h
  | some path =>
    constructor
    · intro h
      cases ho : s.files.overrides path with
      | error failure =>
        simp only [ho] at h
        cases h
      | ok o =>
        simp only [ho] at h
        obtain rfl := Except.ok.inj h
        obtain ⟨text, htext, hread⟩ := FileTree.overrides_eq_ok_iff.mp ho
        obtain ⟨root, hroot, hof⟩ := Option.bind_eq_some_iff.mp hread
        refine Or.inr ⟨path, text, root, rfl, htext, hroot, by rw [hof]; rfl, ?_⟩
        rw [Overrides.ofRoot?_eq_some hof]
        rfl
    · rintro (⟨h, _⟩ | ⟨_, text, root, h, htext, hroot, hsome, rfl⟩)
      · cases h
      · cases h
        obtain ⟨o, hof⟩ := Option.isSome_iff_exists.mp hsome
        have ho : s.files.overrides path = .ok o :=
          FileTree.overrides_eq_ok_iff.mpr
            ⟨text, htext, Option.bind_eq_some_iff.mpr ⟨root, hroot, hof⟩⟩
        simp only [ho]
        rw [Overrides.ofRoot?_eq_some hof]
        rfl

/-- The settings come from one file: the given one, or else the one of the project if something is
there, or else the one of the user if something is there. Nothing is asked about any other file but
whether it is there, and a tree that gives the same answers gives the same settings. What is wrong
with the file that counts is the failure of the loading, whatever other files there are; that a file
is missing is said of a given one alone. A setting is what the file has in the place of this
setting, or else its default, whatever stands in other places; without a file all settings are
defaults. -/
theorem settings_from_first_file (given : Option String) :
    s.configurationFile? given =
      given.or (if s.files.isPresent "schemaviz/config.toml" then some "schemaviz/config.toml"
        else s.userFile?.filter s.files.isPresent) ∧
    s.watch [] (host.watched.loadSettings given) =
      (((s.attempt (host.loadSettings given)).1, s.inquiries given), s) ∧
    (s.inquiries given).filterMap Inquiry.content? =
      ((s.configurationFile? given).filter s.files.isPresent).toList ∧
    (∀ files : FileTree,
      (∀ inquiry ∈ s.inquiries given, inquiry.AnsweredAlike s.files files) →
      ({ s with files }.attempt (host.loadSettings given)).1 =
        (s.attempt (host.loadSettings given)).1) ∧
    (∀ failure, (s.attempt (host.loadSettings given)).1 = .error failure ↔
      ∃ path, s.configurationFile? given = some path ∧ s.files.FailsToLoad path failure) ∧
    (∀ path, (s.attempt (host.loadSettings given)).1 = .error (.configurationMissing path) ↔
      given = some path ∧ s.files.isPresent path = false) ∧
    ∀ settings, (s.attempt (host.loadSettings given)).1 = .ok settings ↔
      s.configurationFile? given = none ∧ settings = .default ∨
      ∃ path text root, s.configurationFile? given = some path ∧ s.files.readText path = .ok text ∧
        Configuration.read? text = some root ∧ (Overrides.ofRoot? root).isSome = true ∧
        settings = {
          schema := (root.textAt? "diagram" "schema" 0).getD "prisma/schema.prisma"
          urlKey := (root.textAt? "database" "url_key" 0).getD "DATABASE_URL"
          envFile := (root.textAt? "database" "env_file" 1).getD ".env"
          sqlScript := (root.textAt? "database" "sql_script" 2).getD
            "create_missing_tables.sql" } := by
  refine ⟨configurationFile?_eq s given, ?_, filterMap_content?_inquiries s given,
    fun files h => ?_, fun failure => ?_, fun path => ?_, fun _ => loadSettings_eq_ok_iff s⟩
  · rw [watch_loadSettings, List.nil_append]
  · rw [attempt_loadSettings, attempt_loadSettings, configuration_of_answeredAlike s h]
  · rw [loadSettings_eq_error_iff, configuration_eq_error_iff]
  · rw [loadSettings_eq_error_iff, configuration_eq_missing_iff]

/-- A good file of the user does not stand in for a broken one of the project. -/
example :
    let s : Session := {
      files := ⟨[], [(["schemaviz"], .directory), (["schemaviz", "config.toml"], .binary),
        (["home"], .directory), (["home", "schemaviz"], .directory),
        (["home", "schemaviz", "config.toml"], .text "")]⟩
      environment := [("HOME", "/"), ("XDG_CONFIG_HOME", "/home")] }
    (s.attempt (host.loadSettings none)).1 = .error (.fileAccess .notUtf8) := by rfl

end Session

end EntityDiagram

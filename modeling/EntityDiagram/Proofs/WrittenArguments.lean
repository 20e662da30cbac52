import EntityDiagram.CommandLine
import Mathlib.Data.List.Nodup

namespace EntityDiagram

theorem lookup_eq_some_iff_mem {α β : Type} [BEq α] [LawfulBEq α] {pairs : List (α × β)}
    (h : (pairs.map Prod.fst).Nodup) {a : α} {b : β} :
    pairs.lookup a = some b ↔ (a, b) ∈ pairs := by
  induction pairs with
  | nil => simp
  | cons pair pairs ih =>
    obtain ⟨hnew, hrest⟩ := List.nodup_cons.mp h
    rw [List.lookup_cons, List.mem_cons]
    cases hkey : a == pair.1 with
    | true =>
      obtain rfl := eq_of_beq hkey
      have habsent : (pair.1, b) ∉ pairs := fun hmem =>
        hnew (List.mem_map.mpr ⟨(pair.1, b), hmem, rfl⟩)
      simp [habsent, Prod.ext_iff, eq_comm]
    | false =>
      have hne : (a, b) ≠ pair := fun e => ne_of_beq_false hkey (congrArg Prod.fst e)
      simp [hne, ih hrest]

theorem lookup_eq_of_perm {α β : Type} [BEq α] [LawfulBEq α] {pairs others : List (α × β)}
    (h : pairs.Perm others) (hnodup : (pairs.map Prod.fst).Nodup) (a : α) :
    pairs.lookup a = others.lookup a := by
  have hnodup' : (others.map Prod.fst).Nodup := (h.map Prod.fst).nodup_iff.mp hnodup
  ext b
  rw [lookup_eq_some_iff_mem hnodup, lookup_eq_some_iff_mem hnodup', h.mem_iff]

def Slot.given (slot : Slot) (value : Option String) : List (Slot × String) :=
  (value.map (slot, ·)).toList

@[simp]
theorem Slot.lookup_given (slot other : Slot) (value : Option String) :
    (slot.given value).lookup other = if other = slot then value else none := by
  cases value with
  | none => simp [given]
  | some value =>
    by_cases h : other = slot
    · simp [given, h]
    · simp [given, List.lookup_cons, beq_false_of_ne h, h]

theorem Slot.keys_given_sublist (slot : Slot) (value : Option String) :
    ((slot.given value).map Prod.fst).Sublist [slot] := by
  cases value <;> simp [given]

def optionWord (option : Slot × String) : String :=
  "--" ++ option.1.longName.getD "" ++ "=" ++ option.2

def CommandName.word : CommandName → String
  | diagram => "diagram"
  | dbSync => "db-sync"
  | seed => "seed"

namespace Command

def name : Command → CommandName
  | diagram _ _ => .diagram
  | dbSync _ _ => .dbSync
  | seed _ => .seed

def schema? : Command → Option String
  | diagram schema _ => schema
  | _ => none

theorem name_of_schema? {command : Command} {schema : String} (h : command.schema? = some schema) :
    command.name = .diagram := by
  cases command with
  | diagram schema output => rfl
  | dbSync sql envFile => cases h
  | seed envFile => cases h

def options : Command → List (Slot × String)
  | diagram _ output => Slot.output.given output
  | dbSync sql envFile => Slot.sql.given sql ++ Slot.envFile.given envFile
  | seed envFile => Slot.envFile.given envFile

end Command

/-- Every option that is given stands once before the command or behind it. -/
structure WrittenArguments where
  command : Command
  config : Option String
  logLevel : Option String
  before : List (Slot × String)
  behind : List (Slot × String)
  order : (before ++ behind).Perm
    (Slot.config.given config ++ Slot.logLevel.given logLevel ++ command.options)
  before_any_level : ∀ option ∈ before, option.1 = .config ∨ option.1 = .logLevel
  path_ne : ∀ option ∈ before ++ behind, option.1 ≠ .logLevel → option.2 ≠ ""
  schema_ne : command.schema? ≠ some ""

namespace WrittenArguments

def words (w : WrittenArguments) : List String :=
  w.before.map optionWord ++ w.command.name.word ::
    (w.behind.map optionWord ++ w.command.schema?.toList.flatMap fun schema => ["--", schema])

end WrittenArguments

theorem splitAtEquals_append {name : String} (h : '=' ∉ name.toList) (value : String) :
    splitAtEquals (name.toList ++ '=' :: value.toList) = (name, some value) := by
  have hname : ∀ c ∈ name.toList, (c != '=') = true := by
    intro c hc
    have hne : c ≠ '=' := fun e => h (e ▸ hc)
    simpa using hne
  simp [splitAtEquals, List.takeWhile_append_of_pos hname, List.dropWhile_append_of_pos hname,
    after?]

theorem mem_options_cases {level : Level} {slot : Slot} (h : slot ∈ level.options) :
    ∃ name, slot.longName = some name ∧ '=' ∉ name.toList ∧ name ≠ "" ∧
      level.ofLongName? name = some slot := by
  have hall : ∀ slot ∈ level.options, ∃ name ∈ slot.longName, '=' ∉ name.toList ∧ name ≠ "" ∧
      level.ofLongName? name = some slot := by
    cases level with
    | root => decide
    | behind command => cases command <;> decide
  exact hall slot h

theorem isCommand_eq_false {word : String} (h : word.toList.head? = some '-') :
    isCommand word = false := by
  have hne : ∀ command : String, command.toList.head? ≠ some '-' → word ≠ command := by
    rintro command hcommand rfl
    exact hcommand h
  have hnone : CommandName.ofWord? word = none := by
    unfold CommandName.ofWord?
    split
    next => exact absurd rfl (hne _ (by decide))
    next => exact absurd rfl (hne _ (by decide))
    next => exact absurd rfl (hne _ (by decide))
    next => rfl
  simp [isCommand, hnone, hne helpCommand (by decide)]

theorem toList_optionWord {slot : Slot} {name : String} (h : slot.longName = some name)
    (value : String) :
    (optionWord (slot, value)).toList = '-' :: '-' :: (name.toList ++ '=' :: value.toList) := by
  simp [optionWord, h]

namespace Level

variable {level : Level} {given : List (Slot × String)}

theorem readWord_optionWord {option : Slot × String} (hslot : option.1 ∈ level.options)
    (hadmits : option.1.admits option.2 = true) (hnew : given.lookup option.1 = none) :
    level.readWord { given } (optionWord option) = .ok { given := option :: given } := by
  obtain ⟨name, hname, hequals, hne, hfind⟩ := mem_options_cases hslot
  have hword := toList_optionWord hname option.2
  obtain ⟨c, cs, hcs⟩ : ∃ c cs, name.toList = c :: cs :=
    List.exists_cons_of_ne_nil fun e => hne (String.toList_eq_nil_iff.mp e)
  have hlong : level.readWord { given } (optionWord option) =
      level.readLong { given } (name.toList ++ '=' :: option.2.toList) := by
    rw [readWord, hword, hcs]
    rfl
  have hrecord : level.readLong { given } (name.toList ++ '=' :: option.2.toList) =
      Progress.record { given } option.1 option.2 := by
    simp only [readLong, splitAtEquals_append hequals, hfind]
    rfl
  rw [hlong, hrecord]
  simp [Progress.record, Progress.value?, hnew, hadmits]

theorem foldlM_optionWord {options : List (Slot × String)}
    (hslots : ∀ option ∈ options, option.1 ∈ level.options)
    (hadmits : ∀ option ∈ options, option.1.admits option.2 = true)
    (hnodup : (options.map Prod.fst).Nodup)
    (hnew : ∀ option ∈ options, given.lookup option.1 = none) :
    (options.map optionWord).foldlM level.readWord { given } =
      .ok { given := options.reverse ++ given } := by
  induction options generalizing given with
  | nil => rfl
  | cons option options ih =>
    obtain ⟨hfresh, hrest⟩ := List.nodup_cons.mp hnodup
    have hnew' : ∀ o ∈ options, (option :: given).lookup o.1 = none := by
      intro o ho
      have hne : o.1 ≠ option.1 := fun e => hfresh (e ▸ List.mem_map_of_mem ho)
      rw [List.lookup_cons, beq_false_of_ne hne]
      exact hnew o (List.mem_cons_of_mem _ ho)
    rw [List.map_cons, List.foldlM_cons, readWord_optionWord (hslots option (List.mem_cons_self ..))
      (hadmits option (List.mem_cons_self ..)) (hnew option (List.mem_cons_self ..))]
    change (options.map optionWord).foldlM level.readWord { given := option :: given } = _
    rw [ih (fun o ho => hslots o (List.mem_cons_of_mem _ ho))
      (fun o ho => hadmits o (List.mem_cons_of_mem _ ho)) hrest hnew']
    simp

theorem readWords_schema {schema : String} (hnew : given.lookup .schema = none)
    (hne : schema ≠ "") :
    (["--", schema].foldlM (behind .diagram).readWord { given } >>= Progress.settle) =
      .ok { given := (.schema, schema) :: given, optionsEnded := true } := by
  have hmentions : ({ given, optionsEnded := true } : Progress).mentions .schema = false := by
    simp [Progress.mentions, Progress.value?, hnew]
  have hschema : (behind .diagram).readWord { given, optionsEnded := true } schema =
      .ok { given, waiting := some (.schema, some schema), optionsEnded := true } := by
    simp only [readWord, readPlain, ↓reduceIte, positional, hmentions]
    rfl
  have hrecord : Progress.record { given, optionsEnded := true } .schema schema =
      .ok { given := (.schema, schema) :: given, optionsEnded := true } := by
    simp [Progress.record, Progress.value?, hnew, Slot.admits, hne]
  change ((behind .diagram).readWord { given, optionsEnded := true } schema >>= pure) >>=
    Progress.settle = _
  rw [bind_pure, hschema]
  exact hrecord

end Level

theorem readFrom_append {words : List String} (h : ∀ word ∈ words, isCommand word = false)
    (p : Progress) (rest : List String) :
    readFrom p (words ++ rest) = words.foldlM Level.root.readWord p >>= (readFrom · rest) := by
  induction words generalizing p with
  | nil => rfl
  | cons word words ih =>
    have hword : namesCommand p word = false := by
      simp [namesCommand, h word (List.mem_cons_self ..)]
    rw [List.cons_append, readFrom, hword, List.foldlM_cons, bind_assoc]
    exact bind_congr fun q => ih (fun w hw => h w (List.mem_cons_of_mem _ hw)) q

theorem readFrom_command (given : List (Slot × String)) (command : CommandName)
    (words : List String) :
    readFrom { given } (command.word :: words) =
      (assemble { given } · command) <$> (Level.behind command).readWords words := by
  cases command <;> rfl

namespace WrittenArguments

variable (w : WrittenArguments)

def options : List (Slot × String) :=
  Slot.config.given w.config ++ Slot.logLevel.given w.logLevel ++ w.command.options

theorem keys_options_sublist :
    (w.options.map Prod.fst).Sublist (Level.behind w.command.name).options := by
  have hglobal := (Slot.config.keys_given_sublist w.config).append
    (Slot.logLevel.keys_given_sublist w.logLevel)
  rw [options, List.map_append, List.map_append]
  cases h : w.command with
  | diagram schema output => exact hglobal.append (Slot.output.keys_given_sublist output)
  | dbSync sql envFile =>
    rw [Command.options, List.map_append]
    exact hglobal.append
      ((Slot.sql.keys_given_sublist sql).append (Slot.envFile.keys_given_sublist envFile))
  | seed envFile => exact hglobal.append (Slot.envFile.keys_given_sublist envFile)

theorem nodup_keys : ((w.before ++ w.behind).map Prod.fst).Nodup := by
  have hlevel : ∀ command : CommandName, (Level.behind command).options.Nodup := by
    intro command
    cases command <;> decide
  exact (w.order.map Prod.fst).nodup_iff.mpr (w.keys_options_sublist.nodup (hlevel _))

theorem slot_mem_options {option : Slot × String} (h : option ∈ w.before ++ w.behind) :
    option.1 ∈ (Level.behind w.command.name).options :=
  w.keys_options_sublist.subset (List.mem_map_of_mem (w.order.subset h))

theorem admits {option : Slot × String} (h : option ∈ w.before ++ w.behind) :
    option.1.admits option.2 = true := by
  by_cases hslot : option.1 = .logLevel
  · simp [Slot.admits, hslot]
  · simp [Slot.admits, w.path_ne option h hslot]

theorem slot_mem_root {option : Slot × String} (h : option ∈ w.before) :
    option.1 ∈ Level.root.options := by
  rcases w.before_any_level option h with hslot | hslot <;> rw [hslot] <;> decide

def readBefore : Progress := { given := w.before.reverse }

def readBehind : Progress where
  given := Slot.schema.given w.command.schema? ++ w.behind.reverse
  optionsEnded := w.command.schema?.isSome

theorem foldlM_before :
    (w.before.map optionWord).foldlM Level.root.readWord {} = .ok w.readBefore := by
  have hnodup : (w.before.map Prod.fst).Nodup :=
    ((List.sublist_append_left ..).map Prod.fst).nodup w.nodup_keys
  rw [Level.foldlM_optionWord (fun _ => w.slot_mem_root)
    (fun _ h => w.admits (List.mem_append_left _ h)) hnodup (fun _ _ => rfl), List.append_nil]
  rfl

theorem readWords_behind :
    (Level.behind w.command.name).readWords
      (w.behind.map optionWord ++
        w.command.schema?.toList.flatMap fun schema => ["--", schema]) = .ok w.readBehind := by
  have hnodup : (w.behind.map Prod.fst).Nodup :=
    ((List.sublist_append_right ..).map Prod.fst).nodup w.nodup_keys
  have hoptions : (w.behind.map optionWord).foldlM (Level.behind w.command.name).readWord {} =
      .ok { given := w.behind.reverse } := by
    rw [Level.foldlM_optionWord (fun _ h => w.slot_mem_options (List.mem_append_right _ h))
      (fun _ h => w.admits (List.mem_append_right _ h)) hnodup (fun _ _ => rfl), List.append_nil]
  rw [Level.readWords, List.foldlM_append, hoptions]
  cases hschema : w.command.schema? with
  | none => simp only [readBehind, hschema]; rfl
  | some schema =>
    have hnew : w.behind.reverse.lookup .schema = none := by
      have hoptional : Slot.schema ∉ (Level.behind w.command.name).options := by
        cases w.command.name <;> decide
      refine List.lookup_eq_none_iff.mpr fun option hmem => ?_
      have hslot := w.slot_mem_options (List.mem_append_right _ (List.mem_reverse.mp hmem))
      simpa using fun e : Slot.schema = option.1 => hoptional (e ▸ hslot)
    have hne : schema ≠ "" := fun e => w.schema_ne (by rw [hschema, e])
    have hread := Level.readWords_schema hnew hne
    rw [← Command.name_of_schema? hschema] at hread
    simp only [readBehind, hschema]
    exact hread

theorem value?_eq (slot : Slot) :
    (w.readBehind.value? slot).or (w.readBefore.value? slot) =
      ((Slot.schema.given w.command.schema?).lookup slot).or (w.options.lookup slot) := by
  have hperm : (w.behind.reverse ++ w.before.reverse).Perm w.options := by
    rw [← List.reverse_append]
    exact (List.reverse_perm _).trans w.order
  have hnodup : ((w.behind.reverse ++ w.before.reverse).map Prod.fst).Nodup :=
    (hperm.map Prod.fst).nodup_iff.mpr ((w.order.map Prod.fst).nodup_iff.mp w.nodup_keys)
  rw [← lookup_eq_of_perm hperm hnodup, List.lookup_append, ← Option.or_assoc,
    ← List.lookup_append]
  rfl

theorem value?_readBehind (slot : Slot) (hslot : slot ∉ Level.root.options) :
    w.readBehind.value? slot =
      ((Slot.schema.given w.command.schema?).lookup slot).or (w.command.options.lookup slot) := by
  have hbefore : w.readBefore.value? slot = none := by
    refine List.lookup_eq_none_iff.mpr fun option hmem => ?_
    have hroot := w.slot_mem_root (List.mem_reverse.mp hmem)
    simpa using fun e : slot = option.1 => hslot (e ▸ hroot)
  have hconfig : slot ≠ .config := fun e => hslot (by rw [e]; decide)
  have hlogLevel : slot ≠ .logLevel := fun e => hslot (by rw [e]; decide)
  have hoptions : w.options.lookup slot = w.command.options.lookup slot := by
    simp [options, List.lookup_append, hconfig, hlogLevel]
  rw [← hoptions, ← w.value?_eq, hbefore, Option.or_none]

theorem lookup_options_any_level :
    w.options.lookup .config = w.config ∧ w.options.lookup .logLevel = w.logLevel := by
  cases h : w.command <;>
    simp [options, Command.options, h, List.lookup_append]

theorem assemble_eq :
    assemble w.readBefore w.readBehind w.command.name =
      ⟨w.config, w.logLevel.getD defaultLogLevel, w.command⟩ := by
  have hconfig : (w.readBehind.value? .config <|> w.readBefore.value? .config) = w.config := by
    rw [Option.orElse_eq_orElse, Option.orElse_eq_or, w.value?_eq, Slot.lookup_given,
      w.lookup_options_any_level.1]
    rfl
  have hlogLevel :
      (w.readBehind.value? .logLevel <|> w.readBefore.value? .logLevel) = w.logLevel := by
    rw [Option.orElse_eq_orElse, Option.orElse_eq_or, w.value?_eq, Slot.lookup_given,
      w.lookup_options_any_level.2]
    rfl
  cases h : w.command with
  | diagram schema output =>
    have hschema : w.readBehind.value? .schema = schema := by
      simp [w.value?_readBehind .schema (by decide), h, Command.schema?, Command.options]
    have houtput : w.readBehind.value? .output = output := by
      simp [w.value?_readBehind .output (by decide), h, Command.schema?, Command.options]
    simp only [assemble, Command.name, hconfig, hlogLevel, hschema, houtput]
  | dbSync sql envFile =>
    have hsql : w.readBehind.value? .sql = sql := by
      simp [w.value?_readBehind .sql (by decide), h, Command.schema?, Command.options,
        List.lookup_append]
    have henvFile : w.readBehind.value? .envFile = envFile := by
      simp [w.value?_readBehind .envFile (by decide), h, Command.schema?, Command.options,
        List.lookup_append]
    simp only [assemble, Command.name, hconfig, hlogLevel, hsql, henvFile]
  | seed envFile =>
    have henvFile : w.readBehind.value? .envFile = envFile := by
      simp [w.value?_readBehind .envFile (by decide), h, Command.schema?, Command.options]
    simp only [assemble, Command.name, hconfig, hlogLevel, henvFile]

/-- Neither the order of the options nor the side on which those of all levels stand has an
influence on what is read, and values that look like options or commands are read like others. -/
theorem words_read_back :
    Arguments.ofWords w.words =
      .ok ⟨w.config, w.logLevel.getD defaultLogLevel, w.command⟩ := by
  have hbefore : ∀ word ∈ w.before.map optionWord, isCommand word = false := by
    simp only [List.mem_map]
    rintro _ ⟨option, hmem, rfl⟩
    obtain ⟨name, hname, -⟩ := mem_options_cases (w.slot_mem_root hmem)
    exact isCommand_eq_false (by rw [toList_optionWord hname]; rfl)
  have hcommand := readFrom_command w.before.reverse w.command.name
    (w.behind.map optionWord ++ w.command.schema?.toList.flatMap fun schema => ["--", schema])
  rw [w.readWords_behind] at hcommand
  rw [words, Arguments.ofWords, readFrom_append hbefore, w.foldlM_before]
  exact hcommand.trans (congrArg Except.ok w.assemble_eq)

end WrittenArguments

namespace Puzzle

def written : WrittenArguments where
  command := .diagram (some "-o") (some "a=b")
  config := some "seed"
  logLevel := some "--help"
  before := [(.logLevel, "--help")]
  behind := [(.output, "a=b"), (.config, "seed")]
  order := by decide
  before_any_level := by decide
  path_ne := by decide
  schema_ne := by decide

theorem misleading_values_read_back :
    written.words =
      ["--log-level=--help", "diagram", "--output=a=b", "--config=seed", "--", "-o"] ∧
    Arguments.ofWords written.words =
      .ok ⟨some "seed", "--help", .diagram (some "-o") (some "a=b")⟩ :=
  ⟨by decide, written.words_read_back⟩

end Puzzle

end EntityDiagram

import EntityDiagram.Proofs.SecretPreview
import EntityDiagram.Proofs.SessionRun
import Mathlib.Data.List.DropRight

namespace EntityDiagram

namespace Preview

/-- What can be seen of a secret: the first third of a short one, both ends of a long one. -/
def visible (secret : String) : List Char :=
  if secret.length ≤ 25 then secret.toList.take (secret.length / 3)
  else secret.toList.take 15 ++ secret.toList.rtake 10

structure SeenAlike (v w : String) : Prop where
  short_iff : v.length ≤ 25 ↔ w.length ≤ 25
  visible_eq : visible v = visible w

theorem text_of_short {secret : String} (h : secret.length ≤ 25) :
    (ofSecret secret).text.toList = visible secret ++ "...".toList := by
  have hshort : secret.toList.length ≤ headSize + tailSize := by rwa [String.length_toList]
  simp only [ofSecret, if_pos hshort, text, visible, if_pos h]
  simp [String.length_toList]

theorem text_of_long {secret : String} (h : ¬ secret.length ≤ 25) :
    (ofSecret secret).text.toList =
      secret.toList.take 15 ++ ("...".toList ++ secret.toList.rtake 10) := by
  have hlong : ¬ secret.toList.length ≤ headSize + tailSize := by rwa [String.length_toList]
  simp only [ofSecret, if_neg hlong, text, List.rtake]
  simp [headSize, tailSize]

theorem length_text_le_iff (secret : String) :
    (ofSecret secret).text.toList.length ≤ 11 ↔ secret.length ≤ 25 := by
  have hdots : "...".toList.length = 3 := rfl
  by_cases h : secret.length ≤ 25
  · refine iff_of_true ?_ h
    rw [text_of_short h, visible, if_pos h, List.length_append, List.length_take]
    omega
  · refine iff_of_false ?_ h
    rw [text_of_long h, List.length_append, List.length_append, List.length_take, List.rtake,
      List.length_drop, String.length_toList]
    omega

theorem short_iff_of_text_eq {v w : String} (h : (ofSecret v).text = (ofSecret w).text) :
    v.length ≤ 25 ↔ w.length ≤ 25 := by
  rw [← length_text_le_iff v, h, length_text_le_iff]

/-- Both texts and both visible parts come apart behind the fifteenth character. -/
theorem text_eq_iff_of_long {v w : String} (hv : ¬ v.length ≤ 25) (hw : ¬ w.length ≤ 25) :
    (ofSecret v).text = (ofSecret w).text ↔ visible v = visible w := by
  have hheads : (v.toList.take 15).length = (w.toList.take 15).length := by
    rw [List.length_take, List.length_take, String.length_toList, String.length_toList]
    omega
  rw [← String.toList_inj, text_of_long hv, text_of_long hw, visible, visible, if_neg hv, if_neg hw]
  constructor
  · intro h
    obtain ⟨hhead, htail⟩ := List.append_inj h hheads
    rw [hhead, List.append_cancel_left htail]
  · intro h
    obtain ⟨hhead, htail⟩ := List.append_inj h hheads
    rw [hhead, htail]

theorem text_eq_iff {v w : String} : (ofSecret v).text = (ofSecret w).text ↔ SeenAlike v w := by
  by_cases hside : v.length ≤ 25 ↔ w.length ≤ 25
  · have hseen : SeenAlike v w ↔ visible v = visible w :=
      ⟨SeenAlike.visible_eq, fun h => ⟨hside, h⟩⟩
    rw [hseen]
    by_cases hv : v.length ≤ 25
    · rw [← String.toList_inj, text_of_short hv, text_of_short (hside.mp hv),
        List.append_left_inj]
    · exact text_eq_iff_of_long hv (fun hw => hv (hside.mpr hw))
  · exact iff_of_false (fun h => hside (short_iff_of_text_eq h)) fun h => hside h.short_iff

end Preview

namespace Resolver

def answer (r : Resolver) (value : Option String) (file : EnvFileState) : Except Failure String :=
  match (r.resolve value file).url with
  | some url => .ok url
  | none => .error (.connectionStringMissing r.key r.envFile)

def log (r : Resolver) (value : Option String) (file : EnvFileState) : List LogRecord :=
  (r.resolve value file).events.map ResolutionEvent.record

variable {r : Resolver} {value : Option String} {file : EnvFileState}

theorem answer_eq (r : Resolver) (value : Option String) (file : EnvFileState) :
    r.answer value file =
      match r.found? value file with
      | some raw => .ok (sanitize raw)
      | none => .error (.connectionStringMissing r.key r.envFile) := by
  rw [answer, url_resolve]
  cases r.found? value file with
  | some raw => rfl
  | none => rfl

theorem attempt_connectionString_eq (s : Session) (r : Resolver) :
    s.attempt (Session.host.connectionString r) =
      (r.answer (s.valueOf? r.key) (s.files.envFileState r.envFile), s) := by
  rw [Session.attempt_connectionString, answer_eq, Session.connection?]
  cases r.found? (s.valueOf? r.key) (s.files.envFileState r.envFile) with
  | some raw => rfl
  | none => rfl

theorem found?_eq_none (hvalue : value.getD "" = "") (hfile : (r.fileValue? file).getD "" = "") :
    r.found? value file = none := by
  rw [found?, nonEmpty?_eq_none_iff.mpr hvalue, nonEmpty?_eq_none_iff.mpr hfile]
  rfl

theorem log_of_found? {raw : String} (h : r.found? value file = some raw) :
    r.log value file =
      (r.earlierEvents (nonEmpty? value).isSome).map ResolutionEvent.record ++
        [⟨.debug, "Connection string found (raw)", [("url", (Preview.ofSecret raw).text)]⟩,
          ⟨.info, "Connection string resolved",
            [("url", (Preview.ofSecret (sanitize raw)).text)]⟩] := by
  rw [log, resolve_eq_accept h, accept, List.map_append]
  rfl

theorem nonEmpty?_of_ne {raw : String} (h : raw ≠ "") : nonEmpty? (some raw) = some raw := by
  simp [nonEmpty?, h]

theorem resolve_of_value {raw : String} (h : raw ≠ "") (r : Resolver) (file : EnvFileState) :
    r.resolve (some raw) file = accept [.foundInEnvironment r.key] raw := by
  rw [resolve, nonEmpty?_of_ne h]

theorem resolve_readable_eq {value' : Option String} {content content' : String}
    (hvalue : nonEmpty? value = none) (hvalue' : nonEmpty? value' = none)
    (h : EnvFile.value? content r.key = EnvFile.value? content' r.key) :
    r.resolve value (.readable content) = r.resolve value' (.readable content') := by
  have hfile : r.fileValue? (.readable content) = r.fileValue? (.readable content') := h
  rw [resolve, resolve, hvalue, hvalue', hfile]
  rfl

theorem log_eq_iff {value' : Option String} {file' : EnvFileState} {v w : String}
    (hv : r.found? value file = some v) (hw : r.found? value' file' = some w)
    (hplace : (nonEmpty? value).isSome = (nonEmpty? value').isSome) :
    r.log value file = r.log value' file' ↔
      Preview.SeenAlike v w ∧ Preview.SeenAlike (sanitize v) (sanitize w) := by
  rw [log_of_found? hv, log_of_found? hw, hplace, List.append_right_inj, ← Preview.text_eq_iff,
    ← Preview.text_eq_iff]
  simp

/-- A value in the environment is answered and logged without regard to the env file. Without one, an
env file counts by the value of the first line that sets the key, and where there is no such value,
the key and the path of the env file are what the failure names. Two values that are found in the
same place are logged alike exactly if the same can be seen of them, with their blanks and without. -/
theorem log_tells_visible_parts (r : Resolver) :
    (∀ raw, raw ≠ "" → ∀ (envFile : String) (file file' : EnvFileState),
      r.answer (some raw) file = .ok (String.ofList (raw.toList.filter (! isBlank ·))) ∧
      { r with envFile }.answer (some raw) file' = r.answer (some raw) file ∧
      { r with envFile }.log (some raw) file' = r.log (some raw) file) ∧
    (∀ value, value.getD "" = "" →
      (∀ value' content content', value'.getD "" = "" →
        EnvFile.value? content r.key = EnvFile.value? content' r.key →
        r.answer value (.readable content) = r.answer value' (.readable content') ∧
        r.log value (.readable content) = r.log value' (.readable content')) ∧
      ∀ file, (∀ content, file = .readable content → (EnvFile.value? content r.key).getD "" = "") →
        r.answer value file = .error (.connectionStringMissing r.key r.envFile)) ∧
    (∀ value value' file file' v w, r.found? value file = some v → r.found? value' file' = some w →
      (nonEmpty? value).isSome = (nonEmpty? value').isSome →
      (r.log value file = r.log value' file' ↔
        Preview.SeenAlike v w ∧ Preview.SeenAlike (sanitize v) (sanitize w))) ∧
    ∀ s : Session, s.attempt (Session.host.connectionString r) =
      (r.answer (s.valueOf? r.key) (s.files.envFileState r.envFile), s) := by
  refine ⟨fun raw hraw envFile file file' => ?_, fun value hvalue => ⟨?_, fun file hfile => ?_⟩,
    fun value value' file file' v w hv hw hplace => log_eq_iff hv hw hplace, fun s => ?_⟩
  · have hthis := resolve_of_value hraw r file
    have hother := resolve_of_value hraw { r with envFile } file'
    rw [answer, answer, log, log, hthis, hother]
    exact ⟨rfl, rfl, rfl⟩
  · intro value' content content' hvalue' hsame
    have heq := resolve_readable_eq (nonEmpty?_eq_none_iff.mpr hvalue)
      (nonEmpty?_eq_none_iff.mpr hvalue') hsame
    rw [answer, answer, log, log, heq]
    exact ⟨rfl, rfl⟩
  · have hempty : (r.fileValue? file).getD "" = "" := by
      cases file with
      | absent => rfl
      | unreadable fault => rfl
      | readable content => exact hfile content rfl
    rw [answer_eq, found?_eq_none hvalue hempty]
  · exact attempt_connectionString_eq s r

end Resolver

namespace Deployment

/-- Two secrets that the log does not tell apart, one of them with a blank and beside an env file. -/
theorem secrets_logged_alike :
    resolver.found? (some "hunter 2") quoted = some "hunter 2" ∧
    resolver.found? (some "huddle") .absent = some "huddle" ∧
    resolver.log (some "hunter 2") quoted = resolver.log (some "huddle") .absent := by
  have hv : resolver.found? (some "hunter 2") quoted = some "hunter 2" := by decide
  have hw : resolver.found? (some "huddle") .absent = some "huddle" := by decide
  have hseen : Preview.SeenAlike "hunter 2" "huddle" := ⟨by decide, by decide⟩
  have hclean : Preview.SeenAlike (Resolver.sanitize "hunter 2") (Resolver.sanitize "huddle") :=
    ⟨by decide, by decide⟩
  exact ⟨hv, hw,
    ((Resolver.log_tells_visible_parts resolver).2.2.1 _ _ _ _ _ _ hv hw rfl).mpr ⟨hseen, hclean⟩⟩

end Deployment

end EntityDiagram

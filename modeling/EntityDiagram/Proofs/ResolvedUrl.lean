import EntityDiagram.Resolver

namespace EntityDiagram

def ResolutionEvent.preview? : ResolutionEvent → Option Preview
  | foundRaw p => some p
  | resolved p => some p
  | _ => none

namespace Resolver

/-- The value that counts: that of the environment or, if there is none, that of the env file. -/
def found? (r : Resolver) (value : Option String) (file : EnvFileState) : Option String :=
  nonEmpty? value <|> nonEmpty? (r.fileValue? file)

theorem nonEmpty?_eq_none_iff {value : Option String} :
    nonEmpty? value = none ↔ value.getD "" = "" := by
  cases value with
  | none => simp [nonEmpty?]
  | some raw => simp [nonEmpty?]

theorem toList_sanitize (raw : String) :
    (sanitize raw).toList = raw.toList.filter (! isBlank ·) :=
  String.toList_ofList

theorem isBlank_of_mem_sanitize {raw : String} {c : Char} (h : c ∈ (sanitize raw).toList) :
    isBlank c = false := by
  rw [toList_sanitize] at h
  simpa using (List.mem_filter.mp h).2

theorem sanitize_ne_empty_iff {raw : String} :
    sanitize raw ≠ "" ↔ ∃ c ∈ raw.toList, isBlank c = false := by
  rw [Ne, ← String.toList_eq_nil_iff, toList_sanitize, List.filter_eq_nil_iff]
  simp

variable {r : Resolver} {value : Option String} {file : EnvFileState}

def earlierEvents (r : Resolver) (inEnvironment : Bool) : List ResolutionEvent :=
  if inEnvironment then [.foundInEnvironment r.key] else [.tryingEnvFile r.key r.envFile]

theorem preview?_earlierEvents (r : Resolver) (inEnvironment : Bool) :
    ∀ e ∈ r.earlierEvents inEnvironment, e.preview? = none := by
  intro e he
  cases inEnvironment with
  | true => rw [List.mem_singleton.mp he]; rfl
  | false => rw [List.mem_singleton.mp he]; rfl

theorem resolve_eq_accept {raw : String} (h : r.found? value file = some raw) :
    r.resolve value file = accept (r.earlierEvents (nonEmpty? value).isSome) raw := by
  cases hv : nonEmpty? value with
  | some text =>
    obtain rfl : text = raw := by simpa [found?, hv] using h
    simp [resolve, hv, earlierEvents]
  | none =>
    have hf : nonEmpty? (r.fileValue? file) = some raw := by simpa [found?, hv] using h
    cases file with
    | absent => simp [fileValue?, nonEmpty?] at hf
    | unreadable fault => simp [fileValue?, nonEmpty?] at hf
    | readable content => simp [resolve, hv, hf, earlierEvents, fileEvents]

/-- What is found is accepted, after reports that show nothing of it. -/
theorem resolve_of_found? {raw : String} (h : r.found? value file = some raw) :
    ∃ earlier, (∀ e ∈ earlier, e.preview? = none) ∧ r.resolve value file = accept earlier raw :=
  ⟨_, r.preview?_earlierEvents _, resolve_eq_accept h⟩

theorem url_resolve (r : Resolver) (value : Option String) (file : EnvFileState) :
    (r.resolve value file).url = (r.found? value file).map sanitize := by
  cases h : r.found? value file with
  | some raw =>
    obtain ⟨earlier, _, hr⟩ := resolve_of_found? h
    rw [hr]
    rfl
  | none =>
    obtain ⟨hv, hf⟩ : nonEmpty? value = none ∧ nonEmpty? (r.fileValue? file) = none := by
      simpa [found?] using h
    simp [resolve, hv, hf]

/-- A resolved connection string never holds a blank, and it is empty exactly if the value found for
it is made of blanks. No value is found exactly if both places hold none or an empty one. -/
theorem resolved_url_without_blanks (r : Resolver) (value : Option String) (file : EnvFileState) :
    (∀ url, (r.resolve value file).url = some url →
      (∀ c ∈ url.toList, isBlank c = false) ∧
      ∃ raw, r.found? value file = some raw ∧
        (url ≠ "" ↔ ∃ c ∈ raw.toList, isBlank c = false)) ∧
    ((r.resolve value file).url = none ↔
      value.getD "" = "" ∧ (r.fileValue? file).getD "" = "") := by
  rw [url_resolve]
  constructor
  · intro url hurl
    obtain ⟨raw, hraw, rfl⟩ := Option.map_eq_some_iff.mp hurl
    exact ⟨fun c => isBlank_of_mem_sanitize, raw, hraw, sanitize_ne_empty_iff⟩
  · rw [Option.map_eq_none_iff, ← nonEmpty?_eq_none_iff, ← nonEmpty?_eq_none_iff]
    simp [found?]

end Resolver

namespace Deployment

def resolver : Resolver := ⟨"DATABASE_URL", ".env"⟩

def quoted : EnvFileState := .readable "PORT=3000\n DATABASE_URL=' postgres://h /db'\n"

theorem quoted_url_without_blanks :
    (resolver.resolve (some "") quoted).url = some "postgres://h/db" ∧
    (∀ c ∈ "postgres://h/db".toList, isBlank c = false) := by
  have hurl : (resolver.resolve (some "") quoted).url = some "postgres://h/db" := by decide
  exact ⟨hurl, ((Resolver.resolved_url_without_blanks resolver (some "") quoted).1 _ hurl).1⟩

theorem blank_value_resolved_to_empty :
    (resolver.resolve (some " ") .absent).url = some "" ∧
    (resolver.resolve none (.readable "DATABASE_URL=\" \"")).url = some "" := by
  decide

end Deployment

end EntityDiagram

import EntityDiagram.EnvFile
import EntityDiagram.Proofs.KeptLines

namespace EntityDiagram.EnvFile

def Sets (key line : String) : Prop := key.toList ++ ['='] <+: line.toList

instance (key line : String) : Decidable (Sets key line) := inferInstanceAs (Decidable (_ <+: _))

def IsQuote (c : Char) : Prop := c = '"' ∨ c = '\''

/-- The ways to write a value: between quotes, or as it is, if it could not be taken for a quoted one
and no blank at its end is lost. -/
inductive Writes (v : List Char) : List Char → Prop
  | quoted {quote : Char} : IsQuote quote → Writes v (quote :: v ++ [quote])
  | plain : (∀ quote inner, IsQuote quote → v ≠ quote :: inner ++ [quote]) →
      (∀ c, v.getLast? = some c → isBlank c = false) → Writes v v

structure Setting (key : String) where
  before : List String
  leading : String
  text : String
  trailing : String
  after : String
  before_no_feed : ∀ line ∈ before, '\n' ∉ line.toList
  before_others : ∀ line ∈ before, ¬ Sets key (trimmed line)
  leading_blank : ∀ c ∈ leading.toList, isBlank c = true ∧ c ≠ '\n'
  text_no_feed : '\n' ∉ text.toList
  trailing_blank : ∀ c ∈ trailing.toList, isBlank c = true ∧ c ≠ '\n'
  after_line : after = "" ∨ ∃ rest, after = "\n" ++ rest

namespace Setting

variable {key : String}

def line (x : Setting key) : String := x.leading ++ (key ++ "=" ++ x.text) ++ x.trailing

def content (x : Setting key) : String := unlines x.before ++ (x.line ++ x.after)

end Setting

theorem isBlank_eq_false_of_isQuote {c : Char} (h : IsQuote c) : isBlank c = false := by
  rcases h with rfl | rfl
  · decide
  · decide

theorem unquoteWith?_eq_some_iff {quote : Char} {value v : List Char} :
    unquoteWith? quote value = some v ↔ value = quote :: v ++ [quote] := by
  cases value with
  | nil => simp [unquoteWith?]
  | cons first rest =>
    simp only [unquoteWith?, Option.ite_none_right_eq_some, Option.some.injEq, List.cons_append,
      List.cons.injEq, List.getLast?_eq_some_iff]
    constructor
    · rintro ⟨⟨rfl, inner, rfl⟩, hv⟩
      exact ⟨rfl, by rw [← hv, List.dropLast_concat]⟩
    · rintro ⟨rfl, rfl⟩
      exact ⟨⟨rfl, v, rfl⟩, List.dropLast_concat⟩

theorem unquote_quoted {quote : Char} (h : IsQuote quote) (v : List Char) :
    unquote (quote :: v ++ [quote]) = v := by
  rw [unquote]
  rcases h with rfl | rfl
  · rw [unquoteWith?_eq_some_iff.mpr rfl]
    rfl
  · have hnone : unquoteWith? '"' ('\'' :: v ++ ['\'']) = none := by
      simp [unquoteWith?]
    rw [hnone, unquoteWith?_eq_some_iff.mpr rfl]
    rfl

theorem unquote_plain {v : List Char}
    (h : ∀ quote inner, IsQuote quote → v ≠ quote :: inner ++ [quote]) : unquote v = v := by
  have hnone : ∀ quote, IsQuote quote → unquoteWith? quote v = none := by
    intro quote hquote
    rw [Option.eq_none_iff_forall_ne_some]
    intro inner hinner
    exact h quote inner hquote (unquoteWith?_eq_some_iff.mp hinner)
  rw [unquote, hnone '"' (Or.inl rfl), hnone '\'' (Or.inr rfl)]
  rfl

/-- A text that no blank follows is written for one value, which is what unquoting makes of it. -/
theorem writes_iff {v text : List Char}
    (hlast : ∀ c, text.getLast? = some c → isBlank c = false) :
    Writes v text ↔ unquote text = v := by
  constructor
  · rintro (hquote | ⟨hplain, _⟩)
    · exact unquote_quoted hquote v
    · exact unquote_plain hplain
  · rintro rfl
    by_cases hquoted : ∃ quote inner, IsQuote quote ∧ text = quote :: inner ++ [quote]
    · obtain ⟨quote, inner, hquote, rfl⟩ := hquoted
      rw [unquote_quoted hquote]
      exact .quoted hquote
    · have hplain : ∀ quote inner, IsQuote quote → text ≠ quote :: inner ++ [quote] :=
        fun quote inner hquote he => hquoted ⟨quote, inner, hquote, he⟩
      rw [unquote_plain hplain]
      exact .plain hplain hlast

theorem Writes.isBlank_of_getLast? {v text : List Char} (h : Writes v text) {c : Char}
    (hc : text.getLast? = some c) : isBlank c = false := by
  cases h with
  | @quoted quote hquote =>
    rw [List.getLast?_concat] at hc
    exact isBlank_eq_false_of_isQuote (Option.some.inj hc ▸ hquote)
  | plain _ hlast => exact hlast c hc

theorem sets_iff {key line : String} : Sets key line ↔ ∃ text, line = key ++ "=" ++ text := by
  constructor
  · rintro ⟨text, htext⟩
    refine ⟨String.ofList text, String.toList_injective ?_⟩
    rw [← htext]
    simp
  · rintro ⟨text, rfl⟩
    exact ⟨text.toList, by simp⟩

theorem valueOn?_setting (key text : String) :
    valueOn? key (key ++ "=" ++ text) = some (String.ofList (unquote text.toList)) := by
  have hafter : after? (key.toList ++ ['=']) (key ++ "=" ++ text).toList = some text.toList :=
    after?_eq_some_iff.mpr (by simp)
  rw [valueOn?, hafter]
  rfl

theorem valueOn?_eq_none_iff {key line : String} : valueOn? key line = none ↔ ¬ Sets key line := by
  rw [valueOn?, Option.map_eq_none_iff, Option.eq_none_iff_forall_ne_some]
  constructor
  · rintro h ⟨text, htext⟩
    exact h text (after?_eq_some_iff.mpr htext.symm)
  · intro h text htext
    exact h ⟨text, (after?_eq_some_iff.mp htext).symm⟩

theorem value?_eq_none_iff {content key : String} :
    value? content key = none ↔ ∀ line ∈ trimmedLines content, ¬ Sets key line := by
  rw [value?, List.findSome?_eq_none_iff]
  exact forall₂_congr fun line _ => valueOn?_eq_none_iff

theorem value?_of_find? {content key text : String}
    (h : (trimmedLines content).find? (Sets key ·) = some (key ++ "=" ++ text)) :
    value? content key = some (String.ofList (unquote text.toList)) := by
  obtain ⟨_, before, after, hlines, hbefore⟩ := List.find?_eq_some_iff_append.mp h
  refine List.findSome?_eq_some_iff.mpr ⟨before, _, after, hlines, valueOn?_setting key text, ?_⟩
  intro line hline
  exact valueOn?_eq_none_iff.mpr (by simpa using hbefore line hline)

theorem exists_find?_of_value?_ne_none {content key : String} (h : value? content key ≠ none) :
    ∃ text, (trimmedLines content).find? (Sets key ·) = some (key ++ "=" ++ text) := by
  rw [Ne, value?_eq_none_iff] at h
  cases hfind : (trimmedLines content).find? (Sets key ·) with
  | none => exact absurd (fun line hline => by simpa using List.find?_eq_none.mp hfind line hline) h
  | some line =>
    obtain ⟨text, rfl⟩ := sets_iff.mp (by simpa using List.find?_some hfind : Sets key line)
    exact ⟨text, rfl⟩

theorem isBlank_of_getLast?_setting {content key text : String} {c : Char}
    (h : key ++ "=" ++ text ∈ trimmedLines content) (hc : text.toList.getLast? = some c) :
    isBlank c = false := by
  obtain ⟨piece, _, hpiece⟩ := List.mem_map.mp h
  have hline : (trim piece).getLast? = some c := by
    rw [← String.toList_ofList (l := trim piece), hpiece, String.toList_append,
      List.getLast?_append, hc]
    rfl
  exact isBlank_of_getLast?_trim hline

theorem value?_eq_some_iff {content key v : String} :
    value? content key = some v ↔
      ∃ text, (trimmedLines content).find? (Sets key ·) = some (key ++ "=" ++ text) ∧
        Writes v.toList text.toList := by
  have hwrites : ∀ text, (trimmedLines content).find? (Sets key ·) = some (key ++ "=" ++ text) →
      (Writes v.toList text.toList ↔ String.ofList (unquote text.toList) = v) := by
    intro text htext
    rw [writes_iff fun c => isBlank_of_getLast?_setting (List.mem_of_find?_eq_some htext)]
    constructor
    · intro h
      rw [h, String.ofList_toList]
    · rintro rfl
      rw [String.toList_ofList]
  constructor
  · intro h
    obtain ⟨text, htext⟩ := exists_find?_of_value?_ne_none (by rw [h]; simp)
    rw [value?_of_find? htext] at h
    exact ⟨text, htext, (hwrites text htext).mpr (Option.some.inj h)⟩
  · rintro ⟨text, htext, hv⟩
    rw [value?_of_find? htext, (hwrites text htext).mp hv]

namespace Setting

variable {key : String}

theorem trimmed_line (x : Setting key) {v : List Char}
    (hkey : ∀ c, key.toList.head? = some c → isBlank c = false) (hv : Writes v x.text.toList) :
    trimmed x.line = key ++ "=" ++ x.text := by
  apply String.toList_injective
  have hleading := fun c hc => (x.leading_blank c hc).1
  have htrailing := fun c hc => (x.trailing_blank c hc).1
  rw [trimmed, String.toList_ofList, line, String.toList_append, String.toList_append,
    trim_append_right htrailing, trim_append_left hleading]
  -- An empty key or an empty text leaves the equals sign at this end of the line.
  refine trim_eq_self (fun c hc => ?_) (fun c hc => ?_)
  · rw [String.toList_append, String.toList_append, List.append_assoc, List.head?_append] at hc
    cases hhead : key.toList.head? with
    | some first =>
      rw [hhead] at hc
      exact hkey c (hhead.trans hc)
    | none =>
      rw [hhead] at hc
      obtain rfl : '=' = c := Option.some.inj hc
      decide
  · rw [String.toList_append, List.getLast?_append] at hc
    cases hlast : x.text.toList.getLast? with
    | some last =>
      rw [hlast] at hc
      exact hv.isBlank_of_getLast? (hlast.trans hc)
    | none =>
      have hequals : (key ++ "=").toList.getLast? = some '=' := by
        rw [String.toList_append]
        exact List.getLast?_concat
      rw [hlast, hequals] at hc
      obtain rfl : '=' = c := Option.some.inj hc
      decide

theorem trimmedLines_content (x : Setting key) (hfeed : '\n' ∉ key.toList) :
    ∃ others, trimmedLines x.content = x.before.map trimmed ++ trimmed x.line :: others := by
  have hline : '\n' ∉ x.line.toList := by
    have hleading : '\n' ∉ x.leading.toList := fun h => (x.leading_blank _ h).2 rfl
    have htrailing : '\n' ∉ x.trailing.toList := fun h => (x.trailing_blank _ h).2 rfl
    simp [line, hleading, htrailing, hfeed, x.text_no_feed]
  rw [content, trimmedLines_unlines_append x.before_no_feed]
  rcases x.after_line with h | ⟨rest, h⟩
  · exact ⟨[], by rw [h, String.append_empty, trimmedLines_of_no_feed hline]⟩
  · refine ⟨trimmedLines rest, ?_⟩
    rw [h, ← String.append_assoc, trimmedLines_append, trimmedLines_of_no_feed hline]
    rfl

theorem value?_content (x : Setting key) {v : String} (hfeed : '\n' ∉ key.toList)
    (hkey : ∀ c, key.toList.head? = some c → isBlank c = false)
    (hv : Writes v.toList x.text.toList) : value? x.content key = some v := by
  obtain ⟨others, hlines⟩ := x.trimmedLines_content hfeed
  refine value?_eq_some_iff.mpr ⟨x.text, ?_, hv⟩
  rw [x.trimmed_line hkey hv] at hlines
  refine List.find?_eq_some_iff_append.mpr ⟨?_, _, others, hlines, fun line hline => ?_⟩
  · simpa using sets_iff.mpr ⟨x.text, rfl⟩
  · obtain ⟨l, hl, rfl⟩ := List.mem_map.mp hline
    simpa using x.before_others l hl

end Setting

/-- A key has no value exactly if no line sets it, and else the first line that does decides: the
value is the one that the text on this line is written for. So a value is read back from a line on
which it was written, whatever blanks stand around the line, whatever lines before it set no key or
another one, and whatever comes behind it. -/
theorem first_setting_read_back (key : String) (hfeed : '\n' ∉ key.toList)
    (hkey : ∀ c, key.toList.head? = some c → isBlank c = false) :
    (∀ content, value? content key = none ↔ ∀ line ∈ trimmedLines content, ¬ Sets key line) ∧
    (∀ content v, value? content key = some v ↔
      ∃ text, (trimmedLines content).find? (Sets key ·) = some (key ++ "=" ++ text) ∧
        Writes v.toList text.toList) ∧
    ∀ (x : Setting key) (v : String), Writes v.toList x.text.toList →
      value? x.content key = some v :=
  ⟨fun _ => value?_eq_none_iff, fun _ _ => value?_eq_some_iff,
    fun x _ hv => x.value?_content hfeed hkey hv⟩

/-- A value with a quote of the other kind and blanks between its own quotes, behind a comment and a
longer key. -/
def quotedSetting : Setting "URL" where
  before := ["# URL=none", "URL_OLD=old"]
  leading := "\t "
  text := "' it is \"quoted\" '"
  trailing := " \r"
  after := "\nURL=later"
  before_no_feed := by decide
  before_others := by decide
  leading_blank := by
    intro c hc
    obtain rfl | rfl : c = '\t' ∨ c = ' ' := by simpa using hc
    · decide
    · decide
  text_no_feed := by decide
  trailing_blank := by
    intro c hc
    obtain rfl | rfl : c = ' ' ∨ c = '\r' := by simpa using hc
    · decide
    · decide
  after_line := Or.inr ⟨"URL=later", rfl⟩

theorem quoted_setting_read :
    '\n' ∉ "URL".toList ∧ (∀ c, "URL".toList.head? = some c → isBlank c = false) ∧
    Writes " it is \"quoted\" ".toList quotedSetting.text.toList ∧
    value? quotedSetting.content "URL" = some " it is \"quoted\" " := by
  have hfeed : '\n' ∉ "URL".toList := by decide
  have hkey : ∀ c, "URL".toList.head? = some c → isBlank c = false := by
    intro c hc
    obtain rfl : 'U' = c := Option.some.inj hc
    decide
  have hwrites : Writes " it is \"quoted\" ".toList quotedSetting.text.toList :=
    .quoted (Or.inr rfl)
  exact ⟨hfeed, hkey, hwrites,
    (first_setting_read_back "URL" hfeed hkey).2.2 quotedSetting _ hwrites⟩

/-- A lone quote and quotes of two kinds are values as they stand. -/
example : value? "K='" "K" = some "'" ∧ value? "K=\"a'" "K" = some "\"a'" ∧
    value? "K=\"\"" "K" = some "" ∧ value? "KEY=a" "K" = none := by decide

end EntityDiagram.EnvFile

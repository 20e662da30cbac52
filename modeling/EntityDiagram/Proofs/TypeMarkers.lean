import EntityDiagram.Field
import Mathlib.Data.List.Induction

namespace EntityDiagram

def Marker.takenOff? (m : Marker) (cs : List Char) : Option (List Char) :=
  (after? m.chars.reverse cs.reverse).map List.reverse

theorem Marker.takenOff?_eq_some_iff {m : Marker} {cs rest : List Char} :
    m.takenOff? cs = some rest ↔ cs = rest ++ m.chars := by
  constructor
  · intro h
    obtain ⟨left, hleft, rfl⟩ := Option.map_eq_some_iff.mp h
    have hcs := congrArg List.reverse (after?_eq_some_iff.mp hleft)
    simpa using hcs
  · rintro rfl
    have hleft : after? m.chars.reverse (rest ++ m.chars).reverse = some rest.reverse :=
      after?_eq_some_iff.mpr List.reverse_append
    rw [takenOff?, hleft, Option.map_some, List.reverse_reverse]

def IsBare (cs : List Char) : Prop := ∀ m : Marker, ¬m.chars <:+ cs

def markersText (ms : List Marker) : String := String.ofList (ms.flatMap Marker.chars)

namespace TypeToken

def round? (cs : List Char) : Option (List Char) :=
  Marker.list.takenOff? cs <|> Marker.optional.takenOff? cs

/-- The loop makes a number of rounds from a text and stops at another one. -/
inductive Strips : List Char → Nat → List Char → Prop
  | stop {cs : List Char} (h : round? cs = none) : Strips cs 0 cs
  | round {cs next left : List Char} {rounds : Nat} (h : round? cs = some next)
      (later : Strips next rounds left) : Strips cs (rounds + 1) left

theorem round?_eq_some_iff {cs rest : List Char} :
    round? cs = some rest ↔ ∃ m : Marker, cs = rest ++ m.chars := by
  rw [round?, Option.orElse_eq_orElse, Option.orElse_eq_or, Option.or_eq_some_iff]
  constructor
  · rintro (h | ⟨_, h⟩)
    · exact ⟨.list, Marker.takenOff?_eq_some_iff.mp h⟩
    · exact ⟨.optional, Marker.takenOff?_eq_some_iff.mp h⟩
  · rintro ⟨m, h⟩
    cases m with
    | list => exact .inl (Marker.takenOff?_eq_some_iff.mpr h)
    | optional =>
      -- No text ends in both markers, so that trying the list marker first passes over nothing.
      have hlist : Marker.list.takenOff? cs = none := by
        simp [h, Marker.takenOff?, Marker.chars, after?]
      exact .inr ⟨hlist, Marker.takenOff?_eq_some_iff.mpr h⟩

theorem round?_eq_none_iff {cs : List Char} : round? cs = none ↔ IsBare cs := by
  rw [Option.eq_none_iff_forall_ne_some]
  constructor
  · rintro h m ⟨rest, hcs⟩
    exact h rest (round?_eq_some_iff.mpr ⟨m, hcs.symm⟩)
  · intro h rest hround
    obtain ⟨m, hcs⟩ := round?_eq_some_iff.mp hround
    exact h m ⟨rest, hcs.symm⟩

theorem ofChars_append_chars (cs : List Char) (m : Marker) :
    ofChars (cs ++ m.chars) = ⟨(ofChars cs).base, (ofChars cs).markers ++ [m]⟩ := by
  cases m with
  | list => simp [ofChars, Marker.chars, takeMarkers]
  | optional => simp [ofChars, Marker.chars, takeMarkers]

theorem ofChars_append_markers (cs : List Char) (ms : List Marker) :
    ofChars (cs ++ ms.flatMap Marker.chars) =
      ⟨(ofChars cs).base, (ofChars cs).markers ++ ms⟩ := by
  induction ms using List.reverseRecOn with
  | nil => simp
  | append_singleton ms m ih =>
    have hlast : cs ++ (ms ++ [m]).flatMap Marker.chars =
        (cs ++ ms.flatMap Marker.chars) ++ m.chars := by simp
    rw [hlast, ofChars_append_chars, ih, List.append_assoc]

theorem not_prefix_takeMarkers (cs : List Char) (m : Marker) :
    ¬m.chars.reverse <+: (takeMarkers cs).1 := by
  fun_induction takeMarkers cs with
  | case1 cs ih => exact ih
  | case2 cs ih => exact ih
  | case3 cs hlist hoptional =>
    rintro ⟨rest, h⟩
    cases m with
    | list => exact hlist rest h.symm
    | optional => exact hoptional rest h.symm

theorem isBare_base (cs : List Char) : IsBare (ofChars cs).base := by
  intro m h
  have hbase := List.reverse_prefix.mpr h
  rw [ofChars, List.reverse_reverse] at hbase
  exact not_prefix_takeMarkers cs.reverse m hbase

theorem outermost_eq_some_iff {cs : List Char} {m : Marker} :
    (ofChars cs).outermost = some m ↔ m.chars <:+ cs := by
  constructor
  · intro h
    obtain ⟨ms, hmarkers⟩ := List.getLast?_eq_some_iff.mp h
    refine ⟨(ofChars cs).base ++ ms.flatMap Marker.chars, ?_⟩
    calc (ofChars cs).base ++ ms.flatMap Marker.chars ++ m.chars
        = (ofChars cs).chars := by simp [chars, hmarkers]
      _ = cs := chars_ofChars cs
  · rintro ⟨rest, rfl⟩
    rw [outermost, ofChars_append_chars]
    exact List.getLast?_concat

theorem markers_eq_nil_iff {cs : List Char} : (ofChars cs).markers = [] ↔ IsBare cs := by
  rw [← List.getLast?_eq_none_iff, Option.eq_none_iff_forall_ne_some]
  exact forall_congr' fun m => not_congr outermost_eq_some_iff

theorem ofChars_of_isBare {cs : List Char} (h : IsBare cs) : ofChars cs = ⟨cs, []⟩ := by
  have hmarkers := markers_eq_nil_iff.mpr h
  have hbase := chars_ofChars cs
  rw [chars, hmarkers, List.flatMap_nil, List.append_nil] at hbase
  rw [← hmarkers]
  exact congrArg (TypeToken.mk · _) hbase

theorem ofChars_eq_iff {cs base : List Char} {ms : List Marker} :
    ofChars cs = ⟨base, ms⟩ ↔ cs = base ++ ms.flatMap Marker.chars ∧ IsBare base := by
  constructor
  · intro h
    have hcs := chars_ofChars cs
    have hbase := isBare_base cs
    rw [h] at hcs hbase
    exact ⟨hcs.symm, hbase⟩
  · rintro ⟨rfl, hbase⟩
    rw [ofChars_append_markers, ofChars_of_isBare hbase, List.nil_append]

theorem strips_append_markers {base : List Char} (h : IsBare base) (ms : List Marker) :
    Strips (base ++ ms.flatMap Marker.chars) ms.length base := by
  induction ms using List.reverseRecOn with
  | nil =>
    rw [List.flatMap_nil, List.append_nil]
    exact .stop (round?_eq_none_iff.mpr h)
  | append_singleton ms m ih =>
    have hround : round? (base ++ (ms ++ [m]).flatMap Marker.chars) =
        some (base ++ ms.flatMap Marker.chars) :=
      round?_eq_some_iff.mpr ⟨m, by simp⟩
    rw [List.length_append, List.length_singleton]
    exact .round hround ih

theorem Strips.eq_ofChars {cs left : List Char} {rounds : Nat} (h : Strips cs rounds left) :
    rounds = (ofChars cs).markers.length ∧ left = (ofChars cs).base := by
  induction h with
  | stop h =>
    rw [ofChars_of_isBare (round?_eq_none_iff.mp h)]
    exact ⟨rfl, rfl⟩
  | round h later ih =>
    obtain ⟨m, rfl⟩ := round?_eq_some_iff.mp h
    obtain ⟨hrounds, hleft⟩ := ih
    rw [ofChars_append_chars]
    refine ⟨?_, hleft⟩
    rw [hrounds, List.length_append, List.length_singleton]

theorem strips_iff {cs left : List Char} {rounds : Nat} :
    Strips cs rounds left ↔
      rounds = (ofChars cs).markers.length ∧ left = (ofChars cs).base := by
  refine ⟨Strips.eq_ofChars, ?_⟩
  rintro ⟨rfl, rfl⟩
  have h := strips_append_markers (isBare_base cs) (ofChars cs).markers
  rwa [← chars, chars_ofChars] at h

end TypeToken

namespace Field

variable {f : Field}

theorem isArray_iff : f.isArray = true ↔ f.typeToken.markers.getLast? = some .list :=
  decide_eq_true_iff

theorem isOptional_iff : f.isOptional = true ↔ f.typeToken.markers.getLast? = some .optional :=
  decide_eq_true_iff

theorem toList_baseType : f.baseType.toList = f.typeToken.base := String.toList_ofList

theorem markers_eq_nil_iff_flags :
    f.typeToken.markers = [] ↔ f.isArray = false ∧ f.isOptional = false := by
  rw [← List.getLast?_eq_none_iff, ← Bool.not_eq_true, ← Bool.not_eq_true, isArray_iff,
    isOptional_iff]
  cases f.typeToken.markers.getLast? with
  | none => simp
  | some m => cases m <;> simp

theorem typeToken_baseType (name attributes : String) :
    (Field.mk name f.baseType attributes).typeToken = ⟨f.typeToken.base, []⟩ := by
  rw [typeToken, toList_baseType]
  exact TypeToken.ofChars_of_isBare (TypeToken.isBare_base _)

theorem typeToken_append_markersText (name attributes : String) (ms : List Marker) :
    (Field.mk name (f.rawType ++ markersText ms) attributes).typeToken =
      ⟨f.typeToken.base, f.typeToken.markers ++ ms⟩ := by
  rw [typeToken, String.toList_append, markersText, String.toList_ofList]
  exact TypeToken.ofChars_append_markers _ ms

theorem not_isArray_and_isOptional : (f.isArray && f.isOptional) = false := by
  rw [Bool.and_eq_false_iff, ← Bool.not_eq_true, ← Bool.not_eq_true, ← not_and_or, isArray_iff,
    isOptional_iff]
  rintro ⟨hlist, hoptional⟩
  rw [hlist] at hoptional
  cases hoptional

theorem rawType_eq_iff {base : String} {ms : List Marker} :
    f.rawType = base ++ markersText ms ∧ IsBare base.toList ↔
      base = f.baseType ∧ ms = f.typeToken.markers := by
  have htext : f.rawType = base ++ markersText ms ↔
      f.rawType.toList = base.toList ++ ms.flatMap Marker.chars := by
    rw [← String.toList_inj, String.toList_append, markersText, String.toList_ofList]
  rw [htext, ← TypeToken.ofChars_eq_iff, ← String.toList_inj, toList_baseType]
  constructor
  · intro h
    rw [typeToken, h]
    exact ⟨rfl, rfl⟩
  · rintro ⟨hbase, rfl⟩
    rw [hbase]
    rfl

/-- The type of a field is a base type that ends in no marker and markers behind it, and it is that
in one way. The loop stops at the base type after as many rounds as there are markers. The flags
tell the last marker, which is the one that the type ends in. The base type is a type without
markers, and it stays what it is if markers are put behind the type. -/
theorem type_taken_apart (f : Field) :
    ∃ markers : List Marker,
      (∀ base ms, f.rawType = base ++ markersText ms ∧ IsBare base.toList ↔
        base = f.baseType ∧ ms = markers) ∧
      (∀ rounds left, TypeToken.Strips f.rawType.toList rounds left ↔
        rounds = markers.length ∧ left = f.baseType.toList) ∧
      (f.isArray = true ↔ markers.getLast? = some .list) ∧
      (f.isArray = true ↔ Marker.list.chars <:+ f.rawType.toList) ∧
      (f.isOptional = true ↔ markers.getLast? = some .optional) ∧
      (f.isOptional = true ↔ Marker.optional.chars <:+ f.rawType.toList) ∧
      (f.isArray && f.isOptional) = false ∧
      (markers = [] ↔ f.isArray = false ∧ f.isOptional = false) ∧
      (∀ name attributes, (Field.mk name f.baseType attributes).baseType = f.baseType ∧
        (Field.mk name f.baseType attributes).isArray = false ∧
        (Field.mk name f.baseType attributes).isOptional = false) ∧
      ∀ name attributes ms,
        (Field.mk name (f.rawType ++ markersText ms) attributes).baseType = f.baseType := by
  refine ⟨f.typeToken.markers, fun _ _ => rawType_eq_iff, fun rounds left => ?_, isArray_iff,
    isArray_iff.trans TypeToken.outermost_eq_some_iff, isOptional_iff,
    isOptional_iff.trans TypeToken.outermost_eq_some_iff, not_isArray_and_isOptional,
    markers_eq_nil_iff_flags, fun name attributes => ⟨?_, ?_⟩, fun name attributes ms => ?_⟩
  · rw [toList_baseType]
    exact TypeToken.strips_iff
  · rw [baseType, typeToken_baseType, baseType]
  · have htoken := typeToken_baseType (f := f) name attributes
    exact markers_eq_nil_iff_flags.mp (congrArg TypeToken.markers htoken)
  · rw [baseType, typeToken_append_markersText, baseType]

/-- Markers inside a type, and a bracket that has no partner, belong to the base type; a base type
may be empty. -/
example :
    TypeToken.ofChars "[]Foo[]?Bar]?[]".toList = ⟨"[]Foo[]?Bar]".toList, [.optional, .list]⟩ ∧
      TypeToken.ofChars "?[]?".toList = ⟨[], [.optional, .list, .optional]⟩ := by
  decide

end Field

end EntityDiagram

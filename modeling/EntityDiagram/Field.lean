import EntityDiagram.Text

namespace EntityDiagram

inductive Marker
  | list
  | optional
deriving DecidableEq

def Marker.chars : Marker → List Char
  | list => ['[', ']']
  | optional => ['?']

structure TypeToken where
  base : List Char
  markers : List Marker
deriving DecidableEq

namespace TypeToken

def chars (t : TypeToken) : List Char := t.base ++ t.markers.flatMap Marker.chars

/-- Takes the markers off the end of a token that is read backwards: what is left, still backwards,
and the markers, last marker first. -/
def takeMarkers : List Char → List Char × List Marker
  | ']' :: '[' :: cs => ((takeMarkers cs).1, .list :: (takeMarkers cs).2)
  | '?' :: cs => ((takeMarkers cs).1, .optional :: (takeMarkers cs).2)
  | cs => (cs, [])

def ofChars (cs : List Char) : TypeToken :=
  let taken := takeMarkers cs.reverse
  ⟨taken.1.reverse, taken.2.reverse⟩

/-- The last marker of a token, which alone says whether it stands for a list or may be absent. -/
def outermost (t : TypeToken) : Option Marker := t.markers.getLast?

theorem takeMarkers_append (cs : List Char) :
    cs = (takeMarkers cs).2.flatMap (fun m => m.chars.reverse) ++ (takeMarkers cs).1 := by
  fun_induction takeMarkers cs with
  | case1 cs ih => simpa [Marker.chars] using ih
  | case2 cs ih => simpa [Marker.chars] using ih
  | case3 cs => simp

/-- A token is its base type followed by its markers. -/
theorem chars_ofChars (cs : List Char) : (ofChars cs).chars = cs := by
  have h := congrArg List.reverse (takeMarkers_append cs.reverse)
  rw [List.reverse_reverse, List.reverse_append, List.reverse_flatMap] at h
  have hf : List.reverse ∘ (fun m : Marker => m.chars.reverse) = Marker.chars := by
    funext m
    simp
  rw [hf] at h
  exact h.symm

end TypeToken

/-- A field of a model as it was declared: the first two words of its line, and the whole line. -/
structure Field where
  name : String
  rawType : String
  attributes : String
deriving DecidableEq

namespace Field

def typeToken (f : Field) : TypeToken := TypeToken.ofChars f.rawType.toList

def baseType (f : Field) : String := String.ofList f.typeToken.base

def isArray (f : Field) : Bool := f.typeToken.outermost = some .list

def isOptional (f : Field) : Bool := f.typeToken.outermost = some .optional

end Field

end EntityDiagram

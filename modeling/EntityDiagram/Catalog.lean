namespace EntityDiagram

class Named (α : Type) where
  name : α → String

variable {α : Type} [Named α]

/-- Puts an item where its name stands, or at the end. -/
def place (x : α) : List α → List α
  | [] => [x]
  | y :: ys => if Named.name y = Named.name x then x :: ys else y :: place x ys

theorem names_place (x : α) (xs : List α) :
    (place x xs).map Named.name =
      if Named.name x ∈ xs.map Named.name then xs.map Named.name
      else xs.map Named.name ++ [Named.name x] := by
  induction xs with
  | nil => simp [place]
  | cons y ys ih =>
    by_cases h : Named.name y = Named.name x
    · simp [place, h]
    · have hn : Named.name x ≠ Named.name y := fun e => h e.symm
      simp only [place, h, ↓reduceIte, List.map_cons, ih, List.mem_cons, hn, false_or]
      split <;> simp

theorem nodup_names_place {x : α} {xs : List α} (h : (xs.map Named.name).Nodup) :
    ((place x xs).map Named.name).Nodup := by
  rw [names_place]
  split
  next => exact h
  next hx =>
    refine List.nodup_append.mpr ⟨h, by simp, ?_⟩
    intro a ha b hb
    rw [List.mem_singleton.mp hb]
    intro e
    exact hx (e ▸ ha)

@[ext]
structure Catalog (α : Type) [Named α] where
  toList : List α
  nodup : (toList.map Named.name).Nodup
deriving DecidableEq

namespace Catalog

def empty : Catalog α := ⟨[], by simp⟩

instance : Inhabited (Catalog α) := ⟨empty⟩

def names (c : Catalog α) : List String := c.toList.map Named.name

def size (c : Catalog α) : Nat := c.toList.length

def isEmpty (c : Catalog α) : Bool := c.toList.isEmpty

def insert (c : Catalog α) (x : α) : Catalog α := ⟨place x c.toList, nodup_names_place c.nodup⟩

def insertAll (c : Catalog α) (xs : List α) : Catalog α := xs.foldl insert c

def find? (c : Catalog α) (name : String) : Option α := c.toList.find? (Named.name · == name)

def contains (c : Catalog α) (name : String) : Bool := c.toList.any (Named.name · == name)

/-- Two catalogs hold the same items, in whatever order their names came. -/
def Same (a b : Catalog α) : Prop :=
  a.size = b.size ∧ ∀ x ∈ a.toList, b.find? (Named.name x) = some x

instance [DecidableEq α] (a b : Catalog α) : Decidable (a.Same b) :=
  inferInstanceAs (Decidable (_ ∧ _))

@[simp] theorem toList_empty : (empty : Catalog α).toList = [] := rfl

@[simp] theorem toList_insert (c : Catalog α) (x : α) :
    (c.insert x).toList = place x c.toList := rfl

theorem names_insert (c : Catalog α) (x : α) :
    (c.insert x).names =
      if Named.name x ∈ c.names then c.names else c.names ++ [Named.name x] :=
  names_place x c.toList

theorem contains_iff_mem_names {c : Catalog α} {name : String} :
    c.contains name = true ↔ name ∈ c.names := by
  simp [contains, names]

theorem find?_insert_self (c : Catalog α) (x : α) :
    (c.insert x).find? (Named.name x) = some x := by
  unfold find?
  rw [toList_insert]
  induction c.toList with
  | nil => simp [place]
  | cons y ys ih =>
    by_cases h : Named.name y = Named.name x
    · simp [place, h]
    · simpa [place, h] using ih

theorem find?_insert_of_ne (c : Catalog α) {x : α} {name : String} (h : name ≠ Named.name x) :
    (c.insert x).find? name = c.find? name := by
  have hn : Named.name x ≠ name := fun e => h e.symm
  unfold find?
  rw [toList_insert]
  induction c.toList with
  | nil => simp [place, hn]
  | cons y ys ih =>
    by_cases hy : Named.name y = Named.name x
    · simp [place, hy, hn]
    · by_cases he : Named.name y = name
      · simp [place, he, h]
      · simpa [place, hy, he] using ih

end Catalog

end EntityDiagram

import EntityDiagram.LogRecord

namespace EntityDiagram

structure Program where
  title : String
  description : String
  coverImage : String
deriving DecidableEq

def defaultPrograms : List Program :=
  [⟨"High School", "Ace your exams and navigate teen life with confidence.", "book-open"⟩,
   ⟨"University", "Thrive in your degree, campus life, and beyond.", "graduation-cap"⟩,
   ⟨"Gap Year", "Make the most of your time off to discover yourself.", "user"⟩,
   ⟨"Personal Dev", "Grow in faith, character, leadership and life skills.", "star"⟩]

inductive StoreFault
  | count (text : String)
  | insert (rows : Int)
deriving DecidableEq

def StoreFault.message : StoreFault → String
  | count text => text
  | insert rows => "insert " ++ toString rows ++ " failed"

/-- A store in memory. It may be set to report a number of its own, to fail when it is asked for its
number of rows, and to fail to insert while it holds just so many rows. -/
structure Store where
  rows : List Program := []
  reportedCount : Option Int := none
  countFault : Option String := none
  insertFault : Option Int := none
deriving DecidableEq

namespace Store

def count (s : Store) : Except StoreFault Int :=
  match s.countFault with
  | some text => .error (.count text)
  | none => .ok (s.reportedCount.getD s.rows.length)

def insert (s : Store) (p : Program) : Except StoreFault Store :=
  if s.insertFault = some (s.rows.length : Int) then .error (.insert s.rows.length)
  else .ok { s with rows := s.rows ++ [p] }

def insertAll (s : Store) : List Program → Store × List Program × Option StoreFault
  | [] => (s, [], none)
  | p :: ps =>
    match s.insert p with
    | .error fault => (s, [], some fault)
    | .ok stored =>
      let (last, taken, fault) := insertAll stored ps
      (last, p :: taken, fault)

theorem rows_insertAll (s : Store) (ps : List Program) :
    (s.insertAll ps).1.rows = s.rows ++ (s.insertAll ps).2.1 := by
  induction ps generalizing s with
  | nil => simp [insertAll]
  | cons p ps ih =>
    simp only [insertAll]
    split
    next => simp
    next stored h =>
      have hs : stored.rows = s.rows ++ [p] := by
        simp only [insert] at h
        split at h
        next => contradiction
        next => cases h; rfl
      simp [ih, hs]

end Store

inductive SeedingEvent
  | counted (count : Int)
  | alreadySeeded
  | started (programs : Nat)
  | created (title : String)
  | completed
deriving DecidableEq

def SeedingEvent.record : SeedingEvent → LogRecord
  | counted count => ⟨.info, "Current program count", [("count", toString count)]⟩
  | alreadySeeded => ⟨.info, "Programs already exist, skipping", []⟩
  | started programs => ⟨.info, "Seeding programs", [("programs", toString programs)]⟩
  | created title => ⟨.info, "Created: " ++ title, []⟩
  | completed => ⟨.info, "Seeding complete", []⟩

inductive SeedingOutcome
  | seeded (programs : Nat)
  | skipped (count : Int)
  | failed (fault : StoreFault)
deriving DecidableEq

structure Seeding where
  outcome : SeedingOutcome
  store : Store
  events : List SeedingEvent
deriving DecidableEq

/-- Inserts programs in order into a store that reports to be empty. Those inserted before a fault
stay. -/
def Store.seed (s : Store) (programs : List Program) : Seeding :=
  match s.count with
  | .error fault => ⟨.failed fault, s, []⟩
  | .ok count =>
    if count ≠ 0 then ⟨.skipped count, s, [.counted count, .alreadySeeded]⟩
    else
      let (last, taken, fault?) := s.insertAll programs
      let begun := .counted count :: .started programs.length :: taken.map (.created ·.title)
      match fault? with
      | some fault => ⟨.failed fault, last, begun⟩
      | none => ⟨.seeded programs.length, last, begun ++ [.completed]⟩

end EntityDiagram

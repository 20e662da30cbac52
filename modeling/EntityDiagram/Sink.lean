import EntityDiagram.Diagram

namespace EntityDiagram

structure Sink where
  written : String := ""
  room : Option Nat := none
deriving DecidableEq

structure Overflow where
  written : String
deriving DecidableEq

def Overflow.message (_ : Overflow) : String := "an error occurred when formatting an argument"

namespace Sink

/-- Takes a text whole, or as much of it as there is room for. -/
def write (k : Sink) (text : String) : Except Overflow Sink :=
  match k.room with
  | none => .ok ⟨k.written ++ text, none⟩
  | some room =>
    if text.length ≤ room then .ok ⟨k.written ++ text, some (room - text.length)⟩
    else .error ⟨k.written ++ String.ofList (text.toList.take room)⟩

def writeLine (k : Sink) (line : String) : Except Overflow Sink := k.write (line ++ "\n")

def writeDiagram (k : Sink) (d : Diagram) : Except Overflow Sink := d.lines.foldlM writeLine k

def writeRepeatedly (d : Diagram) : Nat → Sink → Except Overflow Sink
  | 0, k => .ok k
  | times + 1, k => k.writeDiagram d >>= writeRepeatedly d times

end Sink

end EntityDiagram

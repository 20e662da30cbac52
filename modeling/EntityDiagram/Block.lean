import EntityDiagram.Header

namespace EntityDiagram

def commentMark : String := "//"

def closingLine : String := "\x7d"

def isComment (line : String) : Bool := (after? commentMark.toList line.toList).isSome

/-- The lines of a source that say something: trimmed, neither empty nor a comment. -/
def keptLines (source : String) : List String :=
  (trimmedLines source).filter fun line => !line.isEmpty && !isComment line

inductive LineRole
  | opening (header : Header)
  | closing
  | interior (line : String)
  | stray (line : String)
deriving DecidableEq

def lineRoles : Bool → List String → List LineRole
  | _, [] => []
  | isOpen, line :: lines =>
    match Header.ofLine? line with
    | some header => .opening header :: lineRoles true lines
    | none =>
      if line = closingLine then .closing :: lineRoles false lines
      else if isOpen then .interior line :: lineRoles true lines
      else .stray line :: lineRoles false lines

structure Block where
  header : Header
  lines : List String
deriving DecidableEq

def interiorRun : List LineRole → List String
  | .interior line :: roles => line :: interiorRun roles
  | _ => []

def blocks : List LineRole → List Block
  | [] => []
  | .opening header :: roles => ⟨header, interiorRun roles⟩ :: blocks roles
  | _ :: roles => blocks roles

/-- The header of the block that the lines leave open, given the one open before them. -/
def leftOpen : Option Header → List LineRole → Option Header
  | opened, [] => opened
  | _, .opening header :: roles => leftOpen (some header) roles
  | _, .closing :: roles => leftOpen none roles
  | opened, _ :: roles => leftOpen opened roles

def sourceRoles (source : String) : List LineRole := lineRoles false (keptLines source)

end EntityDiagram

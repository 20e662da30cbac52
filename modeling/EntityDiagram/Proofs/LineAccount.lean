import EntityDiagram.Declaration
import EntityDiagram.Proofs.Scan

namespace EntityDiagram

namespace LineRole

def opening? : LineRole → Option Header
  | opening header => some header
  | _ => none

def interior? : LineRole → Option String
  | interior line => some line
  | _ => none

def stray? : LineRole → Option String
  | stray line => some line
  | _ => none

end LineRole

theorem length_lineRoles (isOpen : Bool) (lines : List String) :
    (lineRoles isOpen lines).length = lines.length := by
  induction lines generalizing isOpen with
  | nil => rfl
  | cons line lines ih => rw [lineRoles_cons, List.length_cons, List.length_cons, ih]

theorem count_closing_lineRoles (isOpen : Bool) (lines : List String) :
    (lineRoles isOpen lines).count .closing = lines.count closingLine := by
  induction lines generalizing isOpen with
  | nil => rfl
  | cons line lines ih =>
    rw [lineRoles_cons, List.count_cons, List.count_cons, ih]
    congr 1
    simp only [beq_iff_eq, lineRole_eq_closing_iff]

theorem map_header_blocks (roles : List LineRole) :
    (blocks roles).map Block.header = roles.filterMap LineRole.opening? := by
  induction roles with
  | nil => rfl
  | cons role roles ih =>
    cases role with
    | opening header => simp [blocks, LineRole.opening?, ih]
    | closing => simpa [List.filterMap_cons, blocks, LineRole.opening?] using ih
    | interior line => simpa [List.filterMap_cons, blocks, LineRole.opening?] using ih
    | stray line => simpa [List.filterMap_cons, blocks, LineRole.opening?] using ih

theorem length_roles (roles : List LineRole) :
    roles.length = (blocks roles).length + roles.count .closing +
      (roles.filterMap LineRole.stray?).length + (roles.filterMap LineRole.interior?).length := by
  induction roles with
  | nil => rfl
  | cons role roles ih =>
    cases role <;>
      simp [List.filterMap_cons, blocks, LineRole.stray?, LineRole.interior?, ih] <;> omega

theorem filterMap_interior?_lineRoles (isOpen : Bool) (lines : List String) :
    (lineRoles isOpen lines).filterMap LineRole.interior? =
      (if isOpen then interiorRun (lineRoles isOpen lines) else []) ++
        (blocks (lineRoles isOpen lines)).flatMap Block.lines := by
  induction lines generalizing isOpen with
  | nil => cases isOpen <;> rfl
  | cons line lines ih =>
    -- A header hands the lines after it to a block of its own, and a closing line to no block, so
    -- that only these two ask whether a block was open before them.
    rw [lineRoles_cons]
    cases hrole : lineRole isOpen line with
    | opening header =>
      cases isOpen <;>
        simp [List.filterMap_cons, LineRole.interior?, LineRole.leavesOpen, interiorRun, blocks, ih]
    | closing =>
      cases isOpen <;>
        simp [List.filterMap_cons, LineRole.interior?, LineRole.leavesOpen, interiorRun, blocks, ih]
    | interior inside =>
      obtain ⟨_, _, rfl, _⟩ := lineRole_eq_interior_iff.mp hrole
      simp [LineRole.interior?, LineRole.leavesOpen, interiorRun, blocks, ih]
    | stray outside =>
      obtain rfl := isOpen_of_lineRole_eq_stray hrole
      simp [List.filterMap_cons, LineRole.interior?, LineRole.leavesOpen, blocks, ih]

/-- Every kept line opens a block, closes one, is outside all blocks or is inside one. -/
theorem length_keptLines (source : String) :
    (keptLines source).length = (blocks (sourceRoles source)).length +
      (keptLines source).count closingLine +
      ((sourceRoles source).filterMap LineRole.stray?).length +
      ((blocks (sourceRoles source)).flatMap Block.lines).length := by
  have hroles := length_roles (sourceRoles source)
  have hinterior := filterMap_interior?_lineRoles false (keptLines source)
  rw [if_neg (by simp), List.nil_append] at hinterior
  rw [sourceRoles, length_lineRoles, count_closing_lineRoles, hinterior] at hroles
  exact hroles

namespace Member

def line : Member → String
  | field f => f.attributes
  | directive line => line
  | untyped line => line

def directive? : Member → Option String
  | directive line => some line
  | _ => none

def untyped? : Member → Option String
  | untyped line => some line
  | _ => none

theorem line_ofLine (line : String) : (ofLine line).line = line := by
  unfold ofLine
  split
  next => rfl
  next => split <;> rfl

theorem perm_lines (ms : List Member) :
    (ms.map line).Perm ((ms.filterMap field?).map Field.attributes ++
      ms.filterMap directive? ++ ms.filterMap untyped?) := by
  rw [List.perm_iff_count]
  intro l
  simp only [List.count_append]
  induction ms with
  | nil => rfl
  | cons m ms ih =>
    rw [List.map_cons, List.count_cons, ih]
    cases m <;>
      simp [List.filterMap_cons, List.count_cons, line, field?, directive?, untyped?] <;> omega

end Member

theorem Block.map_line_members (b : Block) : b.members.map Member.line = b.lines := by
  rw [members, List.map_map]
  refine (List.map_congr_left fun line _ => ?_).trans (List.map_id b.lines)
  exact Member.line_ofLine line

end EntityDiagram

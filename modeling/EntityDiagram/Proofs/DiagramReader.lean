import EntityDiagram.Diagram
import EntityDiagram.Proofs.HeaderGrammar
import EntityDiagram.Proofs.KeptLines

namespace EntityDiagram

inductive DiagramLine
  | heading
  | opening (name : String)
  | entry (a : Attribute)
  | closing
  | link (r : Relationship)
deriving DecidableEq

namespace DiagramLine

def text : DiagramLine → String
  | heading => Diagram.heading
  | opening name => "  " ++ name ++ " \x7b"
  | entry a => a.line
  | closing => "  \x7d"
  | link r => r.line

def connectorOf? (cs : List Char) : Option (Cardinality × List Char) :=
  [Cardinality.oneToOne, .oneToMany, .manyToMany].findSome? fun c =>
    (after? (' ' :: (c.connector.toList ++ [' '])) cs).map fun rest => (c, rest)

def linkOf? (left cs : List Char) : Option DiagramLine := do
  let (cardinality, cs) ← connectorOf? cs
  let (right, cs) ← leadingRun? isWordChar cs
  let label ← after? [' ', ':', ' ', '"'] cs
  return link ⟨String.ofList left, String.ofList right, cardinality, String.ofList label.dropLast⟩

def entryOf (cs : List Char) : DiagramLine :=
  entry ⟨String.ofList (cs.takeWhile (· != ' ')),
    String.ofList ((cs.dropWhile (· != ' ')).drop 1)⟩

def indentedOf? (cs : List Char) : Option DiagramLine :=
  match after? [' ', ' '] cs with
  | some rest => some (entryOf rest)
  | none =>
    match leadingRun? isWordChar cs with
    | none => if cs = ['\x7d'] then some closing else none
    | some (name, rest) =>
      if rest = [' ', '\x7b'] then some (opening (String.ofList name)) else linkOf? name rest

def ofChars? (cs : List Char) : Option DiagramLine :=
  match after? [' ', ' '] cs with
  | some rest => indentedOf? rest
  | none => if cs = Diagram.heading.toList then some heading else none

def attributeRun : List DiagramLine → List Attribute
  | entry a :: lines => a :: attributeRun lines
  | _ => []

def entities : List DiagramLine → List Entity
  | [] => []
  | opening name :: lines => ⟨name, attributeRun lines⟩ :: entities lines
  | _ :: lines => entities lines

def relationship? : DiagramLine → Option Relationship
  | link r => some r
  | _ => none

def attribute? : DiagramLine → Option Attribute
  | entry a => some a
  | _ => none

def Legible : DiagramLine → Prop
  | opening name => IsRun isWordChar name.toList
  | entry a => (∀ c ∈ a.type.toList, isBlank c = false) ∧ '\n' ∉ a.name.toList
  | link r =>
    IsRun isWordChar r.left.toList ∧ IsRun isWordChar r.right.toList ∧ '\n' ∉ r.label.toList
  | heading => True
  | closing => True

end DiagramLine

def Entity.diagramLines (e : Entity) : List DiagramLine :=
  .opening e.name :: (e.attributes.map .entry ++ [.closing])

namespace Diagram

def diagramLines (d : Diagram) : List DiagramLine :=
  .heading :: (d.entities.flatMap Entity.diagramLines ++ d.relationships.map .link)

def ofLines (lines : List DiagramLine) : Diagram :=
  ⟨DiagramLine.entities lines, lines.filterMap DiagramLine.relationship?⟩

def ofText (text : String) : Diagram :=
  ofLines ((pieces (· == '\n') text.toList).filterMap DiagramLine.ofChars?)

def Legible (d : Diagram) : Prop := ∀ line ∈ d.diagramLines, line.Legible

end Diagram

namespace DiagramLine

theorem Legible.newline_not_mem {line : DiagramLine} (h : line.Legible) :
    '\n' ∉ line.text.toList := by
  cases line with
  | heading => decide
  | opening name =>
    have hname := IsRun.newline_not_mem h
    simp [text, hname]
  | entry a =>
    have htype := newline_not_mem_of_isBlank h.1
    simp [text, Attribute.line, htype, h.2]
  | closing => decide
  | link r =>
    have hleft := h.1.newline_not_mem
    have hright := h.2.1.newline_not_mem
    cases hc : r.cardinality <;>
      simp [text, Relationship.line, hc, Cardinality.connector, hleft, hright, h.2.2]

theorem connectorOf?_append (c : Cardinality) (rest : List Char) :
    connectorOf? (' ' :: (c.connector.toList ++ ' ' :: rest)) = some (c, rest) := by
  cases c <;> simp [connectorOf?, Cardinality.connector, after?]

theorem isWordChar_space : isWordChar ' ' = false := by decide

theorem linkOf?_append {r : Relationship} (hright : IsRun isWordChar r.right.toList) :
    linkOf? r.left.toList (' ' :: (r.cardinality.connector.toList ++
      ' ' :: (r.right.toList ++ (' ' :: ':' :: ' ' :: '"' :: (r.label.toList ++ ['"']))))) =
      some (link r) := by
  have hrun : leadingRun? isWordChar
      (r.right.toList ++ ' ' :: ':' :: ' ' :: '"' :: (r.label.toList ++ ['"'])) =
      some (r.right.toList, ' ' :: ':' :: ' ' :: '"' :: (r.label.toList ++ ['"'])) :=
    leadingRun?_append_cons hright isWordChar_space _
  simp [linkOf?, connectorOf?_append, hrun, after?]

theorem entryOf_append {a : Attribute} (h : ∀ c ∈ a.type.toList, isBlank c = false) :
    entryOf (a.type.toList ++ ' ' :: a.name.toList) = entry a := by
  have htype : ∀ c ∈ a.type.toList, (c != ' ') = true := by
    intro c hc
    have hne : c ≠ ' ' := by
      rintro rfl
      have hspace : isBlank ' ' = true := by decide
      simp [h _ hc] at hspace
    simpa using hne
  simp [entryOf, List.takeWhile_append_of_pos htype, List.dropWhile_append_of_pos htype]

theorem indentedOf?_name {name rest : List Char} (hname : IsRun isWordChar name) :
    indentedOf? (name ++ ' ' :: rest) =
      if rest = ['\x7b'] then some (opening (String.ofList name))
      else linkOf? name (' ' :: rest) := by
  have hrun : leadingRun? isWordChar (name ++ ' ' :: rest) = some (name, ' ' :: rest) :=
    leadingRun?_append_cons hname isWordChar_space rest
  have hnone : after? [' ', ' '] (name ++ ' ' :: rest) = none := by
    cases hn : name with
    | nil => exact absurd hn hname.nonempty
    | cons c cs =>
      have hc : c ≠ ' ' := by
        rintro rfl
        have := hname.all_mem ' ' (hn ▸ List.mem_cons_self ..)
        simp [isWordChar_space] at this
      simp [after?, hc]
  simp [indentedOf?, hnone, hrun]

/-- Every legible line is read back from its text. -/
theorem ofChars?_text {line : DiagramLine} (h : line.Legible) :
    ofChars? line.text.toList = some line := by
  cases line with
  | heading => decide
  | opening name =>
    have htext : (opening name).text.toList = ' ' :: ' ' :: (name.toList ++ ' ' :: ['\x7b']) := by
      simp [text]
    simp [htext, ofChars?, after?, indentedOf?_name h]
  | entry a =>
    have htext : (entry a).text.toList =
        ' ' :: ' ' :: ' ' :: ' ' :: (a.type.toList ++ ' ' :: a.name.toList) := by
      simp [text, Attribute.line]
    simp [htext, ofChars?, after?, indentedOf?, entryOf_append h.1]
  | closing => decide
  | link r =>
    have htext : (link r).text.toList = ' ' :: ' ' :: (r.left.toList ++
        ' ' :: (r.cardinality.connector.toList ++ ' ' :: (r.right.toList ++
          (' ' :: ':' :: ' ' :: '"' :: (r.label.toList ++ ['"']))))) := by
      simp [text, Relationship.line]
    have hrest : r.cardinality.connector.toList ++ ' ' :: (r.right.toList ++
        (' ' :: ':' :: ' ' :: '"' :: (r.label.toList ++ ['"']))) ≠ ['\x7b'] := by
      cases r.cardinality <;> simp [Cardinality.connector]
    simp only [htext, ofChars?, after?, ↓reduceIte, indentedOf?_name h.1, if_neg hrest,
      linkOf?_append h.2.1]

theorem attributeRun_append_closing (as : List Attribute) (lines : List DiagramLine) :
    attributeRun (as.map entry ++ closing :: lines) = as := by
  induction as with
  | nil => rfl
  | cons a as ih => exact congrArg (a :: ·) ih

theorem entities_append_closing (as : List Attribute) (lines : List DiagramLine) :
    entities (as.map entry ++ closing :: lines) = entities lines := by
  induction as with
  | nil => rfl
  | cons a as ih => simpa [entities] using ih

theorem entities_append (e : Entity) (lines : List DiagramLine) :
    entities (e.diagramLines ++ lines) = e :: entities lines := by
  have hlines : e.diagramLines ++ lines =
      opening e.name :: (e.attributes.map entry ++ closing :: lines) := by
    simp [Entity.diagramLines]
  rw [hlines, entities, attributeRun_append_closing, entities_append_closing]

theorem entities_links (rs : List Relationship) : entities (rs.map link) = [] := by
  induction rs with
  | nil => rfl
  | cons r rs ih => simpa [entities] using ih

theorem relationships_diagramLines (e : Entity) :
    e.diagramLines.filterMap relationship? = [] := by
  rw [List.filterMap_eq_nil_iff]
  intro line hline
  simp only [Entity.diagramLines, List.mem_cons, List.mem_append, List.mem_map,
    List.not_mem_nil, or_false] at hline
  rcases hline with rfl | ⟨a, _, rfl⟩ | rfl <;> rfl

end DiagramLine

theorem Entity.lines_eq (e : Entity) : e.lines = e.diagramLines.map DiagramLine.text := by
  simp [Entity.lines, Entity.diagramLines, DiagramLine.text, Function.comp_def]

namespace Diagram

variable {d : Diagram}

theorem lines_eq (d : Diagram) : d.lines = d.diagramLines.map DiagramLine.text := by
  have hentities : Entity.lines = fun e => e.diagramLines.map DiagramLine.text :=
    funext Entity.lines_eq
  simp [lines, diagramLines, hentities, DiagramLine.text, Function.comp_def, List.map_flatMap]

theorem filterMap_attribute? (d : Diagram) :
    d.diagramLines.filterMap DiagramLine.attribute? = d.entities.flatMap Entity.attributes := by
  have hlinks : (d.relationships.map DiagramLine.link).filterMap DiagramLine.attribute? = [] := by
    simp [DiagramLine.attribute?]
  have hentity : ∀ e : Entity, e.diagramLines.filterMap DiagramLine.attribute? = e.attributes := by
    intro e
    have hid : DiagramLine.attribute? ∘ DiagramLine.entry = some := rfl
    simp [Entity.diagramLines, List.filterMap_cons, DiagramLine.attribute?, hid]
  rw [diagramLines, List.filterMap_cons_none rfl, List.filterMap_append, hlinks, List.append_nil,
    List.filterMap_flatMap]
  simp only [hentity]

theorem filterMap_relationship? (d : Diagram) :
    d.diagramLines.filterMap DiagramLine.relationship? = d.relationships := by
  have hnone : (d.entities.flatMap Entity.diagramLines).filterMap DiagramLine.relationship? =
      [] := by
    simp [List.filterMap_flatMap, DiagramLine.relationships_diagramLines]
  rw [diagramLines, List.filterMap_cons_none rfl, List.filterMap_append, hnone, List.nil_append,
    List.filterMap_map]
  exact List.filterMap_some

theorem ofLines_diagramLines (d : Diagram) : ofLines d.diagramLines = d := by
  have hentities : ∀ es : List Entity,
      DiagramLine.entities (es.flatMap Entity.diagramLines ++ d.relationships.map .link) = es := by
    intro es
    induction es with
    | nil => exact DiagramLine.entities_links _
    | cons e es ih =>
      rw [List.flatMap_cons, List.append_assoc, DiagramLine.entities_append, ih]
  rw [ofLines, filterMap_relationship?, diagramLines, DiagramLine.entities, hentities]
  simp

theorem Legible.newline_not_mem (h : d.Legible) : ∀ line ∈ d.lines, '\n' ∉ line.toList := by
  intro line hline
  rw [lines_eq] at hline
  obtain ⟨said, hsaid, rfl⟩ := List.mem_map.mp hline
  exact (h said hsaid).newline_not_mem

theorem Legible.pieces_text (h : d.Legible) :
    pieces (· == '\n') d.text.toList = d.lines.map String.toList ++ [[]] :=
  pieces_unlines h.newline_not_mem

/-- Line by line, the text of a legible diagram is read as it was meant, and nothing else is in it
than the empty rest behind the last line feed. -/
theorem Legible.map_ofChars?_text (h : d.Legible) :
    (pieces (· == '\n') d.text.toList).map DiagramLine.ofChars? =
      d.diagramLines.map some ++ [none] := by
  rw [h.pieces_text, lines_eq, List.map_append, List.map_map, List.map_map]
  congr 1
  exact List.map_congr_left fun line hline => DiagramLine.ofChars?_text (h line hline)

theorem Legible.filterMap_ofChars?_text (h : d.Legible) :
    (pieces (· == '\n') d.text.toList).filterMap DiagramLine.ofChars? = d.diagramLines := by
  have hid := congrArg (List.filterMap id) h.map_ofChars?_text
  simpa [List.filterMap_map, Function.comp_def] using hid

theorem Legible.ofText_text (h : d.Legible) : ofText d.text = d := by
  rw [ofText, h.filterMap_ofChars?_text, ofLines_diagramLines]

theorem length_lines (d : Diagram) :
    d.lines.length = 1 + 2 * d.entities.length + (d.entities.flatMap Entity.attributes).length +
      d.relationships.length := by
  have hentities : (d.entities.flatMap Entity.lines).length =
      2 * d.entities.length + (d.entities.flatMap Entity.attributes).length := by
    induction d.entities with
    | nil => rfl
    | cons e es ih =>
      have he : e.lines.length = 2 + e.attributes.length := by
        simp [Entity.lines]
        omega
      simp only [List.flatMap_cons, List.length_append, List.length_cons, ih, he]
      omega
  simp only [lines, List.length_append, List.length_cons, List.length_map, hentities]
  omega

end Diagram

end EntityDiagram

import EntityDiagram.Proofs.CanonicalSource
import EntityDiagram.Proofs.DiagramText
import EntityDiagram.Proofs.MutualReference

namespace EntityDiagram

namespace Schema

def modelText? (s : Schema) (name : String) : Option String :=
  (s.models.find? name).map fun m => (s.entityOf m).text

def enumText? (s : Schema) (name : String) : Option String :=
  (s.enums.find? name).map fun e => e.toEntity.text

/-- The diagrams of two schemas differ in nothing but the order of their models, of their
enumerations and of their links, and the links of one model keep their order. -/
structure DrawnAlike (s t : Schema) : Prop where
  modelText? : ∀ name, s.modelText? name = t.modelText? name
  enumText? : ∀ name, s.enumText? name = t.enumText? name
  models : (s.models.toList.map s.entityOf).Perm (t.models.toList.map t.entityOf)
  enums : (s.enums.toList.map Enumeration.toEntity).Perm (t.enums.toList.map Enumeration.toEntity)
  relationships : s.relationships.Perm t.relationships
  linksOf : ∀ left,
    s.relationships.filter (·.left == left) = t.relationships.filter (·.left == left)

theorem diagram_text_eq (s : Schema) :
    s.diagram.text = unlines [Diagram.heading] ++
      String.join ((s.models.toList.map s.entityOf).map Entity.text) ++
      String.join ((s.enums.toList.map Enumeration.toEntity).map Entity.text) ++
      unlines (s.relationships.map Relationship.line) :=
  s.text_diagramWith s.relationships

theorem filter_flatMap_drawn? (s : Schema) (left : String) (ms : List Model) :
    (ms.flatMap fun m => m.fields.filterMap (s.drawn? m)).filter (·.left == left) =
      (ms.filter (Named.name · == left)).flatMap fun m => m.fields.filterMap (s.drawn? m) := by
  induction ms with
  | nil => rfl
  | cons m ms ih =>
    have hleft : ∀ r ∈ m.fields.filterMap (s.drawn? m), r.left = m.name := by
      intro r hr
      obtain ⟨f, _, hd⟩ := List.mem_filterMap.mp hr
      exact left_of_drawn? hd
    rw [List.flatMap_cons, List.filter_append, ih]
    by_cases hname : Named.name m = left
    · have hall : (m.fields.filterMap (s.drawn? m)).filter (·.left == left) =
          m.fields.filterMap (s.drawn? m) :=
        List.filter_eq_self.mpr fun r hr => beq_iff_eq.mpr ((hleft r hr).trans hname)
      rw [hall, List.filter_cons_of_pos (by simpa using hname), List.flatMap_cons]
    · have hnone : (m.fields.filterMap (s.drawn? m)).filter (·.left == left) = [] :=
        List.filter_eq_nil_iff.mpr fun r hr he =>
          hname ((hleft r hr).symm.trans (beq_iff_eq.mp he))
      rw [hnone, List.filter_cons_of_neg (by simpa using hname), List.nil_append]

/-- The links that start at a model are those that its own fields draw. -/
theorem filter_relationships_left (s : Schema) (left : String) :
    s.relationships.filter (·.left == left) =
      (s.models.find? left).toList.flatMap fun m => m.fields.filterMap (s.drawn? m) := by
  rw [relationships_eq_flatMap, filter_flatMap_drawn?, Catalog.filter_name]

namespace Same

variable {s t : Schema}

theorem finding?_eq (h : s.Same t) : s.finding? = t.finding? := by
  funext m f
  rw [finding?, finding?, h.1.find?_eq]

theorem drawn?_eq (h : s.Same t) : s.drawn? = t.drawn? := by
  funext m f
  rw [drawn?, drawn?, h.finding?_eq]

theorem entityOf_eq (h : s.Same t) : s.entityOf = t.entityOf := by
  funext m
  have hmodel : s.isModel = t.isModel := h.1.contains_eq
  rw [entityOf, entityOf, hmodel]

theorem drawnAlike (h : s.Same t) : s.DrawnAlike t where
  modelText? name := by rw [Schema.modelText?, Schema.modelText?, h.1.find?_eq, h.entityOf_eq]
  enumText? name := by rw [Schema.enumText?, Schema.enumText?, h.2.find?_eq]
  models := by
    rw [h.entityOf_eq]
    exact h.1.perm.map _
  enums := h.2.perm.map _
  relationships := by
    rw [relationships_eq_flatMap, relationships_eq_flatMap, h.drawn?_eq]
    exact h.1.perm.flatMap_right _
  linksOf left := by
    rw [filter_relationships_left, filter_relationships_left, h.1.find?_eq, h.drawn?_eq]

theorem eq_of_names_eq (h : s.Same t) (hmodels : s.models.names = t.models.names)
    (henums : s.enums.names = t.enums.names) : s = t :=
  Schema.ext (h.1.eq_of_names_eq hmodels) (h.2.eq_of_names_eq henums)

end Same

/-- Blocks with distinct headers may be declared in any order. -/
theorem same_ofBlocks {bs cs : List Block} (h : (bs.map Block.header).Nodup) (hperm : bs.Perm cs) :
    (ofBlocks bs).Same (ofBlocks cs) := by
  rw [ofBlocks_eq_afterInsertions, ofBlocks_eq_afterInsertions]
  refine same_afterInsertions ?_ (hperm.map Block.toInsertion)
  rwa [List.map_map, Function.comp_def, funext Block.header_toInsertion]

/-- Schemas that declare the same are drawn alike, and alike to the letter if their names come in
the same order. So the blocks of a source may be put in any order, if none of them declares what
another one declares: the diagram stays made of the same entities and the same links. -/
theorem declaration_order_free :
    (∀ s t : Schema, s.Same t → s.DrawnAlike t ∧
      (s.models.names = t.models.names → s.enums.names = t.enums.names →
        s.diagram.text = t.diagram.text)) ∧
    (∀ a b, ((blocks (sourceRoles a)).map Block.header).Nodup →
      (blocks (sourceRoles a)).Perm (blocks (sourceRoles b)) →
        (ofSource a).Same (ofSource b) ∧ (ofSource a).DrawnAlike (ofSource b)) ∧
    (∀ source bs, (blocks (sourceRoles source)).Perm bs →
      blocks (sourceRoles (unlines (bs.flatMap Block.sourceLines))) = bs) ∧
    ∀ s : Schema, s.diagram.text = unlines [Diagram.heading] ++
      String.join ((s.models.toList.map s.entityOf).map Entity.text) ++
      String.join ((s.enums.toList.map Enumeration.toEntity).map Entity.text) ++
      unlines (s.relationships.map Relationship.line) := by
  refine ⟨?_, ?_, ?_, diagram_text_eq⟩
  · intro s t h
    exact ⟨h.drawnAlike, fun hmodels henums => by rw [h.eq_of_names_eq hmodels henums]⟩
  · intro a b hnodup hperm
    have hsame := same_ofBlocks hnodup hperm
    exact ⟨hsame, hsame.drawnAlike⟩
  · intro source bs hperm
    exact blocks_sourceRoles_unlines fun b hb => Block.wellFormed_of_mem (hperm.mem_iff.mpr hb)

end Schema

namespace Forum

def role : Block := ⟨⟨.enum, "User"⟩, ["ADMIN"]⟩

def usersFirst : String := unlines ([user.toBlock, role, post.toBlock].flatMap Block.sourceLines)

def postsFirst : String := unlines ([post.toBlock, user.toBlock, role].flatMap Block.sourceLines)

def postsFirstSchema : Schema := ⟨⟨[post, user], by decide⟩, Catalog.empty⟩

def redeclared : Schema :=
  ((Schema.empty.insertModel ⟨"User", []⟩).insertModel post).insertModel user

/-- Posts refer to users that are declared later or earlier, beside an enumeration that has its name
in common with a model. -/
theorem posts_first_drawn_alike :
    (schema.Same postsFirstSchema ∧ schema.DrawnAlike postsFirstSchema) ∧
    (schema.Same redeclared ∧ schema.models.names = redeclared.models.names ∧
      schema.enums.names = redeclared.enums.names ∧
      schema.diagram.text = redeclared.diagram.text) ∧
    ((blocks (sourceRoles usersFirst)).map Block.header).Nodup ∧
    (blocks (sourceRoles usersFirst)).Perm (blocks (sourceRoles postsFirst)) ∧
    (Schema.ofSource usersFirst).DrawnAlike (Schema.ofSource postsFirst) := by
  obtain ⟨hschemas, hsources, hblocks, _⟩ := Schema.declaration_order_free
  have hposts : schema.Same postsFirstSchema := by decide
  have hredeclared : schema.Same redeclared := by decide
  have hnames : schema.models.names = redeclared.models.names := by decide
  have husers : blocks (sourceRoles usersFirst) = [user.toBlock, role, post.toBlock] := by
    refine blocks_sourceRoles_unlines fun b hb => ?_
    have huser : user.WellFormed := by decide
    have hpost : post.WellFormed := by decide
    simp only [List.mem_cons, List.not_mem_nil, or_false] at hb
    rcases hb with rfl | rfl | rfl
    · exact huser.toBlock
    · exact ⟨by decide, by decide⟩
    · exact hpost.toBlock
  have hnodup : ((blocks (sourceRoles usersFirst)).map Block.header).Nodup := by
    rw [husers]
    decide
  have hmoved : (blocks (sourceRoles usersFirst)).Perm [post.toBlock, user.toBlock, role] := by
    rw [husers]
    decide
  have hperm : (blocks (sourceRoles usersFirst)).Perm (blocks (sourceRoles postsFirst)) := by
    rw [postsFirst, hblocks usersFirst _ hmoved]
    exact hmoved
  exact ⟨⟨hposts, (hschemas _ _ hposts).1⟩,
    ⟨hredeclared, hnames, rfl, (hschemas _ _ hredeclared).2 hnames rfl⟩,
    hnodup, hperm, (hsources _ _ hnodup hperm).2⟩

end Forum

end EntityDiagram

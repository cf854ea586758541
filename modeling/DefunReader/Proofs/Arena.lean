import DefunReader.Proofs.Numbering

/-! Where the branches of a shape lie in a tree that lists its nodes in their order, and that reading the tree from a
number on gives the branch back. -/
namespace DefunReader.Tree

open Shape (numbers listings counts)

variable {t : Tree} {above : Option Nat} {id parent : Nat} {shape : Shape} {kind : Node.Kind}
  {value : Option Node.Value} {span : Span} {children shapes : List Shape}

/-- A branch lies in the tree from a number on. -/
def Holds (t : Tree) (above : Option Nat) (id : Nat) (shape : Shape) : Prop :=
  ∃ before after, t.nodes.toList = before ++ (shape.listing above id ++ after) ∧ before.length = id

def HoldsAll (t : Tree) (parent id : Nat) (shapes : List Shape) : Prop :=
  ∃ before after, t.nodes.toList = before ++ (listings parent id shapes ++ after) ∧ before.length = id

theorem Lists.holds (lists : t.Lists shape) : t.Holds none root shape :=
  ⟨[], [], by rw [lists, List.append_nil, List.nil_append], rfl⟩

theorem HoldsAll.head (holds : t.HoldsAll parent id (shape :: shapes)) : t.Holds (some parent) id shape := by
  obtain ⟨before, after, nodes, length⟩ := holds
  rw [listings, List.append_assoc] at nodes
  exact ⟨before, _, nodes, length⟩

theorem HoldsAll.tail (holds : t.HoldsAll parent id (shape :: shapes)) :
    t.HoldsAll parent (id + shape.count) shapes := by
  obtain ⟨before, after, nodes, length⟩ := holds
  rw [listings, List.append_assoc, ← List.append_assoc before] at nodes
  exact ⟨_, after, nodes, by rw [List.length_append, Shape.length_listing, length]⟩

theorem HoldsAll.append {others : List Shape} (holds : t.HoldsAll parent id (shapes ++ others)) :
    t.HoldsAll parent id shapes ∧ t.HoldsAll parent (id + counts shapes) others := by
  obtain ⟨before, after, nodes, length⟩ := holds
  rw [Shape.listings_append, List.append_assoc] at nodes
  refine ⟨⟨before, _, nodes, length⟩, ⟨before ++ listings parent id shapes, after, ?_, ?_⟩⟩
  · rw [nodes, List.append_assoc]
  · rw [List.length_append, Shape.length_listings, length]

theorem Holds.node (holds : t.Holds above id (.node kind value span children)) :
    ∃ h, t.node id h = { kind, value, children := numbers (id + 1) children, parent := above, span } := by
  obtain ⟨before, after, nodes, length⟩ := holds
  have there : t.nodes[id]? = some { kind, value, children := numbers (id + 1) children, parent := above, span } := by
    rw [← Array.getElem?_toList, nodes, ← length, List.getElem?_append_right (Nat.le_refl _), Nat.sub_self,
      Shape.listing, List.cons_append, List.getElem?_cons_zero]
  obtain ⟨h, found⟩ := Array.getElem?_eq_some_iff.mp there
  exact ⟨h, found⟩

theorem Holds.inside (holds : t.Holds above id (.node kind value span children)) :
    t.HoldsAll id (id + 1) children := by
  obtain ⟨before, after, nodes, length⟩ := holds
  rw [Shape.listing, List.cons_append, List.append_cons] at nodes
  exact ⟨_, after, nodes, by rw [List.length_append, length, List.length_singleton]⟩

theorem HoldsAll.of_mem {child : Nat} (holds : t.HoldsAll parent id shapes) (member : child ∈ numbers id shapes) :
    ∃ shape ∈ shapes, t.Holds (some parent) child shape := by
  induction shapes generalizing id with
  | nil => cases member
  | cons shape shapes ih =>
    rcases List.mem_cons.mp member with rfl | member
    · exact ⟨shape, List.mem_cons_self, holds.head⟩
    · obtain ⟨other, among, held⟩ := ih holds.tail member
      exact ⟨other, List.mem_cons_of_mem _ among, held⟩

mutual

theorem Holds.shape_eq : {shape : Shape} → {above : Option Nat} → {id : Nat} → t.Holds above id shape →
    (h : id < t.size) → t.shape id h = shape
  | .node kind value span children, above, id, holds, h => by
    obtain ⟨_, found⟩ := holds.node
    have listed : t.children id h = numbers (id + 1) children := by rw [Tree.children, found]
    have bound : ∀ child ∈ t.children id h, child < t.size := fun _ member => (t.lt_of_mem_children member).2
    have inside : (t.children id h).pmap t.shape bound = children := by
      simp only [listed]
      exact holds.inside.shapes_eq _
    rw [List.pmap_eq_map_attach] at inside
    rw [Tree.shape, inside, found]

theorem HoldsAll.shapes_eq : {shapes : List Shape} → {parent id : Nat} → t.HoldsAll parent id shapes →
    (bound : ∀ child ∈ numbers id shapes, child < t.size) → (numbers id shapes).pmap t.shape bound = shapes
  | [], _, _, _, _ => rfl
  | shape :: shapes, parent, id, holds, bound => by
    simp only [numbers, List.pmap]
    rw [holds.head.shape_eq, holds.tail.shapes_eq]

end

end DefunReader.Tree

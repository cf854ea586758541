import Mathlib.Data.List.Range
import DefunReader.Proofs.Arena
import DefunReader.Proofs.Walk

/-! A tree that lists a shape is numbered by the walk that sees every node before its children: the branches lie next
to each other, and every number but the first stands in one list of children. -/
namespace DefunReader

namespace Shape

theorem count_pos (shape : Shape) : 0 < shape.count := by
  cases shape
  rw [count]
  exact Nat.succ_pos _

theorem le_of_mem_numbers {id child : Nat} {shapes : List Shape} (member : child ∈ numbers id shapes) : id ≤ child := by
  induction shapes generalizing id with
  | nil => cases member
  | cons shape shapes ih =>
    rcases List.mem_cons.mp member with rfl | member
    · exact Nat.le_refl _
    · have later := ih member
      omega

theorem numbers_increase (id : Nat) (shapes : List Shape) : (numbers id shapes).Pairwise (· < ·) := by
  induction shapes generalizing id with
  | nil => exact .nil
  | cons shape shapes ih =>
    apply List.Pairwise.cons _ (ih _)
    intro child member
    have later := le_of_mem_numbers member
    have some := shape.count_pos
    omega

theorem length_numbers (id : Nat) (shapes : List Shape) : (numbers id shapes).length = shapes.length := by
  induction shapes generalizing id with
  | nil => rfl
  | cons shape shapes ih => rw [numbers, List.length_cons, ih, List.length_cons]

mutual

/-- The children of all nodes of a branch are its numbers but the first. -/
theorem perm_listing (above : Option Nat) (id : Nat) : (shape : Shape) →
    (id :: (shape.listing above id).flatMap Node.children).Perm (List.range' id shape.count)
  | node kind value span children => by
    rw [listing, List.flatMap_cons, count, List.range'_succ]
    exact .cons _ (perm_listings id (id + 1) children)

theorem perm_listings (parent id : Nat) : (shapes : List Shape) →
    (numbers id shapes ++ (listings parent id shapes).flatMap Node.children).Perm (List.range' id (counts shapes))
  | [] => .nil
  | shape :: shapes => by
    have first := perm_listing (some parent) id shape
    have others := perm_listings parent (id + shape.count) shapes
    rw [numbers, listings, List.flatMap_append, counts, ← List.range'_append_1]
    refine .trans ?_ (first.append others)
    rw [List.cons_append, List.cons_append]
    refine .cons _ ?_
    rw [← List.append_assoc, ← List.append_assoc]
    exact List.perm_append_comm.append_right _

end

end Shape

namespace Tree

open Shape (numbers listings counts)

variable {t : Tree} {shape : Shape}

/-- A node without a parent is the root; any other is a child of its parent. -/
def Listed (t : Tree) : Option Nat → Nat → Prop
  | none, id => id = root
  | some parent, id => ∃ h, id ∈ t.children parent h

mutual

theorem Holds.within {P : Shape → Prop}
    (closed : ∀ {kind value span children}, P (.node kind value span children) → ∀ child ∈ children, P child) :
    {shape : Shape} → {above : Option Nat} → {id : Nat} → t.Holds above id shape → P shape → t.Listed above id →
      ∀ other, id ≤ other → other < id + shape.count →
        ∃ upper inner, t.Holds upper other inner ∧ P inner ∧ t.Listed upper other
  | .node kind value span children, above, id, holds, good, listed, other, least, most => by
    by_cases same : other = id
    · subst same
      exact ⟨above, _, holds, good, listed⟩
    · obtain ⟨h, found⟩ := holds.node
      apply HoldsAll.within closed holds.inside (closed good)
      · intro child member
        refine ⟨h, ?_⟩
        rw [Tree.children, found]
        exact member
      · omega
      · rw [Shape.count] at most
        omega

theorem HoldsAll.within {P : Shape → Prop}
    (closed : ∀ {kind value span children}, P (.node kind value span children) → ∀ child ∈ children, P child) :
    {shapes : List Shape} → {parent id : Nat} → t.HoldsAll parent id shapes → (∀ shape ∈ shapes, P shape) →
      (∀ child ∈ numbers id shapes, ∃ h, child ∈ t.children parent h) → ∀ other, id ≤ other →
        other < id + counts shapes → ∃ upper inner, t.Holds upper other inner ∧ P inner ∧ t.Listed upper other
  | [], _, _, _, _, _, _, least, most => by
    rw [counts] at most
    omega
  | shape :: shapes, parent, id, holds, good, listed, other, least, most => by
    rw [counts] at most
    by_cases inside : other < id + shape.count
    · exact holds.head.within closed (good _ List.mem_cons_self) (listed _ List.mem_cons_self) other least inside
    · apply holds.tail.within closed
      · intro shape member
        exact good _ (.tail _ member)
      · intro child member
        exact listed _ (.tail _ member)
      all_goals omega

end

mutual

theorem Holds.preorder_eq : {shape : Shape} → {above : Option Nat} → {id : Nat} → t.Holds above id shape →
    (h : id < t.size) → t.preorder id h = List.range' id shape.count
  | .node kind value span children, above, id, holds, h => by
    obtain ⟨_, found⟩ := holds.node
    have listed : t.children id h = numbers (id + 1) children := by rw [Tree.children, found]
    have bound : ∀ child ∈ t.children id h, child < t.size := fun _ member => (t.lt_of_mem_children member).2
    have inside : ((t.children id h).pmap t.preorder bound).flatten = List.range' (id + 1) (counts children) := by
      simp only [listed]
      exact holds.inside.preorders_eq _
    rw [List.pmap_eq_map_attach, ← List.flatMap_def] at inside
    rw [Tree.preorder, inside, Shape.count, List.range'_succ]

theorem HoldsAll.preorders_eq : {shapes : List Shape} → {parent id : Nat} → t.HoldsAll parent id shapes →
    (bound : ∀ child ∈ numbers id shapes, child < t.size) →
      ((numbers id shapes).pmap t.preorder bound).flatten = List.range' id (counts shapes)
  | [], _, _, _, _ => rfl
  | shape :: shapes, parent, id, holds, bound => by
    simp only [numbers, List.pmap, List.flatten_cons]
    rw [holds.head.preorder_eq, holds.tail.preorders_eq, counts, ← List.range'_append_1]

end

variable {id : Nat}

theorem Lists.size (lists : t.Lists shape) : t.size = shape.count := by
  rw [Tree.size, ← Array.length_toList, lists, Shape.length_listing]

theorem Lists.heads (lists : t.Lists shape) (h : id < t.size) : ∃ above inner, t.Holds above id inner ∧ t.Listed above id := by
  rw [lists.size] at h
  obtain ⟨above, inner, holds, -, listed⟩ := lists.holds.within (P := fun _ => True) (fun _ _ _ => trivial) trivial rfl id
    (Nat.zero_le id) ((Nat.zero_add _).symm ▸ h)
  exact ⟨above, inner, holds, listed⟩

theorem Holds.parent {above : Option Nat} (holds : t.Holds above id shape) (h : id < t.size) : t.parent? id h = above := by
  cases shape
  obtain ⟨_, found⟩ := holds.node
  rw [parent?, found]

theorem Lists.rooted (lists : t.Lists shape) (id : Nat) (h : id < t.size) : t.parent? id h = none ↔ id = root := by
  constructor
  · intro found
    obtain ⟨above, inner, holds, listed⟩ := lists.heads h
    cases (holds.parent h).symm.trans found
    exact listed
  · intro same
    subst same
    exact lists.holds.parent h

theorem Lists.linked (lists : t.Lists shape) : t.Linked := by
  intro id h child h'
  constructor
  · intro member
    obtain ⟨above, ⟨kind, value, span, children⟩, holds, -⟩ := lists.heads h
    obtain ⟨_, found⟩ := holds.node
    rw [Tree.children, found] at member
    obtain ⟨inner, -, held⟩ := holds.inside.of_mem member
    exact held.parent h'
  · intro found
    obtain ⟨above, inner, holds, listed⟩ := lists.heads h'
    cases (holds.parent h').symm.trans found
    exact listed.2

theorem Lists.listed (lists : t.Lists shape) (id : Nat) (h : id < t.size) :
    (t.nodes.toList.flatMap Node.children).count id = if id = root then 0 else 1 := by
  have once := (Shape.perm_listing none root shape).count_eq id
  have within : id ∈ List.range' root shape.count := by
    rw [List.mem_range'_1, ← lists.size]
    exact ⟨Nat.zero_le id, by rw [root]; omega⟩
  rw [List.count_cons, List.Nodup.count List.nodup_range', if_pos within] at once
  rw [lists]
  by_cases top : id = root
  · subst top
    simpa using once
  · simpa [top, Ne.symm top] using once

theorem Lists.increasing (lists : t.Lists shape) (id : Nat) (h : id < t.size) : (t.children id h).Pairwise (· < ·) := by
  obtain ⟨above, ⟨kind, value, span, children⟩, holds, -⟩ := lists.heads h
  obtain ⟨_, found⟩ := holds.node
  rw [Tree.children, found]
  exact Shape.numbers_increase _ _

theorem Lists.numbered (lists : t.Lists shape) : t.preorder root t.root_lt_size = List.range t.size := by
  rw [lists.holds.preorder_eq, List.range_eq_range', lists.size]
  rfl

theorem Lists.contiguous (lists : t.Lists shape) (id : Nat) (h : id < t.size) :
    ∃ count, t.preorder id h = List.range' id count ∧
      ∀ other h', (other = id ∨ id ∈ t.ancestors other h') ↔ id ≤ other ∧ other < id + count := by
  obtain ⟨above, inner, holds, -⟩ := lists.heads h
  refine ⟨inner.count, holds.preorder_eq h, ?_⟩
  intro other h'
  rw [← mem_preorder_iff lists.linked id h other h', holds.preorder_eq h, List.mem_range'_1]

end Tree

end DefunReader

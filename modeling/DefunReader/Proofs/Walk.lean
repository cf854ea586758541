import Mathlib.Data.List.Chain
import DefunReader.Tree

/-! Walks through a tree: down to everything below a node, and up through its ancestors. Both agree where children
and parents do. -/
namespace DefunReader.Tree

variable {t : Tree} {id parent other : Nat} {h : id < t.size}

/-- A node and everything below it, every node before its children. -/
def preorder (t : Tree) (id : Nat) (h : id < t.size) : List Nat :=
  id :: (t.children id h).attach.flatMap fun child =>
    have bounds := t.lt_of_mem_children child.2
    t.preorder child.1 bounds.2
termination_by t.size - id
decreasing_by exact Nat.sub_lt_sub_left h bounds.1

/-- Children and parents are the same links. -/
def Linked (t : Tree) : Prop :=
  ∀ id h child (h' : child < t.size), child ∈ t.children id h ↔ t.parent? child h' = some id

theorem ancestors_of_root (found : t.parent? id h = none) : t.ancestors id h = [] := by
  rw [ancestors]
  split <;> simp_all

theorem ancestors_of_child (found : t.parent? id h = some parent) :
    t.ancestors id h = parent :: t.ancestors parent (Nat.lt_trans (t.parent?_lt found) h) := by
  rw [ancestors]
  split
  · simp_all
  · rename_i above found'
    cases found.symm.trans found'
    rfl

theorem ancestors_decrease (t : Tree) (id : Nat) (h : id < t.size) : (id :: t.ancestors id h).Pairwise (· > ·) := by
  apply List.isChain_iff_pairwise.mp
  induction id using Nat.strongRecOn with
  | ind id ih =>
    cases found : t.parent? id h with
    | none =>
      rw [ancestors_of_root found]
      exact .singleton id
    | some parent =>
      rw [ancestors_of_child found]
      have below := t.parent?_lt found
      exact .cons_cons below (ih parent below _)

theorem ancestors_end (rooted : ∀ id h, t.parent? id h = none ↔ id = root) (id : Nat) (h : id < t.size) (proper : id ≠ root) :
    (t.ancestors id h).getLast? = some root := by
  induction id using Nat.strongRecOn with
  | ind id ih =>
    cases found : t.parent? id h with
    | none => exact absurd ((rooted id h).mp found) proper
    | some parent =>
      have below := t.parent?_lt found
      rw [ancestors_of_child found, List.getLast?_cons]
      by_cases top : parent = root
      · subst top
        rw [ancestors_of_root ((rooted root _).mpr rfl)]
        rfl
      · rw [ih parent below _ top]
        rfl

theorem mem_ancestors_iff {h : other < t.size} : id ∈ t.ancestors other h ↔
    ∃ parent h', t.parent? other h = some parent ∧ (parent = id ∨ id ∈ t.ancestors parent h') := by
  cases found : t.parent? other h with
  | none => simp [ancestors_of_root found]
  | some parent =>
    have below := Nat.lt_trans (t.parent?_lt found) h
    simp [ancestors_of_child found, below, eq_comm]

theorem ancestors_step {h : other < t.size} {h' : id < t.size} (member : id ∈ t.ancestors other h)
    (found : t.parent? id h' = some parent) : parent ∈ t.ancestors other h := by
  induction other using Nat.strongRecOn with
  | ind other ih =>
    obtain ⟨above, below, up, same | member⟩ := mem_ancestors_iff.mp member
    · subst same
      rw [ancestors_of_child up, ancestors_of_child found]
      exact .tail _ (.head _)
    · apply mem_ancestors_iff.mpr
      exact ⟨above, below, up, .inr (ih above (t.parent?_lt up) member)⟩

theorem mem_preorder_children : other ∈ t.preorder id h ↔
    other = id ∨ ∃ child h', child ∈ t.children id h ∧ other ∈ t.preorder child h' := by
  rw [preorder]
  simp only [List.mem_cons, List.mem_flatMap, List.mem_attach, true_and, Subtype.exists]
  constructor
  · intro either
    rcases either with same | ⟨child, member, inside⟩
    · exact .inl same
    · exact .inr ⟨child, _, member, inside⟩
  · intro either
    rcases either with same | ⟨child, _, member, inside⟩
    · exact .inl same
    · exact .inr ⟨child, member, inside⟩

theorem preorder_step {child : Nat} {h' : other < t.size} (inside : other ∈ t.preorder id h)
    (member : child ∈ t.children other h') : child ∈ t.preorder id h := by
  induction id, h using preorder.induct t with
  | case1 id h ih =>
    rcases mem_preorder_children.mp inside with same | ⟨next, below, listed, inside⟩
    · subst same
      apply mem_preorder_children.mpr
      refine .inr ⟨child, (t.lt_of_mem_children member).2, member, ?_⟩
      exact mem_preorder_children.mpr (.inl rfl)
    · exact mem_preorder_children.mpr (.inr ⟨next, below, listed, ih ⟨next, listed⟩ inside⟩)

theorem mem_preorder_iff (linked : t.Linked) (id : Nat) (h : id < t.size) (other : Nat) (h' : other < t.size) :
    other ∈ t.preorder id h ↔ other = id ∨ id ∈ t.ancestors other h' := by
  constructor
  · intro inside
    induction id, h using preorder.induct t with
    | case1 id h ih =>
      rcases mem_preorder_children.mp inside with same | ⟨child, below, listed, inside⟩
      · exact .inl same
      · have up := (linked id h child below).mp listed
        right
        rcases ih ⟨child, listed⟩ inside with same | member
        · subst same
          exact mem_ancestors_iff.mpr ⟨id, h, up, .inl rfl⟩
        · exact ancestors_step member up
  · intro either
    rcases either with same | member
    · exact mem_preorder_children.mpr (.inl same)
    · induction other using Nat.strongRecOn with
      | ind other ih =>
        obtain ⟨above, below, up, same | member⟩ := mem_ancestors_iff.mp member
        · subst same
          exact preorder_step (mem_preorder_children.mpr (.inl rfl)) ((linked above below other h').mpr up)
        · exact preorder_step (ih above (t.parent?_lt up) below member) ((linked above below other h').mpr up)

end DefunReader.Tree

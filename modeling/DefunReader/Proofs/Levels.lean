import DefunReader.Proofs.Walk
import DefunReader.Tree.Shape

/-! The levels of a branch: the nodes on its longest way down. A walk that calls itself for every child is nested so many
calls deep, and what stands above a node takes up the levels that are not below it. -/
namespace DefunReader

namespace Shape

mutual

def levels : Shape → Nat
  | node _ _ _ children => deepest children + 1

def deepest : List Shape → Nat
  | [] => 0
  | shape :: shapes => max shape.levels (deepest shapes)

end

theorem deepest_le_iff {bound : Nat} {shapes : List Shape} : deepest shapes ≤ bound ↔ ∀ shape ∈ shapes, shape.levels ≤ bound := by
  induction shapes with
  | nil => simp [deepest]
  | cons shape shapes ih => rw [deepest, Nat.max_le, ih, List.forall_mem_cons]

theorem levels_le_deepest {shape : Shape} {shapes : List Shape} (member : shape ∈ shapes) : shape.levels ≤ deepest shapes :=
  deepest_le_iff.mp (Nat.le_refl _) shape member

theorem deepest_append (shapes more : List Shape) : deepest (shapes ++ more) = max (deepest shapes) (deepest more) := by
  induction shapes with
  | nil => simp [deepest]
  | cons shape shapes ih => rw [List.cons_append, deepest, deepest, ih, Nat.max_assoc]

theorem levels_pos (shape : Shape) : 0 < shape.levels := by
  cases shape
  rw [levels]
  exact Nat.succ_pos _

end Shape

namespace Tree

variable (t : Tree) (id : Nat) (h : id < t.size)

def branch (id : Nat) : Shape :=
  if h : id < t.size then t.shape id h else .node .program none default []

theorem branch_of_lt : t.branch id = t.shape id h := by
  rw [branch, dif_pos h]

theorem shape_eq_branches : t.shape id h =
    .node (t.node id h).kind (t.node id h).value (t.node id h).span ((t.children id h).map t.branch) := by
  have listed := List.attach_map_subtype_val (t.children id h)
  rw [shape, ← congrArg (List.map t.branch) listed, List.map_map]
  congr 1
  apply List.map_congr_left
  intro child _
  have bounds := t.lt_of_mem_children child.2
  rw [Function.comp_apply, t.branch_of_lt child.1 bounds.2]

theorem levels_lt_of_mem_children {child : Nat} (h' : child < t.size) (member : child ∈ t.children id h) :
    (t.shape child h').levels < (t.shape id h).levels := by
  rw [t.shape_eq_branches id h, Shape.levels, ← t.branch_of_lt child h']
  exact Nat.lt_succ_of_le (Shape.levels_le_deepest (List.mem_map_of_mem member))

theorem add_levels_le_size : id + (t.shape id h).levels ≤ t.size := by
  induction id, h using Tree.shape.induct t with
  | case1 id h ih =>
    have below : Shape.deepest ((t.children id h).map t.branch) ≤ t.size - (id + 1) := by
      apply Shape.deepest_le_iff.mpr
      intro shape member
      obtain ⟨child, listed, rfl⟩ := List.mem_map.mp member
      have bounds := t.lt_of_mem_children listed
      have later : child + (t.shape child bounds.2).levels ≤ t.size := ih ⟨child, listed⟩
      rw [t.branch_of_lt child bounds.2]
      omega
    rw [shape_eq_branches, Shape.levels]
    omega

theorem levels_le_size : (t.shape id h).levels ≤ t.size := by
  have later := t.add_levels_le_size id h
  omega

variable {t id h}

/-- The nodes above a node and the levels below it are at most the levels of the tree. -/
theorem ancestors_add_levels_le (linked : t.Linked) (rooted : ∀ id h, t.parent? id h = none ↔ id = root) :
    (t.ancestors id h).length + (t.shape id h).levels ≤ (t.shape root t.root_lt_size).levels := by
  induction id using Nat.strongRecOn with
  | ind id ih =>
    cases found : t.parent? id h with
    | none =>
      have top := (rooted id h).mp found
      subst top
      rw [ancestors_of_root found, List.length_nil, Nat.zero_add]
    | some parent =>
      have below := t.parent?_lt found
      have inside := Nat.lt_trans below h
      have above := @ih parent below inside
      have less := t.levels_lt_of_mem_children parent inside h ((linked parent inside id h).mpr found)
      rw [ancestors_of_child found, List.length_cons]
      omega

end Tree

end DefunReader

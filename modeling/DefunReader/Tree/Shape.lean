import DefunReader.Tree

/-! The branch of a program tree under a node, with its children in place of their numbers. -/
namespace DefunReader

inductive Shape where
  | node (kind : Node.Kind) (value : Option Node.Value) (span : Span) (children : List Shape)

def Tree.shape (t : Tree) (id : Nat) (h : id < t.size) : Shape :=
  .node (t.node id h).kind (t.node id h).value (t.node id h).span
    ((t.children id h).attach.map fun child =>
      have bounds := t.lt_of_mem_children child.2
      t.shape child.1 bounds.2)
termination_by t.size - id
decreasing_by exact Nat.sub_lt_sub_left h bounds.1

end DefunReader

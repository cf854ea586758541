import DefunReader.Node

/-! Program trees as numbered nodes. Node 0 is the root; a node is added behind all others as the last
child of one already there, so parents come before their children and every number is below the size. -/
namespace DefunReader

structure Tree where
  nodes : Array Node
  rooted : 0 < nodes.size
  parent_lt : ∀ {id parent : Nat} {node : Node}, nodes[id]? = some node → node.parent = some parent → parent < id
  child_bounds : ∀ {id child : Nat} {node : Node},
    nodes[id]? = some node → child ∈ node.children → id < child ∧ child < nodes.size
deriving DecidableEq

namespace Tree

def root : Nat := 0

def size (t : Tree) : Nat := t.nodes.size

def isEmpty (t : Tree) : Bool := t.nodes.isEmpty

theorem root_lt_size (t : Tree) : root < t.size := t.rooted

def node (t : Tree) (id : Nat) (h : id < t.size) : Node :=
  t.nodes[id]

theorem getElem?_eq_node (t : Tree) {id : Nat} (h : id < t.size) : t.nodes[id]? = some (t.node id h) :=
  Array.getElem?_eq_getElem h

def children (t : Tree) (id : Nat) (h : id < t.size) : List Nat :=
  (t.node id h).children

def parent? (t : Tree) (id : Nat) (h : id < t.size) : Option Nat :=
  (t.node id h).parent

theorem parent?_lt (t : Tree) {id parent : Nat} {h : id < t.size} (found : t.parent? id h = some parent) :
    parent < id :=
  t.parent_lt (t.getElem?_eq_node h) found

theorem lt_of_mem_children (t : Tree) {id child : Nat} {h : id < t.size} (member : child ∈ t.children id h) :
    id < child ∧ child < t.size :=
  t.child_bounds (t.getElem?_eq_node h) member

/-- The nodes above a node, nearest first. -/
def ancestors (t : Tree) (id : Nat) (h : id < t.size) : List Nat :=
  match found : t.parent? id h with
  | none => []
  | some parent => parent :: t.ancestors parent (Nat.lt_trans (t.parent?_lt found) h)
termination_by id
decreasing_by exact t.parent?_lt found

def trail (t : Tree) (id : Nat) (h : id < t.size) : List Node.Kind :=
  (t.node id h).kind ::
    match found : t.parent? id h with
    | none => []
    | some parent => t.trail parent (Nat.lt_trans (t.parent?_lt found) h)
termination_by id
decreasing_by exact t.parent?_lt found

structure Definition where
  name : Nat
  parameters : List Nat
  body : List Nat
deriving DecidableEq

def definition? (t : Tree) (id : Nat) (h : id < t.size) : Option Definition :=
  match (t.node id h).kind, t.children id h with
  | .defun arity, name :: rest => if arity ≤ rest.length then some ⟨name, rest.take arity, rest.drop arity⟩ else none
  | _, _ => none

def seed (kind : Node.Kind) (span : Span) : Tree where
  nodes := #[{ kind, value := none, children := [], parent := none, span }]
  rooted := Nat.one_pos
  parent_lt {id parent node} found above := by
    cases id with
    | zero => cases found; cases above
    | succ => simp at found
  child_bounds {id child node} found member := by
    cases id with
    | zero => cases found; cases member
    | succ => simp at found

/-- Adds a leaf as the last child of `parent`; its number is the size before. -/
def addChild (t : Tree) (parent : Nat) (h : parent < t.size) (kind : Node.Kind) (value : Option Node.Value)
    (span : Span) : Tree where
  nodes := (t.nodes.modify parent fun node => { node with children := node.children ++ [t.size] }).push
    { kind, value, children := [], parent := some parent, span }
  rooted := by simp
  parent_lt {id above node} found up := by
    rw [Array.getElem?_push, Array.size_modify, Array.getElem?_modify] at found
    split at found
    · cases found
      cases up
      subst id
      exact h
    · split at found
      · obtain ⟨old, there, rfl⟩ := Option.map_eq_some_iff.mp found
        exact t.parent_lt there up
      · exact t.parent_lt found up
  child_bounds {id child node} found member := by
    rw [Array.size_push, Array.size_modify]
    rw [Array.getElem?_push, Array.size_modify, Array.getElem?_modify] at found
    split at found
    · cases found
      cases member
    · split at found
      · obtain ⟨old, there, rfl⟩ := Option.map_eq_some_iff.mp found
        rcases List.mem_append.mp member with earlier | new
        · exact (t.child_bounds there earlier).imp_right Nat.lt_succ_of_lt
        · cases List.mem_singleton.mp new
          subst id
          exact ⟨h, Nat.lt_succ_self _⟩
      · exact (t.child_bounds found member).imp_right Nat.lt_succ_of_lt

def setKind (t : Tree) (id : Nat) (kind : Node.Kind) : Tree where
  nodes := t.nodes.modify id fun node => { node with kind }
  rooted := by simpa using t.rooted
  parent_lt {here above node} found up := by
    rw [Array.getElem?_modify] at found
    split at found
    · obtain ⟨old, there, rfl⟩ := Option.map_eq_some_iff.mp found
      exact t.parent_lt there up
    · exact t.parent_lt found up
  child_bounds {here child node} found member := by
    rw [Array.size_modify]
    rw [Array.getElem?_modify] at found
    split at found
    · obtain ⟨old, there, rfl⟩ := Option.map_eq_some_iff.mp found
      exact t.child_bounds there member
    · exact t.child_bounds found member

@[simp] theorem size_addChild (t : Tree) (parent : Nat) (h : parent < t.size) (kind : Node.Kind)
    (value : Option Node.Value) (span : Span) : (t.addChild parent h kind value span).size = t.size + 1 := by
  simp [addChild, size]

@[simp] theorem size_setKind (t : Tree) (id : Nat) (kind : Node.Kind) : (t.setKind id kind).size = t.size := by
  simp [setKind, size]

end Tree

end DefunReader

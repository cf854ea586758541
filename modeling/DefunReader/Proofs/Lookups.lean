import DefunReader.Proofs.Growth
import DefunReader.Proofs.Levels
import DefunReader.Tree.Outline
import DefunReader.Tree.Sexp

/-! Queries by number. Here every node that is used is looked up among the nodes, and a number with no node is a fault, as is a
walk that goes on when its fuel is used up; nothing says that a number is below the size. In a tree there are no faults, and
the answers are those of the queries that are given a proof for every number. -/
namespace DefunReader

namespace Lookup

variable (nodes : Array Node)

def ancestors : Nat → Nat → Option (List Nat)
  | 0, _ => none
  | fuel + 1, id => do
    match (← nodes[id]?).parent with
    | some parent => return parent :: (← ancestors fuel parent)
    | none => return []

def kind (id : Nat) : Option Node.Kind := do
  return (← nodes[id]?).kind

def trail (fuel id : Nat) : Option (List Node.Kind) := do
  (id :: (← ancestors nodes fuel id)).mapM (kind nodes)

def definition? (id : Nat) : Option (Option Tree.Definition) := do
  let node ← nodes[id]?
  match node.kind, node.children with
  | .defun arity, name :: rest =>
    return if arity ≤ rest.length then some ⟨name, rest.take arity, rest.drop arity⟩ else none
  | _, _ => return none

def sexp : Nat → Nat → Option String
  | 0, _ => none
  | fuel + 1, id => do
    let node ← nodes[id]?
    match node.value with
    | some value => return value.text
    | none =>
      match ← definition? nodes id with
      | some definition =>
        let name ← sexp fuel definition.name
        let parameters ← definition.parameters.mapM (sexp fuel)
        let body ← definition.body.mapM (sexp fuel)
        return "(" ++ node.kind.name ++ " " ++ name ++ " (" ++ " ".intercalate parameters ++ ")" ++ Shape.spaced body ++ ")"
      | none =>
        let children ← node.children.mapM (sexp fuel)
        return "(" ++ node.kind.name ++ Shape.spaced children ++ ")"

def outline : Nat → Nat → Nat → Option (List String)
  | 0, _, _ => none
  | fuel + 1, depth, id => do
    let node ← nodes[id]?
    let below ← node.children.mapM (outline fuel (depth + 1))
    return (Shape.indentation depth ++ Shape.outlineEntry node.kind node.value node.span) :: below.flatten

end Lookup

theorem mapM_eq_some {α β : Type} {f : α → Option β} {g : α → β} {items : List α} (all : ∀ a ∈ items, f a = some (g a)) :
    items.mapM f = some (items.map g) := by
  induction items with
  | nil => rfl
  | cons a items ih =>
    obtain ⟨first, others⟩ := List.forall_mem_cons.mp all
    rw [List.mapM_cons, first, ih others]
    rfl

namespace Tree

variable (t : Tree) (id : Nat) (h : id < t.size)

theorem lookup_ancestors {fuel : Nat} (enough : id < fuel) :
    Lookup.ancestors t.nodes fuel id = some (t.ancestors id h) := by
  induction fuel generalizing id with
  | zero => exact absurd enough (Nat.not_lt_zero _)
  | succ fuel ih =>
    rw [Lookup.ancestors, t.getElem?_eq_node h]
    cases found : t.parent? id h with
    | none =>
      have none : (t.node id h).parent = none := found
      simp [none, ancestors_of_root found]
    | some parent =>
      have below := t.parent?_lt found
      have some : (t.node id h).parent = some parent := found
      simp [some, ancestors_of_child found, ih parent (Nat.lt_trans below h) (by omega)]

theorem lookup_kind : Lookup.kind t.nodes id = some (t.node id h).kind := by
  rw [Lookup.kind, t.getElem?_eq_node h]
  rfl

theorem lookup_trail {fuel : Nat} (enough : id < fuel) : Lookup.trail t.nodes fuel id = some (t.trail id h) := by
  induction id using Nat.strongRecOn with
  | ind id ih =>
    rw [Lookup.trail, t.lookup_ancestors id h enough]
    cases found : t.parent? id h with
    | none => simp [ancestors_of_root found, trail_of_root found, t.lookup_kind id h]
    | some parent =>
      have below := t.parent?_lt found
      have inside := Nat.lt_trans below h
      have above := ih parent below inside (Nat.lt_trans below enough)
      rw [Lookup.trail, t.lookup_ancestors parent inside (Nat.lt_trans below enough)] at above
      simp only [Option.bind_eq_bind, Option.bind_some] at above ⊢
      rw [ancestors_of_child found, trail_of_child found, List.mapM_cons, t.lookup_kind id h, above]
      rfl

theorem lookup_definition? : Lookup.definition? t.nodes id = some (t.definition? id h) := by
  rw [Lookup.definition?, t.getElem?_eq_node h]
  unfold definition? children
  generalize t.node id h = node
  rcases node with ⟨kind, value, children, parent, span⟩
  cases kind <;> cases children <;> rfl

theorem children_of_definition {definition : Definition} (found : t.definition? id h = some definition) :
    (t.node id h).kind = .defun definition.parameters.length ∧
      t.children id h = definition.name :: (definition.parameters ++ definition.body) := by
  unfold definition? at found
  split at found
  · rename_i arity name rest kind children
    split at found
    · rename_i fits
      cases found
      rw [kind, children, List.take_append_drop, List.length_take_of_le fits]
      exact ⟨rfl, rfl⟩
    · cases found
  · cases found

theorem formText_of_definition {definition : Definition} (found : t.definition? id h = some definition) (text : Nat → String) :
    Shape.formText (t.node id h).kind ((t.children id h).map text) =
      "(" ++ (t.node id h).kind.name ++ " " ++ text definition.name ++ " (" ++
        " ".intercalate (definition.parameters.map text) ++ ")" ++ Shape.spaced (definition.body.map text) ++ ")" := by
  obtain ⟨kind, children⟩ := t.children_of_definition id h found
  rw [kind, children]
  simp [Shape.formText]

theorem formText_of_none (none : t.definition? id h = none) (text : Nat → String) :
    Shape.formText (t.node id h).kind ((t.children id h).map text) =
      "(" ++ (t.node id h).kind.name ++ Shape.spaced ((t.children id h).map text) ++ ")" := by
  unfold definition? at none
  cases kind : (t.node id h).kind with
  | defun arity =>
    cases children : t.children id h with
    | nil => rfl
    | cons name rest =>
      simp only [kind, children, ite_eq_right_iff, reduceCtorEq, imp_false] at none
      simp [Shape.formText, none]
  | _ => rfl

/-- Children have fewer levels, so that looking them up takes less fuel. -/
theorem lookup_children {α : Type} {look : Nat → Option α} {read : Shape → α} {fuel : Nat}
    (enough : (t.shape id h).levels ≤ fuel + 1)
    (found : ∀ child h, (t.shape child h).levels ≤ fuel → look child = some (read (t.shape child h))) :
    ∀ child ∈ t.children id h, look child = some (read (t.branch child)) := by
  intro child member
  have bounds := t.lt_of_mem_children member
  have less := t.levels_lt_of_mem_children id h bounds.2 member
  rw [t.branch_of_lt child bounds.2]
  exact found child bounds.2 (by omega)

theorem lookup_sexp {fuel : Nat} (enough : (t.shape id h).levels ≤ fuel) :
    Lookup.sexp t.nodes fuel id = some (t.sexp id h) := by
  induction fuel generalizing id with
  | zero => exact absurd (t.shape id h).levels_pos (Nat.not_lt.mpr enough)
  | succ fuel ih =>
    have below := t.lookup_children id h enough ih
    rw [Lookup.sexp, t.getElem?_eq_node h, t.lookup_definition? id h, sexp, shape_eq_branches]
    cases value : (t.node id h).value with
    | some value => simp [value, Shape.sexp]
    | none =>
      rw [Shape.sexp, Shape.sexps_eq, List.map_map]
      cases found : t.definition? id h with
      | none =>
        have all := mapM_eq_some below
        rw [children] at all
        rw [formText_of_none t id h found]
        simp only [Option.bind_eq_bind, Option.bind_some, value, all]
        rfl
      | some definition =>
        -- What is looked up are its parts, which together are its children.
        obtain ⟨-, children⟩ := t.children_of_definition id h found
        rw [children, List.forall_mem_cons, List.forall_mem_append] at below
        obtain ⟨name, parameters, body⟩ := below
        rw [formText_of_definition t id h found]
        simp only [Option.bind_eq_bind, Option.bind_some, value, name, mapM_eq_some parameters, mapM_eq_some body]
        rfl

theorem lookup_outline {fuel depth : Nat} (enough : (t.shape id h).levels ≤ fuel) :
    Lookup.outline t.nodes fuel depth id = some ((t.shape id h).outline depth) := by
  induction fuel generalizing id depth with
  | zero => exact absurd (t.shape id h).levels_pos (Nat.not_lt.mpr enough)
  | succ fuel ih =>
    have below := mapM_eq_some (t.lookup_children id h enough fun child h => @ih child h (depth + 1))
    rw [children] at below
    rw [Lookup.outline, t.getElem?_eq_node h, shape_eq_branches]
    simp only [Option.bind_eq_bind, Option.bind_some, below, Shape.outline, Shape.outlines_eq, List.map_map]
    rfl

end Tree

end DefunReader

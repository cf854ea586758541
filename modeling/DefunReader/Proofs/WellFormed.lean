import DefunReader.Proofs.Acceptance
import DefunReader.Proofs.Branch
import DefunReader.Proofs.Preorder

/-! Trees of parsed texts: numbered in the order of a walk, linked both ways, and every node of the shape of its kind. -/
namespace DefunReader

namespace Tree

open Shape (numbers listings counts)
open Grammar (Item Branch Whole)

def Only (t : Tree) (allowed : Node.Kind → Bool) (ids : List Nat) : Prop :=
  ∀ id ∈ ids, ∃ h, allowed (t.node id h).kind

/-- A node has the value and the children that its kind asks for. -/
def Fits (t : Tree) (id : Nat) (h : id < t.size) : Prop :=
  let value := (t.node id h).value
  let children := t.children id h
  match (t.node id h).kind with
  | .program => id = root ∧ value = none ∧ children = [1]
  | .defun arity => id = 1 ∧ value = none ∧ ∃ name parameters body, t.definition? id h = some ⟨name, parameters, body⟩ ∧
      children = name :: (parameters ++ body) ∧ parameters.length = arity ∧
      (∀ leaf ∈ name :: parameters, ∃ h, (t.node leaf h).kind = .identifier ∧ t.children leaf h = []) ∧
      t.Only Node.Kind.isExpression body
  | .ifForm => value = none ∧ (children.length = 2 ∨ children.length = 3) ∧ t.Only Node.Kind.isExpression children
  | .quote => value = none ∧ children.length = 1 ∧ t.Only Node.Kind.isDatum children
  | .application => value = none ∧ 1 ≤ children.length ∧ t.Only Node.Kind.isExpression children
  | .list => value = none ∧ t.Only Node.Kind.isDatum children
  | .constant => children = [] ∧ ((∃ n, value = some (.number n)) ∨ ∃ b, value = some (.boolean b))
  | .identifier => children = [] ∧ ∃ name, value = some (.name name)

structure WellFormed (t : Tree) : Prop where
  program : (t.node root t.root_lt_size).kind = .program
  rooted : ∀ id h, t.parent? id h = none ↔ id = root
  linked : t.Linked
  earlier : ∀ id h parent, t.parent? id h = some parent → parent < id
  listed : ∀ id < t.size, (t.nodes.toList.flatMap Node.children).count id = if id = root then 0 else 1
  increasing : ∀ id h, (t.children id h).Pairwise (· < ·)
  numbered : t.preorder root t.root_lt_size = List.range t.size
  contiguous : ∀ id h, ∃ count, t.preorder id h = List.range' id count ∧
    ∀ other h', (other = id ∨ id ∈ t.ancestors other h') ↔ id ≤ other ∧ other < id + count
  decreasing : ∀ id h, (id :: t.ancestors id h).Pairwise (· > ·)
  ends : ∀ id h, id ≠ root → (t.ancestors id h).getLast? = some root
  defined : ∀ id h, (∃ arity, (t.node id h).kind = .defun arity) ↔ id = 1
  definition : ∀ id h, (t.definition? id h).isSome ↔ id = 1
  fits : ∀ id h, t.Fits id h

variable {t : Tree} {shape : Shape} {above : Option Nat} {id : Nat} {item : Item}

theorem Holds.kind (holds : t.Holds above id shape) : ∃ h, (t.node id h).kind = shape.kind := by
  cases shape
  obtain ⟨h, found⟩ := holds.node
  exact ⟨h, by rw [found, Shape.kind]⟩

theorem HoldsAll.only {parent : Nat} {shapes : List Shape} {allowed : Node.Kind → Bool}
    (holds : t.HoldsAll parent id shapes) (each : ∀ shape ∈ shapes, allowed shape.kind) :
    t.Only allowed (numbers id shapes) := by
  intro child member
  obtain ⟨shape, among, held⟩ := holds.of_mem member
  obtain ⟨h, kind⟩ := held.kind
  exact ⟨h, by rw [kind, each shape among]⟩

theorem Holds.fits_of_branch (holds : t.Holds above id shape) (branch : Branch item shape) (h : id < t.size) : t.Fits id h := by
  cases branch with
  | identifier =>
    obtain ⟨_, found⟩ := holds.node
    simp [Fits, Tree.children, found, numbers]
  | number | boolean =>
    obtain ⟨_, found⟩ := holds.node
    simp [Fits, Tree.children, found, numbers]
  | quote quoted =>
    obtain ⟨_, found⟩ := holds.node
    have only := holds.inside.only fun child member => List.mem_singleton.mp member ▸ quoted.isDatum
    simp [Fits, Tree.children, found, Shape.length_numbers, only]
  | ifForm parts each =>
    obtain ⟨_, found⟩ := holds.node
    have only := holds.inside.only fun child member => (each child member).isExpression
    simp [Fits, Tree.children, found, Shape.length_numbers, parts, only]
  | application applied each =>
    obtain ⟨_, found⟩ := holds.node
    have some := List.length_pos_iff.mpr applied
    have only := holds.inside.only fun child member => (each child member).isExpression
    simp [Fits, Tree.children, found, Shape.length_numbers, Nat.succ_le_of_lt some, only]
  | list each =>
    obtain ⟨_, found⟩ := holds.node
    have only := holds.inside.only fun child member => (each child member).isDatum
    simp [Fits, Tree.children, found, only]

theorem Holds.definition {arity : Nat} {value : Option Node.Value} {span : Span} {title : Shape}
    {formals expressions : List Shape} (arity_eq : formals.length = arity)
    (holds : t.Holds above id (.node (.defun arity) value span (title :: (formals ++ expressions)))) (h : id < t.size) :
    t.definition? id h = some ⟨id + 1, numbers (id + 1 + title.count) formals,
      numbers (id + 1 + title.count + counts formals) expressions⟩ := by
  obtain ⟨_, found⟩ := holds.node
  have split := Shape.numbers_append (id + 1 + title.count) formals expressions
  have length := Shape.length_numbers (id + 1 + title.count) formals
  have fits : arity ≤ (numbers (id + 1 + title.count) (formals ++ expressions)).length := by
    rw [Shape.length_numbers, List.length_append, arity_eq]
    exact Nat.le_add_right _ _
  simp only [definition?, Tree.children, found, numbers, fits, ↓reduceIte]
  rw [split, ← arity_eq, ← length, List.take_left, List.drop_left]

theorem definition?_of_kind {h : id < t.size} (other : ∀ arity, (t.node id h).kind ≠ .defun arity) :
    t.definition? id h = none := by
  unfold definition?
  split
  · rename_i found _
    exact absurd found (other _)
  · rfl

theorem Holds.fits_of_program {span : Span} {definition : Shape}
    (holds : t.Holds above root (.node .program none span [definition])) (h : root < t.size) : t.Fits root h := by
  obtain ⟨_, found⟩ := holds.node
  simp only [Fits, found]
  refine ⟨trivial, trivial, ?_⟩
  rw [Tree.children, found]
  rfl

theorem Holds.fits_of_definition {formals expressions : List Shape} {span : Span} {title : Shape}
    (holds : t.Holds above 1 (.node (.defun formals.length) none span (title :: (formals ++ expressions))))
    (named : ∀ name ∈ title :: formals, Branch .name name) (body : ∀ child ∈ expressions, Branch .expression child)
    (h : 1 < t.size) : t.Fits 1 h := by
  obtain ⟨_, found⟩ := holds.node
  have all := holds.inside
  rw [← List.cons_append] at all
  obtain ⟨names, others⟩ := all.append
  have leaves : ∀ leaf ∈ numbers (1 + 1) (title :: formals), ∃ h, (t.node leaf h).kind = .identifier ∧ t.children leaf h = [] := by
    intro leaf member
    obtain ⟨shape, among, held⟩ := names.of_mem member
    obtain ⟨name, span, rfl⟩ := (named shape among).name
    obtain ⟨h, found⟩ := held.node
    exact ⟨h, by rw [found], by rw [Tree.children, found, numbers]⟩
  have only := others.only fun child member => (body child member).isExpression
  rw [counts, ← Nat.add_assoc] at only
  have defined := holds.definition rfl h
  simp only [Fits, found]
  refine ⟨trivial, trivial, _, _, _, defined, ?_, Shape.length_numbers _ _, leaves, only⟩
  rw [Tree.children, found, numbers, Shape.numbers_append]

/-- Behind the program and its definition there are only branches. -/
theorem node_cases (lists : t.Lists shape) (whole : Whole shape) (id : Nat) (h : id < t.size) :
    (id = root ∧ (t.node id h).kind = .program ∧ t.Fits id h) ∨
    (id = 1 ∧ (∃ arity, (t.node id h).kind = .defun arity) ∧ t.Fits id h ∧ (t.definition? id h).isSome) ∨
    (1 < id ∧ ∃ above inner item, t.Holds above id inner ∧ Branch item inner) := by
  cases whole with
  | @intro span opening title formals expressions named body =>
    have definition : t.Holds (some root) 1 (.node (.defun formals.length) none opening (title :: (formals ++ expressions))) :=
      lists.holds.inside.head
    by_cases top : id = root
    · subst top
      obtain ⟨_, found⟩ := lists.holds.node
      exact .inl ⟨rfl, by rw [found], lists.holds.fits_of_program h⟩
    by_cases second : id = 1
    · subst second
      obtain ⟨_, found⟩ := definition.node
      refine .inr (.inl ⟨rfl, ⟨_, by rw [found]⟩, definition.fits_of_definition named body h, ?_⟩)
      rw [definition.definition rfl]
      rfl
    · obtain ⟨below, found⟩ := definition.node
      have branches : ∀ shape ∈ title :: (formals ++ expressions), ∃ item, Branch item shape := by
        intro shape member
        rw [← List.cons_append] at member
        rcases List.mem_append.mp member with name | child
        · exact ⟨.name, named shape name⟩
        · exact ⟨.expression, body shape child⟩
      have listed : ∀ child ∈ numbers (1 + 1) (title :: (formals ++ expressions)), ∃ h, child ∈ t.children 1 h := by
        intro child member
        refine ⟨below, ?_⟩
        rw [Tree.children, found]
        exact member
      have least : 1 + 1 ≤ id := by
        rw [root] at top
        omega
      have most : id < 1 + 1 + counts (title :: (formals ++ expressions)) := by
        rw [lists.size] at h
        simp only [Shape.count, counts] at h ⊢
        omega
      have inherited : ∀ {kind value span children}, (∃ item, Branch item (.node kind value span children)) →
          ∀ child ∈ children, ∃ item, Branch item child := by
        intro _ _ _ _ some
        obtain ⟨item, branch⟩ := some
        exact branch.children
      obtain ⟨above, inner, holds, ⟨item, branch⟩, -⟩ := definition.inside.within
        (P := fun shape => ∃ item, Branch item shape) inherited branches listed id least most
      exact .inr (.inr ⟨least, above, inner, item, holds, branch⟩)

theorem defined_iff (lists : t.Lists shape) (whole : Whole shape) (id : Nat) (h : id < t.size) :
    (∃ arity, (t.node id h).kind = .defun arity) ↔ id = 1 := by
  rcases node_cases lists whole id h with ⟨rfl, kind, -⟩ | ⟨rfl, kind, -⟩ | ⟨least, above, inner, item, holds, branch⟩
  · constructor
    · intro defines
      obtain ⟨arity, same⟩ := defines
      cases kind.symm.trans same
    · intro second
      cases second
  · simp [kind]
  · obtain ⟨_, kind⟩ := holds.kind
    have other := branch.kind_ne_defun
    rw [← kind] at other
    simp [other, Nat.ne_of_gt least]

theorem definition_iff (lists : t.Lists shape) (whole : Whole shape) (id : Nat) (h : id < t.size) :
    (t.definition? id h).isSome ↔ id = 1 := by
  constructor
  · intro some
    apply (defined_iff lists whole id h).mp
    by_contra other
    rw [definition?_of_kind fun arity same => other ⟨arity, same⟩] at some
    cases some
  · intro second
    subst second
    rcases node_cases lists whole 1 h with ⟨top, -⟩ | ⟨-, -, -, some⟩ | ⟨least, -⟩
    · cases top
    · exact some
    · omega

theorem wellFormed_of_whole (lists : t.Lists shape) (whole : Whole shape) : t.WellFormed where
  program := by
    rcases node_cases lists whole root t.root_lt_size with ⟨-, kind, -⟩ | ⟨second, -⟩ | ⟨least, -⟩
    · exact kind
    · cases second
    · cases least
  rooted := lists.rooted
  linked := lists.linked
  earlier := fun _ _ _ found => t.parent?_lt found
  listed := lists.listed
  increasing := lists.increasing
  numbered := lists.numbered
  contiguous := lists.contiguous
  decreasing := t.ancestors_decrease
  ends := t.ancestors_end lists.rooted
  defined := defined_iff lists whole
  definition := definition_iff lists whole
  fits := by
    intro id h
    rcases node_cases lists whole id h with ⟨-, -, fits⟩ | ⟨-, -, fits, -⟩ | ⟨-, above, inner, item, holds, branch⟩
    · exact fits
    · exact fits
    · exact holds.fits_of_branch branch h

end Tree

/-- Whatever a text is parsed to is numbered, linked and shaped as trees are. -/
theorem parse_well_formed {text : String} {limit : Nat} {tree : Tree} (parsed : parse text limit = .ok tree) :
    tree.WellFormed := by
  obtain ⟨tokens, shape, -, derived, lists⟩ := program_of_parse parsed
  exact Tree.wellFormed_of_whole lists (Grammar.whole_of_program derived)

theorem parse_well_formed_choice : ∃ tree, parse "(defun f (x) (if x '(1 #t) (f 2)))" 2 = .ok tree ∧ tree.WellFormed := by
  have accepted : (parse "(defun f (x) (if x '(1 #t) (f 2)))" 2).isOk := by decide +kernel
  cases parsed : parse "(defun f (x) (if x '(1 #t) (f 2)))" 2 with
  | ok tree => exact ⟨tree, rfl, parse_well_formed parsed⟩
  | error problem =>
    rw [parsed] at accepted
    cases accepted

end DefunReader

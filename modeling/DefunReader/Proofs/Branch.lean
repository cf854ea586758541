import DefunReader.Proofs.Grammar

/-! The branches that items stand for, whatever their tokens. -/
namespace DefunReader

namespace Grammar

inductive Branch : Item → Shape → Prop
  | identifier {item name span} (named : item ≠ .datum) : Branch item (.node .identifier (some (.name name)) span [])
  | number {item n span} (valued : item ≠ .name) : Branch item (.node .constant (some (.number n)) span [])
  | boolean {item b span} (valued : item ≠ .name) : Branch item (.node .constant (some (.boolean b)) span [])
  | quote {span shape} (quoted : Branch .datum shape) : Branch .expression (.node .quote none span [shape])
  | ifForm {span children} (parts : children.length = 2 ∨ children.length = 3)
      (each : ∀ child ∈ children, Branch .expression child) : Branch .expression (.node .ifForm none span children)
  | application {span children} (applied : children ≠ []) (each : ∀ child ∈ children, Branch .expression child) :
      Branch .expression (.node .application none span children)
  | list {span children} (each : ∀ child ∈ children, Branch .datum child) : Branch .datum (.node .list none span children)

def Phrase.item : Phrase → Item
  | one item | many item => item

theorem branch_of_derives {phrase : Phrase} {room : Nat} {tokens : List Token.Placed} {shapes : List Shape}
    (derived : Derives phrase room tokens shapes) : ∀ shape ∈ shapes, Branch phrase.item shape := by
  induction derived with
  | nil => exact List.forall_mem_nil _
  | cons _ _ head tail => exact List.forall_mem_cons.mpr ⟨List.forall_mem_singleton.mp head, tail⟩
  | identifier named => exact List.forall_mem_singleton.mpr (.identifier named)
  | number valued => exact List.forall_mem_singleton.mpr (.number valued)
  | boolean valued => exact List.forall_mem_singleton.mpr (.boolean valued)
  | tick _ datum | quotation _ datum =>
    exact List.forall_mem_singleton.mpr (.quote (List.forall_mem_singleton.mp datum))
  | ifThen _ _ tested chosen =>
    have each := List.forall_mem_append.mpr ⟨tested, chosen⟩
    exact List.forall_mem_singleton.mpr (.ifForm (.inl rfl) each)
  | ifElse _ _ _ tested chosen otherwise =>
    have each := List.forall_mem_append.mpr ⟨tested, List.forall_mem_append.mpr ⟨chosen, otherwise⟩⟩
    exact List.forall_mem_singleton.mpr (.ifForm (.inr rfl) each)
  | application _ _ head tail =>
    have each := List.forall_mem_append.mpr ⟨head, tail⟩
    exact List.forall_mem_singleton.mpr (.application nofun each)
  | list _ items => exact List.forall_mem_singleton.mpr (.list items)

theorem Branch.children {item : Item} {kind : Node.Kind} {value : Option Node.Value} {span : Span}
    {children : List Shape} (branch : Branch item (.node kind value span children)) :
    ∀ child ∈ children, ∃ inner, Branch inner child := by
  cases branch with
  | identifier | number | boolean => exact List.forall_mem_nil _
  | quote quoted => exact List.forall_mem_singleton.mpr ⟨.datum, quoted⟩
  | ifForm _ each | application _ each =>
    intro child member
    exact ⟨.expression, each child member⟩
  | list each =>
    intro child member
    exact ⟨.datum, each child member⟩

end Grammar

def Node.Kind.isExpression : Kind → Bool
  | identifier | constant | ifForm | quote | application => true
  | program | defun _ | list => false

def Node.Kind.isDatum : Kind → Bool
  | constant | list => true
  | _ => false

def Shape.kind : Shape → Node.Kind
  | node kind _ _ _ => kind

namespace Grammar

theorem Branch.isExpression {shape : Shape} (branch : Branch .expression shape) : shape.kind.isExpression := by
  cases branch <;> rfl

theorem Branch.isDatum {shape : Shape} (branch : Branch .datum shape) : shape.kind.isDatum := by
  cases branch with
  | identifier named => contradiction
  | number | boolean | list => rfl

theorem Branch.kind_ne_defun {item : Item} {shape : Shape} (branch : Branch item shape) (arity : Nat) :
    shape.kind ≠ .defun arity := by
  cases branch <;> nofun

theorem Branch.name {shape : Shape} (branch : Branch .name shape) :
    ∃ name span, shape = .node .identifier (some (.name name)) span [] := by
  cases branch with
  | identifier => exact ⟨_, _, rfl⟩
  | number valued | boolean valued => contradiction

/-- The shape of a program: one definition of names and expressions. -/
inductive Whole : Shape → Prop
  | intro {span opening title formals expressions} (named : ∀ name ∈ title :: formals, Branch .name name)
      (body : ∀ child ∈ expressions, Branch .expression child) :
      Whole (.node .program none span [.node (.defun formals.length) none opening (title :: (formals ++ expressions))])

theorem whole_of_program {limit : Nat} {tokens : List Token.Placed} {shape : Shape} (derived : Program limit tokens shape) :
    Whole shape := by
  cases derived with
  | intro named declared defined =>
    have title := List.forall_mem_singleton.mp (branch_of_derives named)
    have formals := branch_of_derives declared
    exact .intro (List.forall_mem_cons.mpr ⟨title, formals⟩) (branch_of_derives defined)

end Grammar

end DefunReader

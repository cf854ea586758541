import DefunReader.Proofs.Legible
import DefunReader.Proofs.Location

/-! The one-line texts of parsed trees. They show the branches that they are made of, all but the spans. -/
namespace DefunReader

open Grammar (Derives Phrase)

def Token.Named (token : Token) : Prop :=
  ∀ name, token = .identifier name → Lexeme name.toList token

theorem named_of_lexeme {lexeme : List Char} {token : Token} (spelled : Lexeme lexeme token) : token.Named := by
  rintro name rfl
  have text : lexeme = name.toList := by
    cases spelled with
    | sign | identifier => exact String.toList_ofList.symm
  rwa [text] at spelled

theorem named_of_tokenize {text : String} {tokens : List Token.Placed} (read : tokenize text = .ok tokens) :
    ∀ placed ∈ tokens, placed.token.Named := by
  intro placed member
  obtain ⟨before, stretch, behind, -, stands⟩ := located_of_tokenize_ok read member
  intro name identified
  have proper : placed.token ≠ .finish := by
    simp [identified]
  rw [Answer.StandsAt, Token.StandsAt, if_neg proper] at stands
  exact named_of_lexeme stands.spelled name identified

section Derived

variable {tokens : List Token.Placed} {room limit : Nat}

theorem legible_of_derives {phrase : Phrase} {shapes : List Shape} (derived : Derives phrase room tokens shapes)
    (named : ∀ placed ∈ tokens, placed.token.Named) : ∀ shape ∈ shapes, Legible shape := by
  induction derived with
  | nil => exact List.forall_mem_nil _
  | cons _ _ head tail =>
    obtain ⟨first, rest⟩ := List.forall_mem_append.mp named
    exact List.forall_mem_cons.mpr ⟨List.forall_mem_singleton.mp (head first), tail rest⟩
  | @identifier item room name span _ =>
    have spelled := List.forall_mem_singleton.mp named name rfl
    exact List.forall_mem_singleton.mpr (@Legible.leaf (.name name) span spelled)
  | @number item room n span _ =>
    exact List.forall_mem_singleton.mpr (@Legible.leaf (.number n) span (lexeme_of_number n))
  | @boolean item room b span _ =>
    exact List.forall_mem_singleton.mpr (@Legible.leaf (.boolean b) span (lexeme_of_boolean b))
  | tick _ datum =>
    obtain ⟨-, quoted⟩ := List.forall_mem_cons.mp named
    exact List.forall_mem_singleton.mpr (.form (by simp) (datum quoted))
  | quotation _ datum =>
    simp only [List.forall_mem_cons, List.forall_mem_append] at named
    obtain ⟨-, -, quoted, -⟩ := named
    exact List.forall_mem_singleton.mpr (.form (by simp) (datum quoted))
  | ifThen _ _ tested chosen =>
    simp only [List.forall_mem_cons, List.forall_mem_append] at named
    obtain ⟨-, -, first, second, -⟩ := named
    exact List.forall_mem_singleton.mpr (.form (by simp) (List.forall_mem_append.mpr ⟨tested first, chosen second⟩))
  | ifElse _ _ _ tested chosen otherwise =>
    simp only [List.forall_mem_cons, List.forall_mem_append] at named
    obtain ⟨-, -, first, second, third, -⟩ := named
    have branches := List.forall_mem_append.mpr ⟨chosen second, otherwise third⟩
    exact List.forall_mem_singleton.mpr (.form (by simp) (List.forall_mem_append.mpr ⟨tested first, branches⟩))
  | application _ _ head tail =>
    simp only [List.forall_mem_cons, List.forall_mem_append] at named
    obtain ⟨-, operator, operands, -⟩ := named
    exact List.forall_mem_singleton.mpr (.form (by simp) (List.forall_mem_append.mpr ⟨head operator, tail operands⟩))
  | list _ items =>
    simp only [List.forall_mem_cons, List.forall_mem_append] at named
    obtain ⟨-, listed, -⟩ := named
    exact List.forall_mem_singleton.mpr (.form (by simp) (items listed))

theorem legible_of_program {shape : Shape} (derived : Grammar.Program limit tokens shape)
    (named : ∀ placed ∈ tokens, placed.token.Named) : Legible shape := by
  cases derived with
  | intro title declared defined =>
    simp only [List.forall_mem_cons, List.forall_mem_append] at named
    obtain ⟨-, -, name, -, parameters, -, body, -⟩ := named
    have titled := List.forall_mem_singleton.mp (legible_of_derives title name)
    have formals := legible_of_derives declared parameters
    exact .form (by simp) (List.forall_mem_singleton.mpr (.definition titled formals (legible_of_derives defined body)))

end Derived

theorem legible_of_parse {text : String} {limit : Nat} {tree : Tree} (parsed : parse text limit = .ok tree) (id : Nat)
    (h : id < tree.size) : Legible (tree.shape id h) := by
  obtain ⟨tokens, shape, read, derived, lists⟩ := program_of_parse parsed
  have legible := legible_of_program derived (named_of_tokenize read)
  have most : id < Tree.root + shape.count := by
    rw [← lists.size]
    exact Nat.lt_add_left Tree.root h
  obtain ⟨above, inner, holds, inside, -⟩ := lists.holds.within Legible.children legible rfl id (Nat.zero_le id) most
  rw [holds.shape_eq h]
  exact inside

/-- The text of a node shows the branch under it, and that of the root shows the tree, but for the spans: branches of parsed
trees that have the same text are the same, and those that are the same have the same text. -/
theorem sexp_faithful {text text' : String} {limit limit' : Nat} {tree tree' : Tree} (parsed : parse text limit = .ok tree)
    (parsed' : parse text' limit' = .ok tree') :
    (∀ id h id' h', tree.sexp id h = tree'.sexp id' h' ↔ (tree.shape id h).bare = (tree'.shape id' h').bare) ∧
    (tree.sexp Tree.root tree.root_lt_size = tree'.sexp Tree.root tree'.root_lt_size → tree.bare = tree'.bare) := by
  have faithful (id h id' h') : tree.sexp id h = tree'.sexp id' h' ↔ (tree.shape id h).bare = (tree'.shape id' h').bare :=
    (legible_of_parse parsed id h).sexp_eq_iff (legible_of_parse parsed' id' h')
  refine ⟨faithful, ?_⟩
  intro same
  have branches := (faithful _ _ _ _).mp same
  obtain ⟨-, shape, -, -, lists⟩ := program_of_parse parsed
  obtain ⟨-, shape', -, -, lists'⟩ := program_of_parse parsed'
  rw [lists.holds.shape_eq, lists'.holds.shape_eq] at branches
  rw [lists.bare, lists'.bare, branches]

theorem sexp_faithful_names : ∃ tree tree', parse "(defun LIST (IF) (if IF '(1) (LIST)))" 3 = .ok tree ∧
    parse "(defun LIST (IF)\n  (if IF (quote (1)) (LIST)))" 4 = .ok tree' ∧
    (∀ id h id' h', tree.sexp id h = tree'.sexp id' h' ↔ (tree.shape id h).bare = (tree'.shape id' h').bare) ∧
    (tree.sexp Tree.root tree.root_lt_size = tree'.sexp Tree.root tree'.root_lt_size → tree.bare = tree'.bare) := by
  have accepted {text : String} {limit : Nat} (ok : (parse text limit).isOk) : ∃ tree, parse text limit = .ok tree := by
    cases parsed : parse text limit with
    | ok tree => exact ⟨tree, rfl⟩
    | error problem =>
      rw [parsed] at ok
      cases ok
  have ticked : (parse "(defun LIST (IF) (if IF '(1) (LIST)))" 3).isOk := by decide +kernel
  have quoted : (parse "(defun LIST (IF)\n  (if IF (quote (1)) (LIST)))" 4).isOk := by decide +kernel
  obtain ⟨tree, parsed⟩ := accepted ticked
  obtain ⟨tree', parsed'⟩ := accepted quoted
  exact ⟨tree, tree', parsed, parsed', sexp_faithful parsed parsed'⟩

end DefunReader

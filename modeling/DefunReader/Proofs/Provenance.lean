import Mathlib.Data.List.Forall2
import DefunReader.Proofs.Acceptance
import DefunReader.Proofs.Branch
import DefunReader.Proofs.Preorder

/-! Where the nodes of a tree come from: node by node, in the order of their numbers, from the tokens of the text. Only
closing parentheses, words, the end and the parenthesis of the parameter list have no node. -/
namespace DefunReader

open Grammar (startsItem Derives Phrase Item)
open Shape (numbers listings)

/-- Tokens with the token behind each; the last one has none. -/
def followed (tokens : List Token.Placed) : List (Token.Placed × Token.Placed) :=
  tokens.zip tokens.tail

def starters (pairs : List (Token.Placed × Token.Placed)) : List (Token.Placed × Token.Placed) :=
  pairs.filter fun pair => startsItem pair.1.token

/-- The tokens of a program that have nodes. The fourth opens the parameter list. -/
def nodeTokens (tokens : List Token.Placed) : List (Token.Placed × Token.Placed) :=
  starters ((followed tokens).eraseIdx 3)

def Token.value? : Token → Option Node.Value
  | number n => some (.number n)
  | boolean b => some (.boolean b)
  | identifier name => some (.name name)
  | _ => none

/-- What is quoted in these kinds of nodes is no expression. -/
def Node.Kind.holdsData : Node.Kind → Bool
  | quote | list => true
  | _ => false

/-- The kind of node that a token becomes; that of a parenthesis shows in the token behind it, or in the node around. -/
def Token.Becomes (token : Token) (above : Option Node.Kind) (next : Token) (kind : Node.Kind) : Prop :=
  match token with
  | number _ | boolean _ => kind = .constant
  | identifier _ => kind = .identifier
  | quote true => kind = .quote
  | leftParen =>
    match next with
    | .defunWord => ∃ arity, kind = .defun arity
    | .ifWord => kind = .ifForm
    | .quote false => kind = .quote
    | _ => kind = if above.any Node.Kind.holdsData then .list else .application
  | _ => False

def Tree.kindAbove (t : Tree) (node : Node) : Option Node.Kind :=
  (node.parent.bind (t.nodes[·]?)).map Node.kind

/-- The node is the one that the token becomes. -/
structure Tree.ComesFrom (t : Tree) (pair : Token.Placed × Token.Placed) (node : Node) : Prop where
  span : node.span = pair.1.span
  value : node.value = pair.1.token.value?
  kind : pair.1.token.Becomes (t.kindAbove node) pair.2.token node.kind

section Followed

variable {first more : List Token.Placed} {placed next : Token.Placed}

theorem followed_cons : followed (placed :: next :: more) = (placed, next) :: followed (next :: more) := rfl

theorem followed_append : followed (first ++ next :: more) = followed (first ++ [next]) ++ followed (next :: more) := by
  induction first with
  | nil => rfl
  | cons placed first ih =>
    cases first with
    | nil => rfl
    | cons second first =>
      simp only [List.cons_append, followed_cons] at ih ⊢
      rw [ih]

theorem starters_take (starts : startsItem placed.token) :
    starters (followed (placed :: next :: more)) = (placed, next) :: starters (followed (next :: more)) := by
  simp only [followed_cons, starters, List.filter_cons, starts, ↓reduceIte]

theorem starters_skip (mute : startsItem placed.token = false) :
    starters (followed (placed :: more)) = starters (followed more) := by
  cases more with
  | nil => rfl
  | cons next more => simp only [followed_cons, starters, List.filter_cons, mute, Bool.false_eq_true, ↓reduceIte]

theorem starters_append : starters (followed (first ++ next :: more)) =
    starters (followed (first ++ [next])) ++ starters (followed (next :: more)) := by
  rw [followed_append, starters, List.filter_append, starters, starters]

theorem nodeTokens_of_head {a b c d : Token.Placed} (some : more ≠ []) :
    nodeTokens (a :: b :: c :: d :: more) = starters [(a, b), (b, c), (c, d)] ++ starters (followed more) := by
  obtain ⟨next, others, rfl⟩ := List.exists_cons_of_ne_nil some
  have erased : (followed (a :: b :: c :: d :: next :: others)).eraseIdx 3 =
      [(a, b), (b, c), (c, d)] ++ followed (next :: others) := rfl
  rw [nodeTokens, erased, starters, List.filter_append, starters, starters]

end Followed

theorem Grammar.Derives.front {phrase : Phrase} {room : Nat} {tokens more : List Token.Placed} {shapes : List Shape}
    {follow : Token.Placed} (derived : Derives phrase room tokens shapes) :
    ∃ next rest, tokens ++ follow :: more = next :: rest ∧ (startsItem next.token ∨ next = follow) := by
  cases phrase with
  | one item =>
    obtain ⟨placed, rest, rfl, starts⟩ := derived.starts
    exact ⟨placed, _, rfl, .inl starts⟩
  | many item =>
    cases derived with
    | nil => exact ⟨follow, more, rfl, .inr rfl⟩
    | cons head tail =>
      obtain ⟨placed, rest, rfl, starts⟩ := head.starts
      exact ⟨placed, _, rfl, .inl starts⟩

theorem becomes_plain {above : Option Node.Kind} {next : Token} {kind : Node.Kind} (plain : startsItem next ∨ next = .rightParen)
    (same : kind = if above.any Node.Kind.holdsData then .list else .application) :
    Token.leftParen.Becomes above next kind := by
  subst same
  cases next with
  | ifWord | defunWord | finish => rcases plain with starts | paren <;> contradiction
  | quote abbreviated =>
    cases abbreviated with
    | false => rcases plain with starts | paren <;> contradiction
    | true => rfl
  | _ => rfl

namespace Tree

variable {t : Tree} {parent id room : Nat} {kind above : Node.Kind} {span : Span} {shapes more : List Shape}
  {item inner : Item} {tokens rest : List Token.Placed} {placed next : Token.Placed}

def IsKind (t : Tree) (id : Nat) (kind : Node.Kind) : Prop :=
  ∃ h : id < t.size, (t.node id h).kind = kind

theorem kindAbove_of_isKind {node : Node} (isKind : t.IsKind parent above) (up : node.parent = some parent) :
    t.kindAbove node = some above := by
  obtain ⟨h, rfl⟩ := isKind
  rw [kindAbove, up, Option.bind_some, getElem?_eq_node _ h, Option.map_some]

def Suits (item : Item) (above : Node.Kind) : Prop :=
  above.holdsData = true ↔ item = .datum

/-- The nodes of the branches come from these tokens, one by one, whatever token follows. -/
def Traces (t : Tree) (item : Item) (tokens : List Token.Placed) (shapes : List Shape) : Prop :=
  ∀ parent id above follow, t.HoldsAll parent id shapes → t.IsKind parent above → Suits item above →
    List.Forall₂ t.ComesFrom (starters (followed (tokens ++ [follow]))) (listings parent id shapes)

theorem Traces.append (first : t.Traces item tokens shapes) (second : t.Traces item rest more) :
    t.Traces item (tokens ++ rest) (shapes ++ more) := by
  intro parent id above follow holds isKind suits
  obtain ⟨front, behind⟩ := holds.append
  obtain ⟨next, others, same⟩ := List.exists_cons_of_ne_nil (List.append_ne_nil_of_right_ne_nil rest (List.cons_ne_nil follow []))
  have later := second parent _ above follow behind isKind suits
  rw [same] at later
  rw [List.append_assoc, same, starters_append, Shape.listings_append]
  exact List.rel_append (first parent id above next front isKind suits) later

theorem traces_mute (token : Token) (span : Span) (mute : startsItem token = false) : t.Traces item [⟨token, span⟩] [] := by
  intro parent id above follow _ _ _
  rw [List.singleton_append, starters_skip mute]
  exact .nil

theorem Traces.word (inside : t.Traces item tokens shapes) (token : Token) (span : Span) (mute : startsItem token = false) :
    t.Traces item (⟨token, span⟩ :: tokens) shapes :=
  (traces_mute token span mute).append inside

theorem Traces.close (inside : t.Traces item tokens shapes) (closing : Span) :
    t.Traces item (tokens ++ [⟨.rightParen, closing⟩]) shapes := by
  have whole := inside.append (traces_mute .rightParen closing rfl)
  rwa [List.append_nil] at whole

theorem traces_leaf {token : Token} {value : Node.Value} (valued : token.value? = some value)
    (becomes : ∀ above next, token.Becomes above next kind) :
    t.Traces item [⟨token, span⟩] [.node kind (some value) span []] := by
  intro parent id above follow _ _ _
  have starts : startsItem token := by
    cases token <;> first | rfl | cases valued
  rw [List.singleton_append, starters_take starts]
  exact .cons ⟨rfl, valued.symm, becomes _ _⟩ .nil

theorem Traces.node {token : Token} (inside : t.Traces inner (next :: rest) shapes) (suits : Suits inner kind)
    (starts : startsItem token) (bare : token.value? = none)
    (becomes : ∀ above, Suits item above → token.Becomes (some above) next.token kind) :
    t.Traces item (⟨token, span⟩ :: next :: rest) [.node kind none span shapes] := by
  intro parent id above follow holds isKind outside
  obtain ⟨h, found⟩ := holds.head.node
  have children := inside id (id + 1) kind follow holds.head.inside ⟨h, by rw [found]⟩ suits
  simp only [List.cons_append] at children ⊢
  rw [starters_take starts, listings, listings, List.append_nil, Shape.listing]
  refine .cons ⟨rfl, bare.symm, ?_⟩ children
  rw [kindAbove_of_isKind isKind rfl]
  exact becomes above outside

theorem traces_of_derives {phrase : Phrase} (derived : Derives phrase room tokens shapes) :
    t.Traces phrase.item tokens shapes := by
  induction derived with
  | nil =>
    intro parent id above follow _ _ _
    exact .nil
  | cons _ _ head tail => exact head.append tail
  | identifier named => exact traces_leaf rfl fun _ _ => rfl
  | number valued => exact traces_leaf rfl fun _ _ => rfl
  | boolean valued => exact traces_leaf rfl fun _ _ => rfl
  | tick derived datum =>
    obtain ⟨placed, rest, rfl, -⟩ := derived.starts
    exact datum.node (by simp [Suits, Node.Kind.holdsData, Phrase.item]) rfl rfl fun _ _ => rfl
  | @quotation _ _ word closing _ _ _ datum =>
    have inside := (datum.close closing).word (.quote false) word rfl
    exact inside.node (by simp [Suits, Node.Kind.holdsData, Phrase.item]) rfl rfl fun _ _ => rfl
  | @ifThen _ _ word closing _ _ _ _ _ _ tested chosen =>
    have inside := ((tested.append chosen).close closing).word .ifWord word rfl
    rw [List.append_assoc] at inside
    exact inside.node (by simp [Suits, Node.Kind.holdsData, Phrase.item]) rfl rfl fun _ _ => rfl
  | @ifElse _ _ word closing _ _ _ _ _ _ _ _ _ tested chosen otherwise =>
    have inside := ((tested.append (chosen.append otherwise)).close closing).word .ifWord word rfl
    simp only [List.append_assoc] at inside
    exact inside.node (by simp [Suits, Node.Kind.holdsData, Phrase.item]) rfl rfl fun _ _ => rfl
  | @application _ _ closing _ _ _ _ derived _ head tail =>
    obtain ⟨placed, others, rfl, starts⟩ := derived.starts
    have inside := (head.append tail).close closing
    simp only [List.append_assoc, List.cons_append] at inside ⊢
    apply inside.node (by simp [Suits, Node.Kind.holdsData, Phrase.item]) rfl rfl
    intro above suits
    apply becomes_plain (.inl starts)
    simp_all [Suits, Phrase.item]
  | @list _ opening closing _ _ derived items =>
    have inside := items.close closing
    obtain ⟨next, others, same, front⟩ := @Derives.front _ _ _ [] _ ⟨.rightParen, closing⟩ derived
    rw [same] at inside ⊢
    apply inside.node (by simp [Suits, Node.Kind.holdsData, Phrase.item]) rfl rfl
    intro above suits
    apply becomes_plain
    · rcases front with starts | rfl
      · exact .inl starts
      · exact .inr rfl
    · simp_all [Suits, Phrase.item]

theorem Traces.asExpressions (names : t.Traces .name tokens shapes) : t.Traces .expression tokens shapes := by
  intro parent id above follow holds isKind suits
  exact names parent id above follow holds isKind (by simp_all [Suits])

theorem Lists.traces {limit : Nat} {shape : Shape} (lists : t.Lists shape) (derived : Grammar.Program limit tokens shape) :
    List.Forall₂ t.ComesFrom (nodeTokens tokens) t.nodes.toList.tail := by
  cases derived with
  | @intro opening word listOpening listClosing closing ending name parameters body title formals expressions named declared
      defined =>
    cases named with
    | number valued | boolean valued => contradiction
    | @identifier _ _ text span =>
      have definition : t.Holds (some root) 1 _ := lists.holds.inside.head
      obtain ⟨h, found⟩ := definition.node
      have isKind : t.IsKind 1 (.defun formals.length) := ⟨h, by rw [found]⟩
      have names : t.Traces .expression (parameters ++ [⟨.rightParen, listClosing⟩]) formals :=
        ((traces_of_derives declared).close listClosing).asExpressions
      have body' : t.Traces .expression (body ++ [⟨.rightParen, closing⟩]) expressions :=
        (traces_of_derives defined).close closing
      have inside := names.append body' 1 _ _ ⟨.finish, ending⟩ definition.inside.tail isKind
        (by simp [Suits, Node.Kind.holdsData])
      simp only [List.append_assoc, List.cons_append, List.nil_append] at inside ⊢
      rw [nodeTokens_of_head (List.append_ne_nil_of_right_ne_nil _ (List.cons_ne_nil _ _)), lists]
      simp only [Shape.listing, listings, List.tail_cons, List.append_nil, List.singleton_append]
      exact .cons ⟨rfl, rfl, _, rfl⟩ (.cons ⟨rfl, rfl, rfl⟩ inside)

end Tree

/-- The tree of a text has a root at the first token, and then one node for each token that has nodes, in their order. -/
theorem parse_provenance {text : String} {limit : Nat} {tree : Tree} (parsed : parse text limit = .ok tree) :
    ∃ tokens, tokenize text = .ok tokens ∧ tree.size = (nodeTokens tokens).length + 1 ∧
      (∀ i pair, (nodeTokens tokens)[i]? = some pair → ∃ h, tree.ComesFrom pair (tree.node (i + 1) h)) ∧
      tokens.head?.map Token.Placed.span = some (tree.node Tree.root tree.root_lt_size).span := by
  obtain ⟨tokens, shape, read, derived, lists⟩ := program_of_parse parsed
  have traced := lists.traces derived
  have size : tree.size = (nodeTokens tokens).length + 1 := by
    have rooted := tree.rooted
    rw [traced.length_eq, List.length_tail, Array.length_toList, Tree.size]
    omega
  refine ⟨tokens, read, size, ?_, ?_⟩
  · intro i pair found
    obtain ⟨h, rfl⟩ := List.getElem?_eq_some_iff.mp found
    have h' : i < tree.nodes.toList.tail.length := traced.length_eq ▸ h
    have comes := traced.get h h'
    rw [List.get_eq_getElem, List.get_eq_getElem, List.getElem_tail, Array.getElem_toList] at comes
    exact ⟨by omega, comes⟩
  · cases derived with
    | intro named declared defined =>
      obtain ⟨h, found⟩ := lists.holds.node
      rw [found]
      rfl

theorem parse_provenance_quotes : ∃ tree, parse "(defun f (x) '(1 (#t)))" 2 = .ok tree ∧
    ∃ tokens, tokenize "(defun f (x) '(1 (#t)))" = .ok tokens ∧ tree.size = (nodeTokens tokens).length + 1 ∧
      ∀ i pair, (nodeTokens tokens)[i]? = some pair → ∃ h, tree.ComesFrom pair (tree.node (i + 1) h) := by
  have accepted : (parse "(defun f (x) '(1 (#t)))" 2).isOk := by decide +kernel
  cases parsed : parse "(defun f (x) '(1 (#t)))" 2 with
  | ok tree =>
    obtain ⟨tokens, read, size, comes, -⟩ := parse_provenance parsed
    exact ⟨tree, rfl, tokens, read, size, comes⟩
  | error problem =>
    rw [parsed] at accepted
    cases accepted

end DefunReader

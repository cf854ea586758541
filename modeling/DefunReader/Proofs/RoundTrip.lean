import DefunReader.Proofs.Acceptance
import DefunReader.Proofs.Respan
import DefunReader.Proofs.Source

/-! Writing a program and parsing it are inverse: whatever the layout and the spelling of each quote, the tree has the
nodes of the program, and only the spans show how it was written. -/
namespace DefunReader

namespace Source

open Grammar (Derives Phrase)

def unplaced (token : Token) : Token.Placed := ⟨token, default⟩

mutual

theorem Datum.spelled : (datum : Datum) → ∀ token ∈ datum.tokens, token.Spelled
  | .number n => List.forall_mem_singleton.mpr (lexeme_of_number n)
  | .boolean b => List.forall_mem_singleton.mpr (lexeme_of_boolean b)
  | .list items => by
    have inside := Datum.all_spelled items
    simp only [Datum.tokens, List.forall_mem_cons, List.forall_mem_append]
    exact ⟨.leftParen, inside, .rightParen, nofun⟩

theorem Datum.all_spelled : (data : List Datum) → ∀ token ∈ Datum.allTokens data, token.Spelled
  | [] => List.forall_mem_nil _
  | datum :: data => List.forall_mem_append.mpr ⟨datum.spelled, Datum.all_spelled data⟩

end

mutual

theorem Expression.spelled : (expression : Expression) → ∀ token ∈ expression.tokens, token.Spelled
  | .number n => List.forall_mem_singleton.mpr (lexeme_of_number n)
  | .boolean b => List.forall_mem_singleton.mpr (lexeme_of_boolean b)
  | .identifier name => List.forall_mem_singleton.mpr name.spelled
  | .quote true datum => List.forall_mem_cons.mpr ⟨.tick, datum.spelled⟩
  | .quote false datum => by
    have quoted := datum.spelled
    simp only [Expression.tokens, List.forall_mem_cons, List.forall_mem_append]
    exact ⟨.leftParen, .quote, quoted, .rightParen, nofun⟩
  | .ifThen condition branch => by
    have tested := condition.spelled
    have chosen := branch.spelled
    simp only [Expression.tokens, List.forall_mem_cons, List.forall_mem_append]
    exact ⟨.leftParen, .ifWord, tested, chosen, .rightParen, nofun⟩
  | .ifElse condition branch other => by
    have tested := condition.spelled
    have chosen := branch.spelled
    have otherwise := other.spelled
    simp only [Expression.tokens, List.forall_mem_cons, List.forall_mem_append]
    exact ⟨.leftParen, .ifWord, tested, chosen, otherwise, .rightParen, nofun⟩
  | .application operator operands => by
    have head := operator.spelled
    have tail := Expression.all_spelled operands
    simp only [Expression.tokens, List.forall_mem_cons, List.forall_mem_append]
    exact ⟨.leftParen, head, tail, .rightParen, nofun⟩

theorem Expression.all_spelled : (expressions : List Expression) →
    ∀ token ∈ Expression.allTokens expressions, token.Spelled
  | [] => List.forall_mem_nil _
  | expression :: expressions =>
    List.forall_mem_append.mpr ⟨expression.spelled, Expression.all_spelled expressions⟩

end

theorem Program.spelled (program : Program) : ∀ token ∈ program.tokens, token.Spelled := by
  have parameters : ∀ token ∈ program.parameters.map Name.token, token.Spelled :=
    List.forall_mem_map.mpr fun name _ => name.spelled
  have body := Expression.all_spelled program.body
  simp only [Program.tokens, List.forall_mem_cons, List.forall_mem_append]
  exact ⟨.leftParen, .defunWord, program.name.spelled, .leftParen, parameters, .rightParen, body, .rightParen, nofun⟩

mutual

theorem Datum.derives : (datum : Datum) →
    Derives (.one .datum) datum.nesting (datum.tokens.map unplaced) [datum.shape]
  | .number n => .number nofun
  | .boolean b => .boolean nofun
  | .list items => by
    rw [Datum.tokens, List.map_cons, List.map_append]
    exact .list (Datum.all_derive items)

theorem Datum.all_derive : (data : List Datum) →
    Derives (.many .datum) (Datum.maxNesting data) ((Datum.allTokens data).map unplaced) (Datum.shapes data)
  | [] => .nil
  | datum :: data => by
    have head := datum.derives.mono (Nat.le_max_left _ (Datum.maxNesting data))
    have tail := (Datum.all_derive data).mono (Nat.le_max_right datum.nesting _)
    rw [Datum.allTokens, List.map_append]
    exact .cons head tail

end

mutual

theorem Expression.derives : (expression : Expression) →
    Derives (.one .expression) expression.nesting (expression.tokens.map unplaced) [expression.shape]
  | .number n => .number nofun
  | .boolean b => .boolean nofun
  | .identifier name => .identifier nofun
  | .quote true datum => .tick datum.derives
  | .quote false datum => by
    simp only [Expression.tokens, List.map_cons, List.map_append]
    exact .quotation datum.derives
  | .ifThen condition branch => by
    have tested := condition.derives.mono (Nat.le_max_left _ branch.nesting)
    have chosen := branch.derives.mono (Nat.le_max_right condition.nesting _)
    simp only [Expression.tokens, List.map_cons, List.map_append]
    exact .ifThen tested chosen
  | .ifElse condition branch other => by
    have tested := condition.derives.mono (Nat.le_max_left _ (max branch.nesting other.nesting))
    have chosen := branch.derives.mono
      (Nat.le_trans (Nat.le_max_left _ other.nesting) (Nat.le_max_right condition.nesting _))
    have otherwise := other.derives.mono
      (Nat.le_trans (Nat.le_max_right branch.nesting _) (Nat.le_max_right condition.nesting _))
    simp only [Expression.tokens, List.map_cons, List.map_append]
    exact .ifElse tested chosen otherwise
  | .application operator operands => by
    have head := operator.derives.mono (Nat.le_max_left _ (Expression.maxNesting operands))
    have tail := (Expression.all_derive operands).mono (Nat.le_max_right operator.nesting _)
    simp only [Expression.tokens, List.map_cons, List.map_append]
    exact .application head tail

theorem Expression.all_derive : (expressions : List Expression) →
    Derives (.many .expression) (Expression.maxNesting expressions) ((Expression.allTokens expressions).map unplaced)
      (Expression.shapes expressions)
  | [] => .nil
  | expression :: expressions => by
    have head := expression.derives.mono (Nat.le_max_left _ (Expression.maxNesting expressions))
    have tail := (Expression.all_derive expressions).mono (Nat.le_max_right expression.nesting _)
    rw [Expression.allTokens, List.map_append]
    exact .cons head tail

end

theorem Name.derives (name : Name) (room : Nat) :
    Derives (.one .name) room [unplaced name.token] [name.shape] :=
  .identifier nofun

theorem Name.all_derive (names : List Name) (room : Nat) :
    Derives (.many .name) room ((names.map Name.token).map unplaced) (names.map Name.shape) := by
  induction names with
  | nil => exact .nil
  | cons name names ih => exact .cons (name.derives room) ih

theorem Program.derives (program : Program) :
    Grammar.Program program.nesting ((program.tokens ++ [Token.finish]).map unplaced) program.shape := by
  have named := program.name.derives program.nesting
  have declared := Name.all_derive program.parameters program.nesting
  have defined := Expression.all_derive program.body
  simp only [Program.tokens, List.cons_append, List.append_assoc, List.map_cons, List.map_append]
  rw [Program.shape, ← List.length_map Name.shape]
  exact .intro named declared defined

end Source

open Grammar (Alike)

namespace Source.Program

variable {program : Source.Program} {tokens : List Token.Placed} {shape : Shape} {limit : Nat}

/-- Tokens that are those of a program but for their places stand for the branch of the program but for its spans. -/
theorem bare_eq (same : tokens.map Token.Placed.token = program.tokens ++ [Token.finish])
    (derived : Grammar.Program limit tokens shape) : shape.bare = program.shape := by
  have unplaced : tokens.map Token.Placed.bare = (program.tokens ++ [Token.finish]).map Source.unplaced := by
    rw [← same, List.map_map]
    rfl
  have erased := derived.bare
  rw [unplaced] at erased
  exact erased.unique program.derives

theorem bare_of_parse {text : String} {tree : Tree} (layout : Layout program.tokens text.toList)
    (parsed : parse text limit = .ok tree) : tree.bare = program.shape.listing none Tree.root := by
  obtain ⟨placed, read, same⟩ := tokenize_of_layout layout program.spelled
  obtain ⟨others, shape, read', derived, lists⟩ := program_of_parse parsed
  cases read.symm.trans read'
  rw [lists.bare, bare_eq same derived]

theorem accepted {text : String} (layout : Layout program.tokens text.toList) (room : program.nesting ≤ limit) :
    ∃ tree, parse text limit = .ok tree := by
  obtain ⟨placed, read, same⟩ := tokenize_of_layout layout program.spelled
  have alike : Alike placed ((program.tokens ++ [Token.finish]).map Source.unplaced) := by
    rw [Alike, same, List.map_map]
    exact (List.map_id _).symm
  obtain ⟨shape, derived⟩ := program.derives.stands alike
  obtain ⟨tree, parsed, -⟩ := parse_of_program read (derived.mono room)
  exact ⟨tree, parsed⟩

end Source.Program

/-- However a program is laid out and its quotes are spelled, it is parsed under every limit that its forms keep, to the
nodes of its branch; so two texts of one branch give trees that differ in spans only. -/
theorem parse_layout (program : Source.Program) {text : String} (layout : Layout program.tokens text.toList) {limit : Nat}
    (room : program.nesting ≤ limit) :
    ∃ tree, parse text limit = .ok tree ∧ tree.bare = program.shape.listing none Tree.root ∧
      ∀ (respelled : Source.Program) (other : String) (room : Nat) (same : Tree), respelled.shape = program.shape →
        Layout respelled.tokens other.toList → parse other room = .ok same → same.bare = tree.bare := by
  obtain ⟨tree, parsed⟩ := Source.Program.accepted layout room
  have nodes := Source.Program.bare_of_parse layout parsed
  refine ⟨tree, parsed, nodes, ?_⟩
  intro respelled other room same branch layout' parsed'
  rw [Source.Program.bare_of_parse layout' parsed', branch, nodes]

theorem parse_layout_quotes : ∃ program : Source.Program,
    Layout program.tokens " ( defun f ( ) ( if ' ( -9223372036854775808 ) ( quote ( ) ) ) )".toList ∧
      program.nesting ≤ 3 ∧
      ∃ tree, parse " ( defun f ( ) ( if ' ( -9223372036854775808 ) ( quote ( ) ) ) )" 3 = .ok tree ∧
        tree.bare = program.shape.listing none Tree.root := by
  let program : Source.Program :=
    ⟨⟨"f", .identifier rfl nofun (by decide)⟩, [],
      [.ifThen (.quote true (.list [.number Int64.minValue])) (.quote false (.list []))]⟩
  have text : (program.tokens.flatMap fun token => ' ' :: token.spelling.toList) =
      " ( defun f ( ) ( if ' ( -9223372036854775808 ) ( quote ( ) ) ) )".toList := by
    decide +kernel
  have layout := Layout.spaced program.tokens
  rw [text] at layout
  have room : program.nesting ≤ 3 := by decide
  obtain ⟨tree, parsed, nodes, -⟩ := parse_layout program layout room
  exact ⟨program, layout, room, tree, parsed, nodes⟩

end DefunReader

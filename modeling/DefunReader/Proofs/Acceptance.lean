import DefunReader.Proofs.Arena
import DefunReader.Proofs.Contract
import DefunReader.Proofs.Unambiguous

/-! Parsing accepts exactly the programs of the grammar, and its tree is the only one that the grammar gives them. -/
namespace DefunReader

open Grammar (Program Agenda)

variable {text : String} {limit : Nat} {tree : Tree}

theorem program_of_parse (parsed : parse text limit = .ok tree) : ∃ tokens shape, tokenize text = .ok tokens ∧
    Program limit tokens shape ∧ tree.Lists shape := by
  have result := Reading.transcript_result text limit
  rw [parse] at parsed
  rw [parsed] at result
  exact result

theorem problem_of_parse {problem : Problem} (parsed : parse text limit = .error problem) :
    Agenda.problem? limit Agenda.start (Cursor.start text).drain.1 = some problem := by
  have result := Reading.transcript_result text limit
  rw [parse] at parsed
  rw [parsed] at result
  exact result

theorem problem?_of_program {tokens : List Token.Placed} {shape : Shape} (read : tokenize text = .ok tokens)
    (derived : Program limit tokens shape) :
    Agenda.problem? limit Agenda.start (Cursor.start text).drain.1 = none := by
  rw [tokenize_eq_ok_iff.mp read, ← List.append_nil (tokens.map _),
    Agenda.problem?_append (Agenda.steps_of_program derived), Agenda.problem?]

theorem shape_of_parse {tokens : List Token.Placed} {shape : Shape} {room : Nat} (parsed : parse text limit = .ok tree)
    (read : tokenize text = .ok tokens) (derived : Program room tokens shape) :
    tree.shape Tree.root tree.root_lt_size = shape := by
  obtain ⟨others, found, read', derived', lists⟩ := program_of_parse parsed
  cases read.symm.trans read'
  cases derived.unique derived'
  exact lists.holds.shape_eq tree.root_lt_size

theorem parse_of_program {tokens : List Token.Placed} {shape : Shape} (read : tokenize text = .ok tokens)
    (derived : Program limit tokens shape) : ∃ tree, parse text limit = .ok tree ∧ tree.Lists shape := by
  cases parsed : parse text limit with
  | error problem =>
    have refused := problem_of_parse parsed
    rw [problem?_of_program read derived] at refused
    cases refused
  | ok tree =>
    obtain ⟨others, other, read', derived', lists⟩ := program_of_parse parsed
    cases read.symm.trans read'
    cases derived.unique derived'
    exact ⟨tree, rfl, lists⟩

/-- A text is parsed if its tokens are a program that nests no deeper than the limit, and only then; whatever derivation
its tokens have, the tree is the one derived. -/
theorem parse_iff_program (text : String) (limit : Nat) :
    ((∃ tree, parse text limit = .ok tree) ↔
      ∃ tokens shape, tokenize text = .ok tokens ∧ Program limit tokens shape) ∧
    ∀ tree tokens room shape, parse text limit = .ok tree → tokenize text = .ok tokens → Program room tokens shape →
      tree.shape Tree.root tree.root_lt_size = shape := by
  constructor
  · constructor
    · intro accepted
      obtain ⟨tree, parsed⟩ := accepted
      obtain ⟨tokens, shape, read, derived, -⟩ := program_of_parse parsed
      exact ⟨tokens, shape, read, derived⟩
    · intro program
      obtain ⟨tokens, shape, read, derived⟩ := program
      cases parsed : parse text limit with
      | ok tree => exact ⟨tree, rfl⟩
      | error problem =>
        -- The agenda takes every program, and no reading stops where its agenda does not.
        have refused := problem_of_parse parsed
        rw [problem?_of_program read derived] at refused
        cases refused
  · intro tree tokens room shape
    exact shape_of_parse

end DefunReader

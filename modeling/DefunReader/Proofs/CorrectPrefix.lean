import DefunReader.Proofs.Acceptance
import DefunReader.Proofs.Refusal
import DefunReader.Proofs.Respan

/-! An unexpected token is the first that no program can have there. What was expected in its place can be gone on with,
and nothing behind the token matters. -/
namespace DefunReader

namespace Grammar

open Agenda (steps step unclosed start Blames)

/-- The forms and quoted lists that tokens leave open; the parenthesis of the definition is none of them. -/
def nesting (tokens : List Token.Placed) : Nat :=
  (tokens.map Token.Placed.token).count .leftParen - (tokens.map Token.Placed.token).count .rightParen - 1

variable {limit room : Nat} {before : List Token.Placed} {placed : Token.Placed} {goals : Agenda}

theorem nesting_of_steps (taken : steps limit start before = .ok goals) : nesting before = unclosed goals - 1 := by
  have same := Agenda.steps_unclosed taken
  have none : unclosed start = 0 := rfl
  rw [nesting]
  omega

theorem ready_of_steps (taken : steps limit start before = .ok goals) : Agenda.Ready goals.tail := by
  apply Agenda.steps_ready taken
  intro goal member
  cases List.mem_singleton.mp member
  rfl

theorem goals_ne_nil (taken : steps limit start before = .ok goals) (proper : ∀ placed ∈ before, placed.token ≠ .finish) :
    goals ≠ [] := by
  intro none
  subst none
  obtain ⟨shape, program⟩ := Agenda.program_of_completes (Agenda.steps_completes taken .nil)
  rw [List.append_nil] at program
  cases program with
  | @intro _ _ _ _ _ ending _ _ _ _ _ _ _ _ _ =>
    have last := proper ⟨.finish, ending⟩ (by simp)
    exact last rfl

/-- A token that is refused makes no program under any limit, wherever it and the tokens before it stand. -/
theorem not_program_of_refused {tokens : List Token.Placed} {shape : Shape} {expected : Expectation} {problem : Problem}
    (taken : steps limit start before = .ok goals) (refused : step limit goals placed = .error problem)
    (blames : Blames placed expected problem)
    (starts : (before ++ [placed]).map Token.Placed.token <+: tokens.map Token.Placed.token) : ¬Program room tokens shape := by
  intro program
  obtain ⟨later, same⟩ := starts
  obtain ⟨first, rest, rfl, alike, -⟩ := List.map_eq_append_iff.mp same.symm
  have elsewhere : Alike ((before ++ [placed]) ++ rest) (first ++ rest) := by
    simp only [Alike, List.map_append] at alike ⊢
    rw [alike]
  obtain ⟨shape, program⟩ := program.stands elsewhere
  -- Under the larger limit all tokens are taken, and the one behind `before` by the agenda that refuses it here.
  have all := Agenda.steps_of_program program
  rw [List.append_assoc] at all
  obtain ⟨middle, taken', all⟩ := Agenda.steps_append_ok all
  obtain ⟨next, first', -⟩ := Agenda.steps_cons_ok all
  cases Agenda.steps_of_room taken' taken
  obtain ⟨within, rfl⟩ := blames
  rcases Agenda.step_of_room first' with same | ⟨span, deep⟩
  · cases refused.symm.trans same
  · cases refused.symm.trans deep

theorem program_of_meets {item : List Token.Placed} {goal : Goal} {rest : Agenda} {expected : Expectation}
    (taken : steps limit start before = .ok (goal :: rest)) (fits : goal.opens → unclosed rest ≤ limit)
    (among : expected ∈ goal.expectations) (meets : Meets (limit - nesting before) expected item) :
    ∃ after shape, Program limit (before ++ item ++ after) shape := by
  have room : limit - nesting before ≤ limit + 1 - unclosed (goal :: rest) := by
    rw [nesting_of_steps taken]
    omega
  obtain ⟨after, completes⟩ := Agenda.completes_of_meets (ready_of_steps taken) fits among (meets.mono room)
  obtain ⟨shape, program⟩ := Agenda.program_of_completes (Agenda.steps_completes taken completes)
  exact ⟨after, shape, by rwa [List.append_assoc]⟩

end Grammar

open Grammar (Program Meets nesting Agenda)

/-- A problem stands at the first token that no program can have there, and expects what one can. -/
structure FirstWrong (limit : Nat) (before : List Token.Placed) (placed : Token.Placed) (expected : Expectation)
    (problem : Problem) : Prop where
  completable : ∀ item, Meets (limit - nesting before) expected item →
    ∃ after shape, Program limit (before ++ item ++ after) shape
  hopeless : ∀ room tokens shape, (before ++ [placed]).map Token.Placed.token <+: tokens.map Token.Placed.token →
    ¬Program room tokens shape
  settled : ∀ other : String, (before ++ [placed]).map .ok <+: (Cursor.start other).drain.1 →
    parse other limit = .error problem

theorem parse_of_problem {text : String} {limit : Nat} {problem : Problem}
    (found : Agenda.problem? limit Agenda.start (Cursor.start text).drain.1 = some problem) :
    parse text limit = .error problem := by
  cases parsed : parse text limit with
  | ok tree =>
    obtain ⟨tokens, shape, read, program, -⟩ := program_of_parse parsed
    rw [problem?_of_program read program] at found
    cases found
  | error other =>
    rw [problem_of_parse parsed] at found
    cases found
    rfl

/-- Where parsing stops at an unexpected token, the tokens up to it are delivered, and it is the first wrong one. -/
theorem parse_unexpected {text : String} {limit : Nat} {span : Span} {expected : Expectation} {found : Token.Kind}
    {within : List Node.Kind} (failed : parse text limit = .error (.unexpectedToken span expected found within)) :
    ∃ before placed, (before ++ [placed]).map .ok <+: (Cursor.start text).drain.1 ∧ placed.span = span ∧
      placed.token.kind = found ∧ FirstWrong limit before placed expected (.unexpectedToken span expected found within) := by
  rcases Agenda.problem?_cases (problem_of_parse failed) with ⟨before, more, stream⟩ |
    ⟨before, placed, more, goals, stream, taken, refused⟩
  · have lexical := Cursor.lexical_of_drain stream
    simp [Problem.code] at lexical
  · have proper := Cursor.ne_finish_of_drain stream
    cases goals with
    | nil => exact absurd rfl (Grammar.goals_ne_nil taken proper)
    | cons goal rest =>
      rcases Agenda.step_error refused with ⟨fits, other, among, blames⟩ | ⟨_, deep⟩
      · obtain ⟨inside, same⟩ := blames
        cases same
        refine ⟨before, placed, ⟨more, ?_⟩, rfl, rfl, ?_, ?_, ?_⟩
        · rw [stream, List.map_append, List.append_assoc]
          rfl
        · intro item meets
          exact Grammar.program_of_meets taken fits among meets
        · intro room tokens shape starts
          exact Grammar.not_program_of_refused taken refused ⟨_, rfl⟩ starts
        · intro other starts
          obtain ⟨later, starts⟩ := starts
          apply parse_of_problem
          rw [← starts, List.map_append, List.append_assoc, Agenda.problem?_append taken]
          exact Agenda.problem?_refused refused
      · cases deep

theorem parse_unexpected_condition : ∃ before placed expected,
    (before ++ [placed]).map .ok <+: (Cursor.start "(defun f () (if ))").drain.1 ∧
    ∃ problem, parse "(defun f () (if ))" 1 = .error problem ∧ FirstWrong 1 before placed expected problem := by
  have failed : parse "(defun f () (if ))" 1 =
      .error (.unexpectedToken ⟨⟨1, 17, 16⟩, 17⟩ .expression .rightParen [.ifForm, .defun 0, .program]) := by
    decide +kernel
  obtain ⟨before, placed, delivered, -, -, wrong⟩ := parse_unexpected failed
  exact ⟨before, placed, _, delivered, _, failed, wrong⟩

end DefunReader

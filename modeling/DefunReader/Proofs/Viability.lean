import DefunReader.Proofs.CorrectPrefix
import DefunReader.Proofs.StreamOrder

/-! Token lists that programs start with. Behind one, a token can go on with it, stand where no program has it, or open
a form or a list that only a larger limit has room for; its agenda tells which. -/
namespace DefunReader

namespace Grammar

open Agenda (steps step unclosed start Beyond Blames)

namespace Agenda

variable {limit larger : Nat} {goals rest next : Agenda} {placed : Token.Placed} {item : Item} {within : List Node.Kind}
  {tokens : List Token.Placed}

theorem step_of_le (le : limit ≤ larger) : step limit goals placed = step larger goals placed ∨
    ∃ span, step limit goals placed = .error (.nestedTooDeep span limit) := by
  cases goals with
  | nil => exact .inl rfl
  | cons goal rest =>
    cases goal with
    | form within opening =>
      by_cases fits : unclosed rest ≤ limit
      · exact .inl ((step_form fits).trans (step_form (Nat.le_trans fits le)).symm)
      · exact .inr ⟨opening, step_form_deep fits⟩
    | list within opening =>
      by_cases fits : unclosed rest ≤ limit
      · exact .inl ((step_list fits).trans (step_list (Nat.le_trans fits le)).symm)
      · exact .inr ⟨opening, step_list_deep fits⟩
    | _ => exact .inl rfl

theorem step_mono (taken : step limit goals placed = .ok next) (le : limit ≤ larger) : step larger goals placed = .ok next := by
  rcases @step_of_le _ _ goals placed le with same | ⟨span, deep⟩
  · exact same.symm.trans taken
  · cases taken.symm.trans deep

theorem steps_mono (taken : steps limit goals tokens = .ok next) (le : limit ≤ larger) : steps larger goals tokens = .ok next := by
  induction tokens generalizing goals with
  | nil => exact taken
  | cons placed tokens ih =>
    obtain ⟨middle, first, taken⟩ := steps_cons_ok taken
    exact (steps_cons (step_mono first le)).trans (ih taken)

theorem problem?_of_le {answers : List Answer} (le : limit ≤ larger) :
    problem? limit goals answers = problem? larger goals answers ∨
      ∃ span, problem? limit goals answers = some (.nestedTooDeep span limit) := by
  induction answers generalizing goals with
  | nil => exact .inl rfl
  | cons answer answers ih =>
    cases answer with
    | error problem => exact .inl rfl
    | ok placed =>
      rcases @step_of_le _ _ goals placed le with same | ⟨span, deep⟩
      · cases taken : step limit goals placed with
        | error problem =>
          rw [problem?_refused taken, problem?_refused (same.symm.trans taken)]
          exact .inl rfl
        | ok next =>
          rw [problem?_cons taken, problem?_cons (same.symm.trans taken)]
          exact ih
      · exact .inr ⟨span, problem?_refused deep⟩

/-- A form or a list that was only just opened has room. -/
def Roomy (limit : Nat) : Agenda → Prop
  | [] => True
  | goal :: rest => goal.opens → unclosed rest ≤ limit

theorem roomy_of_step (taken : step limit goals placed = .ok next) : Roomy limit goals := by
  cases goals with
  | nil => trivial
  | cons goal rest =>
    cases goal with
    | form | list => exact fun _ => (nest_ok taken).1
    | _ => nofun

theorem not_roomy_of_beyond {goal : Goal} {span : Span} {problem : Problem} (beyond : Beyond limit rest goal span problem) :
    ¬Roomy limit (goal :: rest) := by
  intro roomy
  cases beyond with
  | form deep | list deep => exact deep (roomy rfl)

theorem Ready.roomy (ready : Ready goals) : Roomy limit goals := by
  cases goals with
  | nil => trivial
  | cons goal rest =>
    intro opens
    cases (ready goal List.mem_cons_self).symm.trans opens

theorem blames_or_beyond {problem : Problem} (refused : step limit goals placed = .error problem) :
    (Roomy limit goals ∧ ∃ expected, Blames placed expected problem) ∨
      ∃ goal rest span, goals = goal :: rest ∧ Beyond limit rest goal span problem := by
  cases goals with
  | nil =>
    cases refused
    exact .inl ⟨trivial, _, [], rfl⟩
  | cons goal rest =>
    rcases step_error refused with ⟨fits, expected, -, blames⟩ | ⟨span, beyond⟩
    · exact .inl ⟨fits, expected, blames⟩
    · exact .inr ⟨goal, rest, span, rfl, beyond⟩

theorem blames_of_roomy {problem : Problem} (roomy : Roomy limit goals) (refused : step limit goals placed = .error problem) :
    ∃ expected, Blames placed expected problem := by
  rcases blames_or_beyond refused with ⟨-, blames⟩ | ⟨goal, rest, span, rfl, beyond⟩
  · exact blames
  · exact absurd roomy (not_roomy_of_beyond beyond)

inductive Opens : Item → Token.Placed → Agenda → Prop
  | form {within span rest} : Opens .expression ⟨.leftParen, span⟩ (.form within span :: rest)
  | list {within span rest} : Opens .datum ⟨.leftParen, span⟩ (.list within span :: rest)

/-- What was opened without room is refused with whatever token comes next. -/
theorem Opens.deep {opening : Token.Placed} (opens : Opens item opening goals) (deep : ¬Roomy limit goals) :
    step limit goals placed = .error (.nestedTooDeep opening.span limit) := by
  cases opens with
  | form => exact step_form_deep fun fits => deep fun _ => fits
  | list => exact step_list_deep fun fits => deep fun _ => fits

theorem completable_of_roomy (ready : Ready goals.tail) (roomy : Roomy limit goals) : Completable limit goals := by
  cases goals with
  | nil => exact ⟨[], .nil⟩
  | cons goal rest =>
    cases settled : goal.opens with
    | false => exact completable_of_ready limit (ready.cons settled)
    | true =>
      cases goal with
      | form =>
        obtain ⟨tokens, shape, derived⟩ := exists_item .expression (limit + 1 - unclosed (.form _ _ :: rest))
        obtain ⟨more, after⟩ := completes_of_meets ready roomy (by simp [Goal.expectations]) (.expression derived)
        exact ⟨_, after⟩
      | list =>
        obtain ⟨tokens, shape, derived⟩ := exists_item .datum (limit + 1 - unclosed (.list _ _ :: rest))
        obtain ⟨more, after⟩ := completes_of_meets ready roomy (by simp [Goal.expectations]) (.datum derived)
        exact ⟨_, after⟩
      | _ => cases settled

theorem Begins.opens_or_settles (begins : Begins within rest item placed next) :
    Opens item placed next ∨ placed.token ≠ .leftParen ∧ (Ready rest → Ready next) := by
  cases begins with
  | identifier | number | boolean => exact .inr ⟨nofun, id⟩
  | tick => exact .inr ⟨nofun, fun ready => ready.cons rfl⟩
  | form => exact .inl .form
  | list => exact .inl .list

/-- Every parenthesis opens a form or a list but those of the definition and of its parameters, and nothing else does. -/
theorem Move.opens_or_settles (move : Move limit goals placed next) :
    (∃ goal rest item, goals = goal :: rest ∧ item.expectation ∈ goal.expectations ∧ Opens item placed next) ∨
      (placed.token = .leftParen → ∃ rest, goals = .definition :: rest ∨ goals = .parameterList :: rest) ∧
        (Ready goals.tail → Ready next) := by
  cases move with
  | definition => exact .inr ⟨fun _ => ⟨_, .inl rfl⟩, fun ready => ready.cons rfl⟩
  | word => exact .inr ⟨by simp, fun ready => (ready.cons rfl).cons rfl⟩
  | parameterList => exact .inr ⟨fun _ => ⟨_, .inr rfl⟩, fun ready => ready.cons rfl⟩
  | parameter begins | application _ begins | listItem _ begins | item begins | otherwise begins =>
    rcases begins.opens_or_settles with opens | ⟨other, settles⟩
    · exact .inl ⟨_, _, _, rfl, by simp [Goal.expectations, Item.expectation], opens⟩
    · exact .inr ⟨fun paren => absurd paren other, fun ready => settles (ready.cons rfl)⟩
  | one begins =>
    rcases begins.opens_or_settles with opens | ⟨other, settles⟩
    · exact .inl ⟨_, _, _, rfl, by simp [Goal.expectations], opens⟩
    · exact .inr ⟨fun paren => absurd paren other, settles⟩
  | parametersEnd => exact .inr ⟨by simp, fun ready => ready.cons rfl⟩
  | ifForm => exact .inr ⟨by simp, fun ready => ((ready.cons rfl).cons rfl).cons rfl⟩
  | quotation => exact .inr ⟨by simp, fun ready => (ready.cons rfl).cons rfl⟩
  | listEnd | itemsEnd | otherwiseEnd | close | finish => exact .inr ⟨by simp, id⟩

end Agenda

/-- Some program under the limit starts with the tokens. -/
def Viable (limit : Nat) (tokens : List Token.Placed) : Prop :=
  ∃ more shape, Program limit (tokens ++ more) shape

/-- Behind a viable start the token makes a program impossible, whatever the limit. -/
structure Misplaced (limit : Nat) (before : List Token.Placed) (placed : Token.Placed) : Prop where
  viable : Viable limit before
  hopeless : ∀ room, ¬Viable room (before ++ [placed])

/-- Behind a viable start the token needs a larger limit. -/
structure Overflows (limit : Nat) (before : List Token.Placed) (opening : Token.Placed) : Prop where
  viable : Viable limit before
  beyond : ¬Viable limit (before ++ [opening])
  larger : ∃ room, Viable room (before ++ [opening])

variable {limit room : Nat} {tokens before more : List Token.Placed} {placed opening : Token.Placed} {goals rest : Agenda}
  {goal : Goal} {span : Span} {problem : Problem} {expected : Expectation}

/-- Tokens are viable where the agenda takes them all and has room for what the last of them opens. -/
theorem viable_iff : Viable limit tokens ↔ ∃ goals, steps limit start tokens = .ok goals ∧ Agenda.Roomy limit goals := by
  constructor
  · intro viable
    obtain ⟨more, shape, program⟩ := viable
    obtain ⟨goals, taken, later⟩ := Agenda.steps_append_ok (Agenda.steps_of_program program)
    refine ⟨goals, taken, ?_⟩
    cases more with
    | nil =>
      cases later
      trivial
    | cons placed more =>
      obtain ⟨next, first, -⟩ := Agenda.steps_cons_ok later
      exact Agenda.roomy_of_step first
  · intro found
    obtain ⟨goals, taken, roomy⟩ := found
    obtain ⟨more, after⟩ := Agenda.completable_of_roomy (ready_of_steps taken) roomy
    exact ⟨more, Agenda.program_of_completes (Agenda.steps_completes taken after)⟩

theorem viable_of_roomy (taken : steps limit start tokens = .ok goals) (roomy : Agenda.Roomy limit goals) : Viable limit tokens :=
  viable_iff.mpr ⟨goals, taken, roomy⟩

theorem viable_of_steps (taken : steps limit start tokens = .ok goals) : ∃ room, Viable room tokens := by
  refine ⟨max limit (unclosed goals), viable_of_roomy (Agenda.steps_mono taken (Nat.le_max_left ..)) ?_⟩
  cases goals with
  | nil => trivial
  | cons goal rest =>
    intro _
    exact Nat.le_trans (Nat.le_add_left _ goal.unclosed) (Nat.le_max_right ..)

theorem overflows_of_beyond (taken : steps limit start before = .ok (goal :: rest))
    (beyond : Beyond limit rest goal span problem) :
    ∃ earlier opening, before = earlier ++ [opening] ∧ problem = .nestedTooDeep opening.span limit ∧
      Overflows limit earlier opening := by
  rcases List.eq_nil_or_concat before with rfl | ⟨earlier, opening, rfl⟩
  · cases taken
    cases beyond
  · rw [List.concat_eq_append] at taken ⊢
    obtain ⟨middle, taken', first⟩ := Agenda.steps_concat_ok taken
    refine ⟨earlier, opening, rfl, ?_, viable_of_roomy taken' (Agenda.roomy_of_step first), ?_, viable_of_steps taken⟩
    · rcases (Agenda.move_of_step first).opens_or_settles with ⟨_, _, _, -, -, opens⟩ | ⟨-, settles⟩
      · cases opens <;> cases beyond <;> rfl
      · have settled := settles (ready_of_steps taken') goal List.mem_cons_self
        cases beyond <;> cases settled
    · intro viable
      obtain ⟨goals, taken', roomy⟩ := viable_iff.mp viable
      cases taken.symm.trans taken'
      exact Agenda.not_roomy_of_beyond beyond roomy

/-- A refused token is misplaced, or what the token before it opened is nested too deep. -/
theorem misplaced_or_overflows (taken : steps limit start before = .ok goals)
    (refused : step limit goals placed = .error problem) :
    (∃ expected, Blames placed expected problem ∧ Misplaced limit before placed) ∨
      ∃ earlier opening, before = earlier ++ [opening] ∧ problem = .nestedTooDeep opening.span limit ∧
        Overflows limit earlier opening := by
  rcases Agenda.blames_or_beyond refused with ⟨roomy, expected, blames⟩ | ⟨goal, rest, span, rfl, beyond⟩
  · refine .inl ⟨expected, blames, viable_of_roomy taken roomy, ?_⟩
    intro room viable
    obtain ⟨more, shape, program⟩ := viable
    exact not_program_of_refused taken refused blames ⟨more.map Token.Placed.token, List.map_append.symm⟩ program
  · exact .inr (overflows_of_beyond taken beyond)

theorem refused_of_misplaced (misplaced : Misplaced limit before placed) : ∃ goals problem expected,
    steps limit start before = .ok goals ∧ step limit goals placed = .error problem ∧ Blames placed expected problem := by
  obtain ⟨goals, taken, roomy⟩ := viable_iff.mp misplaced.viable
  cases first : step limit goals placed with
  | ok next =>
    obtain ⟨room, viable⟩ := viable_of_steps (Agenda.steps_concat taken first)
    exact absurd viable (misplaced.hopeless room)
  | error problem =>
    obtain ⟨expected, blames⟩ := Agenda.blames_of_roomy roomy first
    exact ⟨goals, problem, expected, taken, first, blames⟩

theorem opens_of_overflows (overflows : Overflows limit before opening) : ∃ goal rest item next,
    steps limit start before = .ok (goal :: rest) ∧ step limit (goal :: rest) opening = .ok next ∧
      item.expectation ∈ goal.expectations ∧ Agenda.Opens item opening next ∧ ¬Agenda.Roomy limit next := by
  obtain ⟨goals, taken, roomy⟩ := viable_iff.mp overflows.viable
  obtain ⟨room, viable⟩ := overflows.larger
  obtain ⟨next, taken', -⟩ := viable_iff.mp viable
  obtain ⟨middle, taken', first⟩ := Agenda.steps_concat_ok taken'
  cases Agenda.steps_of_room taken' taken
  rcases @Agenda.step_of_room limit _ _ _ _ first with first | ⟨span, deep⟩
  · have deep : ¬Agenda.Roomy limit next := by
      intro roomy
      exact overflows.beyond (viable_of_roomy (Agenda.steps_concat taken first) roomy)
    rcases (Agenda.move_of_step first).opens_or_settles with ⟨goal, rest, item, rfl, among, opens⟩ | ⟨-, settles⟩
    · exact ⟨goal, rest, item, next, taken, first, among, opens, deep⟩
    · exact absurd (settles (ready_of_steps taken)).roomy deep
  · obtain ⟨expected, within, same⟩ := Agenda.blames_of_roomy roomy deep
    cases same

theorem Overflows.paren (overflows : Overflows limit before opening) : opening.token = .leftParen := by
  obtain ⟨goal, rest, item, next, -, -, -, opens, -⟩ := opens_of_overflows overflows
  cases opens <;> rfl

/-- The first goal behind the tokens refuses another for one of its expectations. -/
structure Refuses (limit : Nat) (before : List Token.Placed) (goal : Goal) (rest : Agenda) (placed : Token.Placed)
    (expected : Expectation) (problem : Problem) : Prop where
  taken : steps limit start before = .ok (goal :: rest)
  refused : step limit (goal :: rest) placed = .error problem
  roomy : Agenda.Roomy limit (goal :: rest)
  among : expected ∈ goal.expectations

theorem steps_of_overflows (overflows : Overflows limit before opening) : ∃ goals,
    steps limit start (before ++ [opening]) = .ok goals ∧
      ∀ placed, step limit goals placed = .error (.nestedTooDeep opening.span limit) := by
  obtain ⟨goal, rest, item, next, taken, last, -, opens, deep⟩ := opens_of_overflows overflows
  exact ⟨next, Agenda.steps_concat taken last, fun _ => opens.deep deep⟩

end Grammar

section Failure

open Grammar (Viable Misplaced Overflows)
open Grammar.Agenda (Blames problem? problem?_append problem?_cases steps_append)

variable {text : String} {limit : Nat} {problem : Problem}

/-- Behind tokens that a program can start with, a text fails where it is no token, where a token is misplaced, or behind a
parenthesis that overflows. -/
theorem failure_behind {tokens : List Token.Placed} {answers : List Answer} (viable : Viable limit tokens)
    (drained : (Cursor.start text).drain.1 = tokens.map .ok ++ answers) (failed : parse text limit = .error problem) :
    (∃ (before : List Token.Placed) (more : List Answer), answers = before.map .ok ++ .error problem :: more) ∨
      (∃ before placed more expected, answers = before.map .ok ++ .ok placed :: more ∧
        Blames placed expected problem ∧ Misplaced limit (tokens ++ before) placed) ∨
      ∃ before opening placed more, answers = (before ++ [opening]).map .ok ++ .ok placed :: more ∧
        problem = .nestedTooDeep opening.span limit ∧ Overflows limit (tokens ++ before) opening := by
  obtain ⟨goals, taken, -⟩ := Grammar.viable_iff.mp viable
  have found := problem_of_parse failed
  rw [drained, problem?_append taken] at found
  rcases problem?_cases found with ⟨before, more, split⟩ | ⟨before, placed, more, later, split, taken', refused⟩
  · exact .inl ⟨before, more, split⟩
  · have all := (steps_append taken).trans taken'
    rcases Grammar.misplaced_or_overflows all refused with ⟨expected, blames, wrong⟩ | ⟨earlier, opening, last, deep, wrong⟩
    · exact .inr (.inl ⟨before, placed, more, expected, split, blames, wrong⟩)
    · rcases List.eq_nil_or_concat before with rfl | ⟨before, other, rfl⟩
      · rw [List.append_nil] at last
        exact absurd (last ▸ viable) wrong.beyond
      · rw [List.concat_eq_append, ← List.append_assoc] at last
        obtain ⟨rfl, same⟩ := List.append_inj' last rfl
        cases same
        rw [List.concat_eq_append] at split
        exact .inr (.inr ⟨before, opening, placed, more, split, deep, wrong⟩)

theorem failure_cases (failed : parse text limit = .error problem) :
    (∃ before : List Token.Placed, (Cursor.start text).drain.1 = before.map .ok ++ [.error problem]) ∨
      (∃ before placed more expected, (Cursor.start text).drain.1 = before.map .ok ++ .ok placed :: more ∧
        Blames placed expected problem ∧ Misplaced limit before placed) ∨
      ∃ before opening placed more, (Cursor.start text).drain.1 = (before ++ [opening]).map .ok ++ .ok placed :: more ∧
        problem = .nestedTooDeep opening.span limit ∧ Overflows limit before opening := by
  have viable : Viable limit [] := Grammar.viable_of_roomy rfl nofun
  rcases failure_behind viable rfl failed with ⟨before, more, drained⟩ | stops
  · rw [Cursor.last_of_drain drained] at drained
    exact .inl ⟨before, drained⟩
  · exact .inr stops

theorem refuses_of_unexpected {span : Span} {expected : Expectation} {found : Token.Kind} {within : List Node.Kind}
    (failed : parse text limit = .error (.unexpectedToken span expected found within)) :
    ∃ before placed more goal rest, (Cursor.start text).drain.1 = before.map .ok ++ .ok placed :: more ∧
      placed.span = span ∧ placed.token.kind = found ∧
      Grammar.Refuses limit before goal rest placed expected (.unexpectedToken span expected found within) := by
  rcases Grammar.Agenda.problem?_cases (problem_of_parse failed) with ⟨before, more, drained⟩ |
    ⟨before, placed, more, goals, drained, taken, refused⟩
  · have lexical := Cursor.lexical_of_drain drained
    simp [Problem.code] at lexical
  · cases goals with
    | nil => exact absurd rfl (Grammar.goals_ne_nil taken (Cursor.ne_finish_of_drain drained))
    | cons goal rest =>
      rcases Grammar.Agenda.step_error refused with ⟨fits, other, among, inside, same⟩ | ⟨opening, beyond⟩
      · cases same
        exact ⟨before, placed, more, goal, rest, drained, rfl, rfl, taken, refused, fits, among⟩
      · cases beyond

end Failure

end DefunReader

import DefunReader.Proofs.Viability

/-! How far a definition is read: its head, its body, or its end. The body is all there is to forms and quoted lists: they
are opened nowhere else, and those that are open there are within the limit. -/
namespace DefunReader.Grammar

def Goal.inner : Goal → Bool
  | one _ _ | form _ _ | list _ _ | items _ _ | otherwise _ | close _ => true
  | definition | word | parameterList | parameters _ | finish => false

namespace Agenda

/-- Goals of the body before those that end it. -/
inductive Inside : Agenda → Prop
  | body {within} : Inside [.items .expression within, .finish]
  | cons {goal rest} (inner : goal.inner) (inside : Inside rest) : Inside (goal :: rest)

structure InBody (limit : Nat) (goals : Agenda) : Prop where
  inside : Inside goals
  bounded : Roomy limit goals → unclosed goals ≤ limit + 1

/-- The agendas that tokens lead to. -/
inductive Stage (limit : Nat) : Agenda → Prop
  | start : Stage limit [.definition, .finish]
  | word : Stage limit [.word, .finish]
  | name {within} : Stage limit [.one .name within, .parameterList, .finish]
  | parameterList : Stage limit [.parameterList, .finish]
  | parameters {count} : Stage limit [.parameters count, .finish]
  | body {goals} (inBody : InBody limit goals) : Stage limit goals
  | finish : Stage limit [.finish]
  | done : Stage limit []

variable {limit room : Nat} {goals rest next : Agenda} {goal : Goal} {placed : Token.Placed} {item : Item}
  {within : List Node.Kind} {tokens : List Token.Placed}

theorem Inside.unclosed_pos (inside : Inside goals) : 1 ≤ unclosed goals := by
  induction inside with
  | body => exact Nat.le_refl 1
  | cons _ _ ih => exact Nat.le_trans ih (Nat.le_add_left ..)

theorem Inside.tail (inside : Inside (goal :: rest)) : Inside rest ∨ rest = [.finish] := by
  cases inside with
  | body => exact .inr rfl
  | cons _ inside => exact .inl inside

theorem Inside.inner (inside : Inside (goal :: rest)) : goal.inner := by
  cases inside with
  | body => rfl
  | cons inner => exact inner

theorem Inside.behind (inside : Inside (goal :: rest)) (single : ∀ within, goal ≠ .items .expression within) : Inside rest := by
  cases inside with
  | body => exact absurd rfl (single _)
  | cons _ inside => exact inside

theorem Begins.inside (begins : Begins within rest item placed next) (inside : Inside rest) : Inside next := by
  cases begins with
  | identifier | number | boolean => exact inside
  | tick | form | list => exact .cons rfl inside

theorem Move.inside (move : Move limit goals placed next) (inside : Inside goals) : Inside next ∨ next = [.finish] := by
  cases move with
  | definition | word | parameterList | parameter | parametersEnd | finish => cases inside.inner
  | one begins => exact .inl (begins.inside (inside.behind nofun))
  | ifForm => exact .inl (.cons rfl (.cons rfl (.cons rfl (inside.behind nofun))))
  | quotation => exact .inl (.cons rfl (.cons rfl (inside.behind nofun)))
  | application _ begins | listItem _ begins | otherwise begins =>
    exact .inl (begins.inside (.cons rfl (inside.behind nofun)))
  | item begins => exact .inl (begins.inside inside)
  | listEnd | itemsEnd | otherwiseEnd | close => exact inside.tail

/-- A form or a list has room where what is open before it is below the limit. -/
theorem Opens.roomy_iff (opens : Opens item placed next) (move : Move room goals placed next) :
    Roomy limit next ↔ unclosed goals ≤ limit := by
  have count := move.unclosed_eq
  cases opens with
  | @form _ _ rest | @list _ _ rest =>
    have same : unclosed rest = unclosed goals := by
      simpa [Goal.unclosed, Nat.add_comm 1] using count
    simp [Roomy, Goal.opens, same]

theorem Move.opens_of_inside (move : Move limit goals placed next) (inside : Inside goals)
    (paren : placed.token = .leftParen) : ∃ item, Opens item placed next := by
  rcases move.opens_or_settles with ⟨_, _, item, -, -, opens⟩ | ⟨outside, -⟩
  · exact ⟨item, opens⟩
  · obtain ⟨rest, rfl | rfl⟩ := outside paren
    · cases inside.inner
    · cases inside.inner

/-- What is open within the limit stays so, but for a form or a list that is only just opened. -/
theorem Move.bounded (move : Move limit goals placed next) (inside : Inside goals) (fits : unclosed goals ≤ limit + 1) :
    Roomy limit next → unclosed next ≤ limit + 1 := by
  intro roomy
  have count := move.unclosed_eq
  by_cases paren : placed.token = .leftParen
  · obtain ⟨item, opens⟩ := move.opens_of_inside inside paren
    have below := (opens.roomy_iff move).mp roomy
    have one : [placed.token].count .leftParen ≤ 1 := List.count_le_length
    omega
  · have none : [placed.token].count .leftParen = 0 := List.count_eq_zero.mpr (by simpa using Ne.symm paren)
    omega

theorem Move.stage (move : Move limit goals placed next) (roomy : Roomy limit goals) (stage : Stage limit goals) :
    Stage limit next := by
  cases stage with
  | start =>
    cases move with
    | definition => exact .word
  | word =>
    cases move with
    | word => exact .name
  | name =>
    cases move with
    | one begins =>
      cases begins with
      | identifier => exact .parameterList
      | number valued | boolean valued => contradiction
  | parameterList =>
    cases move with
    | parameterList => exact .parameters
  | parameters =>
    cases move with
    | parameter begins =>
      cases begins with
      | identifier => exact .parameters
      | number valued | boolean valued => contradiction
    | parametersEnd => exact .body ⟨.body, fun _ => Nat.le_add_left 1 limit⟩
  | body inBody =>
    have fits := inBody.bounded roomy
    rcases move.inside inBody.inside with inside | rfl
    · exact .body ⟨inside, move.bounded inBody.inside fits⟩
    · exact .finish
  | finish =>
    cases move with
    | finish => exact .done
  | done => cases move

theorem steps_stage (taken : steps limit goals tokens = .ok next) (stage : Stage limit goals) : Stage limit next := by
  induction tokens generalizing goals with
  | nil =>
    cases taken
    exact stage
  | cons placed tokens ih =>
    obtain ⟨middle, first, taken⟩ := steps_cons_ok taken
    exact ih taken ((move_of_step first).stage (roomy_of_step first) stage)

theorem Stage.inBody_of_number {n : Int64} {span : Span} (stage : Stage limit goals)
    (move : Move room goals ⟨.number n, span⟩ next) : InBody limit goals := by
  cases stage with
  | body inBody => exact inBody
  | name =>
    cases move with
    | one begins => cases begins; contradiction
  | parameters =>
    cases move with
    | parameter begins => cases begins; contradiction
  | start | word | parameterList | finish | done => cases move

end Agenda

end DefunReader.Grammar

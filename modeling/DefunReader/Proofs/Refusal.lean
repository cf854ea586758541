import DefunReader.Proofs.Completion

/-! What an agenda refuses: a token that stands where one of its expectations should be met. Whatever meets the
expectation can be gone on with, and no limit lets the token through. -/
namespace DefunReader.Grammar

def Goal.expectations : Goal → List Expectation
  | definition | parameterList => [.token .leftParen]
  | word => [.token .defunWord]
  | parameters _ => [.token .identifier, .token .rightParen]
  | one item _ => [item.expectation]
  | form _ _ => [.expression]
  | list _ _ => [.datum, .token .rightParen]
  | items item _ => [item.expectation, .token .rightParen]
  | otherwise _ => [.expression, .token .rightParen]
  | close _ => [.token .rightParen]
  | finish => [.token .finish]

/-- Tokens that meet an expectation, where forms and lists may still nest `room` deep. -/
inductive Meets (room : Nat) : Expectation → List Token.Placed → Prop
  | token {placed} : Meets room (.token placed.token.kind) [placed]
  | expression {tokens shape} (derived : Derives (.one .expression) room tokens [shape]) : Meets room .expression tokens
  | datum {tokens shape} (derived : Derives (.one .datum) room tokens [shape]) : Meets room .datum tokens

theorem Meets.mono {room larger : Nat} {expected : Expectation} {tokens : List Token.Placed}
    (meets : Meets room expected tokens) (le : room ≤ larger) : Meets larger expected tokens := by
  cases meets with
  | token => exact .token
  | expression derived => exact .expression (derived.mono le)
  | datum derived => exact .datum (derived.mono le)

theorem Meets.kind_eq {room : Nat} {kind : Token.Kind} {tokens : List Token.Placed} (meets : Meets room (.token kind) tokens) :
    ∃ placed, tokens = [placed] ∧ placed.token.kind = kind := by
  cases meets
  exact ⟨_, rfl, rfl⟩

theorem Meets.derives {room : Nat} {item : Item} {tokens : List Token.Placed} (meets : Meets room item.expectation tokens) :
    ∃ shape, Derives (.one item) room tokens [shape] := by
  cases item with
  | name =>
    obtain ⟨⟨token, span⟩, rfl, kind⟩ := meets.kind_eq
    cases token <;> cases kind
    exact ⟨_, .identifier nofun⟩
  | datum =>
    cases meets with
    | datum derived => exact ⟨_, derived⟩
  | expression =>
    cases meets with
    | expression derived => exact ⟨_, derived⟩

namespace Agenda

variable {limit room : Nat} {goals rest next : Agenda} {placed : Token.Placed} {goal : Goal} {expected : Expectation}
  {tokens : List Token.Placed} {item : Item} {within : List Node.Kind} {problem : Problem}

theorem completes_of_bare {token : Token} (among : token ∈ [.leftParen, .rightParen, .defunWord, .finish])
    (meets : Meets room (.token token.kind) tokens) (move : ∀ span, Move limit goals ⟨token, span⟩ next)
    (later : Completable limit next) : ∃ more, Completes limit goals (tokens ++ more) := by
  obtain ⟨⟨other, span⟩, rfl, kind⟩ := meets.kind_eq
  obtain ⟨more, after⟩ := later
  cases Token.eq_of_kind among kind
  exact ⟨more, (move span).completes after⟩

theorem completes_of_meets (ready : Ready rest) (fits : goal.opens → unclosed rest ≤ limit)
    (among : expected ∈ goal.expectations) (meets : Meets (limit + 1 - unclosed (goal :: rest)) expected tokens) :
    ∃ more, Completes limit (goal :: rest) (tokens ++ more) := by
  have later := completable_of_ready limit ready
  obtain ⟨more, after⟩ := completable_of_ready limit ready
  -- The goal goes on from what was expected; the goals behind it can be completed as they are.
  cases goal with
  | definition =>
    cases List.mem_singleton.mp among
    exact completes_of_bare (by simp) meets (fun _ => .definition) later.word
  | word =>
    cases List.mem_singleton.mp among
    exact completes_of_bare (by simp) meets (fun _ => .word) later.parameterList.one
  | parameterList =>
    cases List.mem_singleton.mp among
    exact completes_of_bare (by simp) meets (fun _ => .parameterList) later.parameters
  | parameters count =>
    rcases List.mem_cons.mp among with rfl | among
    · obtain ⟨⟨token, span⟩, rfl, kind⟩ := meets.kind_eq
      cases token <;> cases kind
      obtain ⟨more, after⟩ : Completable limit (.parameters (count + 1) :: rest) := later.parameters
      exact ⟨more, (Move.parameter (.identifier nofun)).completes after⟩
    · cases List.mem_singleton.mp among
      exact completes_of_bare (by simp) meets (fun _ => .parametersEnd) later.items
  | one item within =>
    cases List.mem_singleton.mp among
    obtain ⟨shape, derived⟩ := meets.derives
    rw [unclosed_cons, Goal.unclosed, Nat.zero_add] at derived
    exact ⟨more, .one derived after⟩
  | form within opening =>
    cases List.mem_singleton.mp among
    rw [room_behind rfl] at meets
    obtain ⟨shape, derived⟩ := @Meets.derives _ .expression _ meets
    have whole := @Derives.application _ opening somewhere _ _ _ _ derived .nil
    exact ⟨⟨.rightParen, somewhere⟩ :: more, completes_form (fits rfl) whole after (by simp)⟩
  | list within opening =>
    rw [room_behind rfl] at meets
    rcases List.mem_cons.mp among with rfl | among
    · obtain ⟨shape, derived⟩ := @Meets.derives _ .datum _ meets
      have whole := @Derives.list _ opening somewhere _ _ (.cons derived .nil)
      exact ⟨⟨.rightParen, somewhere⟩ :: more, completes_list (fits rfl) whole after (by simp)⟩
    · cases List.mem_singleton.mp among
      exact completes_of_bare (by simp) meets (fun _ => .listEnd (fits rfl)) later
  | items item within =>
    rw [room_behind rfl] at meets
    rcases List.mem_cons.mp among with rfl | among
    · obtain ⟨shape, derived⟩ := meets.derives
      have whole := @Completes.items _ _ _ within somewhere _ _ _ (.cons derived .nil) after
      rw [List.append_nil] at whole
      exact ⟨_, whole⟩
    · cases List.mem_singleton.mp among
      exact completes_of_bare (by simp) meets (fun _ => .itemsEnd) later
  | otherwise within =>
    rw [room_behind rfl] at meets
    rcases List.mem_cons.mp among with rfl | among
    · obtain ⟨shape, derived⟩ := @Meets.derives _ .expression _ meets
      exact ⟨_, @Completes.otherwise _ _ within somewhere _ _ _ derived after⟩
    · cases List.mem_singleton.mp among
      exact completes_of_bare (by simp) meets (fun _ => .otherwiseEnd) later
  | close within =>
    cases List.mem_singleton.mp among
    exact completes_of_bare (by simp) meets (fun _ => .close) later
  | finish =>
    cases List.mem_singleton.mp among
    exact completes_of_bare (by simp) meets (fun _ => .finish) later

def Blames (placed : Token.Placed) (expected : Expectation) (problem : Problem) : Prop :=
  ∃ within, problem = .unexpectedToken placed.span expected placed.token.kind within

theorem require_error {kind : Token.Kind} (refused : require kind within rest placed = .error problem) :
    Blames placed (.token kind) problem := by
  unfold require at refused
  split at refused
  · cases refused
  · cases refused
    exact ⟨within, rfl⟩

theorem begin_error (refused : begin item within rest placed = .error problem) : Blames placed item.expectation problem := by
  rcases begin_cases item within rest placed with ⟨other, same, -⟩ | same
  · cases refused.symm.trans same
  · cases refused.symm.trans same
    exact ⟨within, rfl⟩

theorem unlessClosed_error {closed : Agenda} {more : Except Problem Agenda}
    (refused : unlessClosed within closed more placed = .error problem) :
    Blames placed (.token .rightParen) problem ∨ more = .error problem := by
  unfold unlessClosed at refused
  split at refused
  · cases refused
  · cases refused
    exact .inl ⟨within, rfl⟩
  · exact .inr refused

theorem beginForm_error (refused : beginForm within rest placed = .error problem) : Blames placed .expression problem := by
  unfold beginForm at refused
  split at refused
  · cases refused
  · cases refused
  · exact begin_error refused

theorem nest_error {span : Span} {inside : Except Problem Agenda} (refused : nest limit span rest inside = .error problem) :
    unclosed rest ≤ limit ∧ inside = .error problem ∨ ¬unclosed rest ≤ limit ∧ problem = .nestedTooDeep span limit := by
  unfold nest at refused
  split at refused
  · exact .inl ⟨‹_›, refused⟩
  · cases refused
    exact .inr ⟨‹_›, rfl⟩

/-- The problem of a form or a list that is opened where the limit has no room for it. -/
inductive Beyond (limit : Nat) (rest : Agenda) : Goal → Span → Problem → Prop
  | form {within span} (deep : ¬unclosed rest ≤ limit) : Beyond limit rest (.form within span) span (.nestedTooDeep span limit)
  | list {within span} (deep : ¬unclosed rest ≤ limit) : Beyond limit rest (.list within span) span (.nestedTooDeep span limit)

theorem proceed_error (refused : proceed item within rest placed = .error problem) :
    ∃ expected ∈ [item.expectation, .token .rightParen], Blames placed expected problem := by
  rcases unlessClosed_error refused with blames | refused
  · exact ⟨_, by simp, blames⟩
  · exact ⟨_, by simp, begin_error refused⟩

/-- A refused token is blamed for an expectation of the first goal, or the nesting is. -/
theorem step_error (refused : step limit (goal :: rest) placed = .error problem) :
    ((goal.opens → unclosed rest ≤ limit) ∧ ∃ expected ∈ goal.expectations, Blames placed expected problem) ∨
      ∃ span, Beyond limit rest goal span problem := by
  cases goal with
  | definition | word | parameterList | close | finish => exact .inl ⟨nofun, _, by simp [Goal.expectations], require_error refused⟩
  | parameters count =>
    refine .inl ⟨nofun, ?_⟩
    rcases unlessClosed_error refused with blames | refused
    · exact ⟨_, by simp [Goal.expectations], blames⟩
    · exact ⟨_, by simp [Goal.expectations, Item.expectation], begin_error refused⟩
  | one item within => exact .inl ⟨nofun, _, by simp [Goal.expectations], begin_error refused⟩
  | form within opening =>
    rcases nest_error refused with ⟨fits, refused⟩ | ⟨deep, rfl⟩
    · exact .inl ⟨fun _ => fits, _, by simp [Goal.expectations], beginForm_error refused⟩
    · exact .inr ⟨opening, .form deep⟩
  | list within opening =>
    rcases nest_error refused with ⟨fits, refused⟩ | ⟨deep, rfl⟩
    · exact .inl ⟨fun _ => fits, proceed_error refused⟩
    · exact .inr ⟨opening, .list deep⟩
  | items item within => exact .inl ⟨nofun, proceed_error refused⟩
  | otherwise within =>
    refine .inl ⟨nofun, ?_⟩
    rcases unlessClosed_error refused with blames | refused
    · exact ⟨_, by simp [Goal.expectations], blames⟩
    · exact ⟨_, by simp [Goal.expectations, Item.expectation], begin_error refused⟩

theorem step_of_room (taken : step room goals placed = .ok next) :
    step limit goals placed = .ok next ∨ ∃ span, step limit goals placed = .error (.nestedTooDeep span limit) := by
  cases goals with
  | nil => cases taken
  | cons goal rest =>
    cases goal with
    | form within opening =>
      by_cases fits : unclosed rest ≤ limit
      · rw [step_form fits]
        exact .inl (nest_ok taken).2
      · exact .inr ⟨opening, step_form_deep fits⟩
    | list within opening =>
      by_cases fits : unclosed rest ≤ limit
      · rw [step_list fits]
        exact .inl (nest_ok taken).2
      · exact .inr ⟨opening, step_list_deep fits⟩
    | _ => exact .inl taken

theorem steps_of_room {other : Agenda} (taken : steps room goals tokens = .ok next)
    (taken' : steps limit goals tokens = .ok other) : next = other := by
  induction tokens generalizing goals with
  | nil =>
    cases taken
    cases taken'
    rfl
  | cons placed tokens ih =>
    obtain ⟨middle, first, taken⟩ := steps_cons_ok taken
    obtain ⟨middle', first', taken'⟩ := steps_cons_ok taken'
    rcases step_of_room first with same | ⟨span, deep⟩
    · cases first'.symm.trans same
      exact ih taken taken'
    · cases first'.symm.trans deep

theorem problem?_cases {answers : List Answer} (found : problem? limit goals answers = some problem) :
    (∃ (before : List Token.Placed) (more : List Answer), answers = before.map .ok ++ .error problem :: more) ∨
      ∃ (before : List Token.Placed) (placed : Token.Placed) (more : List Answer) (next : Agenda),
        answers = before.map .ok ++ .ok placed :: more ∧
        steps limit goals before = .ok next ∧ step limit next placed = .error problem := by
  induction answers generalizing goals with
  | nil => cases found
  | cons answer answers ih =>
    cases answer with
    | error other =>
      cases found
      exact .inl ⟨[], answers, rfl⟩
    | ok placed =>
      cases first : step limit goals placed with
      | error other =>
        rw [problem?_refused first] at found
        cases found
        exact .inr ⟨[], placed, answers, goals, rfl, rfl, first⟩
      | ok middle =>
        rw [problem?_cons first] at found
        rcases ih found with ⟨before, more, rfl⟩ | ⟨before, other, more, next, rfl, taken, refused⟩
        · exact .inl ⟨placed :: before, more, rfl⟩
        · exact .inr ⟨placed :: before, other, more, next, rfl, (steps_cons first).trans taken, refused⟩

end Agenda

end DefunReader.Grammar

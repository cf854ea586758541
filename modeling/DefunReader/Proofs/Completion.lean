import DefunReader.Proofs.Move

/-! The token lists that complete an agenda. An agenda takes a token only where a completion goes on with it, and every
agenda that a text leads to can be completed. -/
namespace DefunReader.Grammar.Agenda

inductive Completes (limit : Nat) : Agenda → List Token.Placed → Prop
  | nil : Completes limit [] []
  | definition {rest span more} (after : Completes limit (.word :: rest) more) :
      Completes limit (.definition :: rest) (⟨.leftParen, span⟩ :: more)
  | word {rest span more} (after : Completes limit (.one .name (inDefinition 0) :: .parameterList :: rest) more) :
      Completes limit (.word :: rest) (⟨.defunWord, span⟩ :: more)
  | parameterList {rest span more} (after : Completes limit (.parameters 0 :: rest) more) :
      Completes limit (.parameterList :: rest) (⟨.leftParen, span⟩ :: more)
  | parameters {rest count span tokens shapes more} (declared : Derives (.many .name) limit tokens shapes)
      (after : Completes limit (.items .expression (inDefinition (count + shapes.length)) :: rest) more) :
      Completes limit (.parameters count :: rest) (tokens ++ ⟨.rightParen, span⟩ :: more)
  | one {rest item within tokens shape more} (derived : Derives (.one item) (limit + 1 - unclosed rest) tokens [shape])
      (after : Completes limit rest more) : Completes limit (.one item within :: rest) (tokens ++ more)
  | form {rest within opening tokens shape more}
      (derived : Derives (.one .expression) (limit + 1 - unclosed rest) (⟨.leftParen, opening⟩ :: tokens) [shape])
      (after : Completes limit rest more) : Completes limit (.form within opening :: rest) (tokens ++ more)
  | list {rest within opening tokens shape more}
      (derived : Derives (.one .datum) (limit + 1 - unclosed rest) (⟨.leftParen, opening⟩ :: tokens) [shape])
      (after : Completes limit rest more) : Completes limit (.list within opening :: rest) (tokens ++ more)
  | items {rest item within span tokens shapes more}
      (derived : Derives (.many item) (limit - unclosed rest) tokens shapes) (after : Completes limit rest more) :
      Completes limit (.items item within :: rest) (tokens ++ ⟨.rightParen, span⟩ :: more)
  | otherwise {rest within span tokens shape more}
      (derived : Derives (.one .expression) (limit - unclosed rest) tokens [shape]) (after : Completes limit rest more) :
      Completes limit (.otherwise within :: rest) (tokens ++ ⟨.rightParen, span⟩ :: more)
  | close {rest within span more} (after : Completes limit rest more) :
      Completes limit (.close within :: rest) (⟨.rightParen, span⟩ :: more)
  | withoutElse {rest within span more} (after : Completes limit rest more) :
      Completes limit (.otherwise within :: rest) (⟨.rightParen, span⟩ :: more)
  | finish {rest span more} (after : Completes limit rest more) :
      Completes limit (.finish :: rest) (⟨.finish, span⟩ :: more)

variable {limit room : Nat} {goals rest next : Agenda} {placed : Token.Placed} {item : Item} {within : List Node.Kind}
  {tokens more : List Token.Placed}

/-- What goes on behind a token that begins an item ends that item first. -/
theorem Begins.completes (begins : Begins within rest item placed next) (after : Completes limit next more) :
    ∃ inside others shape, more = inside ++ others ∧
      Derives (.one item) (limit + 1 - unclosed rest) (placed :: inside) [shape] ∧ Completes limit rest others := by
  cases begins with
  | identifier named => exact ⟨[], more, _, rfl, .identifier named, after⟩
  | number valued => exact ⟨[], more, _, rfl, .number valued, after⟩
  | boolean valued => exact ⟨[], more, _, rfl, .boolean valued, after⟩
  | tick =>
    cases after with
    | one derived after => exact ⟨_, _, _, rfl, .tick derived, after⟩
  | form =>
    cases after with
    | form derived after => exact ⟨_, _, _, rfl, derived, after⟩
  | list =>
    cases after with
    | list derived after => exact ⟨_, _, _, rfl, derived, after⟩

theorem room_of_fits (fits : unclosed rest ≤ limit) : limit + 1 - unclosed rest = limit - unclosed rest + 1 := by
  omega

theorem room_behind {goal : Goal} (one : goal.unclosed = 1) : limit + 1 - unclosed (goal :: rest) = limit - unclosed rest := by
  rw [unclosed_cons, one]
  omega

theorem completes_form {opening : Span} {inside all : List Token.Placed} {shape : Shape} (fits : unclosed rest ≤ limit)
    (derived : Derives (.one .expression) (limit - unclosed rest + 1) (⟨.leftParen, opening⟩ :: inside) [shape])
    (after : Completes limit rest more) (same : all = inside ++ more) : Completes limit (.form within opening :: rest) all := by
  rw [← room_of_fits fits] at derived
  exact same ▸ .form derived after

theorem completes_list {opening : Span} {inside all : List Token.Placed} {shape : Shape} (fits : unclosed rest ≤ limit)
    (derived : Derives (.one .datum) (limit - unclosed rest + 1) (⟨.leftParen, opening⟩ :: inside) [shape])
    (after : Completes limit rest more) (same : all = inside ++ more) : Completes limit (.list within opening :: rest) all := by
  rw [← room_of_fits fits] at derived
  exact same ▸ .list derived after

theorem Move.completes (move : Move limit goals placed next) (after : Completes limit next more) :
    Completes limit goals (placed :: more) := by
  cases move with
  | definition => exact .definition after
  | word => exact .word after
  | parameterList => exact .parameterList after
  | @parameter rest count _ _ begins =>
    cases begins with
    | identifier named =>
      cases after with
      | @parameters _ _ span tokens shapes more declared after =>
        rw [Nat.add_assoc, Nat.add_comm 1] at after
        exact .parameters (.cons (.identifier named) declared) after
    | number valued | boolean valued => contradiction
  | parametersEnd => exact .parameters .nil after
  | one begins =>
    obtain ⟨inside, others, shape, rfl, derived, after⟩ := begins.completes after
    exact .one derived after
  | @ifForm rest within opening word fits =>
    cases after with
    | one tested after =>
      cases after with
      | one chosen after =>
        rw [room_behind rfl] at chosen
        rw [unclosed_cons, Goal.unclosed, Nat.zero_add, room_behind rfl] at tested
        cases after with
        | @otherwise _ _ closing _ _ _ last after =>
          have whole := @Derives.ifElse _ opening word closing _ _ _ _ _ _ tested chosen last
          exact completes_form fits whole after (by simp)
        | @withoutElse _ _ closing _ after =>
          have whole := @Derives.ifThen _ opening word closing _ _ _ _ tested chosen
          exact completes_form fits whole after (by simp)
  | @quotation rest within opening word fits =>
    cases after with
    | one quoted after =>
      rw [room_behind rfl] at quoted
      cases after with
      | @close _ _ closing _ after =>
        have whole := @Derives.quotation _ opening word closing _ _ quoted
        exact completes_form fits whole after (by simp)
  | @application rest within opening _ _ fits begins =>
    obtain ⟨inside, others, shape, rfl, operator, ended⟩ := begins.completes after
    rw [room_behind rfl] at operator
    cases ended with
    | @items _ _ _ closing _ _ _ operands ended =>
      have whole := @Derives.application _ opening closing _ _ _ _ operator operands
      exact completes_form fits whole ended (by simp)
  | @listItem rest within opening _ _ fits begins =>
    obtain ⟨inside, others, shape, rfl, first, ended⟩ := begins.completes after
    rw [room_behind rfl] at first
    cases ended with
    | @items _ _ _ closing _ _ _ others ended =>
      have whole := @Derives.list _ opening closing _ _ (.cons first others)
      exact completes_list fits whole ended (by simp)
  | @listEnd _ within opening closing fits =>
    have whole := @Derives.list (limit - unclosed next) opening closing _ _ .nil
    exact completes_list fits whole after rfl
  | item begins =>
    obtain ⟨inside, others, shape, rfl, first, ended⟩ := begins.completes after
    rw [room_behind rfl] at first
    cases ended with
    | items others ended =>
      rw [← List.append_assoc, ← List.cons_append]
      exact .items (.cons first others) ended
  | itemsEnd => exact .items .nil after
  | otherwise begins =>
    obtain ⟨inside, others, shape, rfl, last, ended⟩ := begins.completes after
    rw [room_behind rfl] at last
    cases ended with
    | close ended =>
      rw [← List.cons_append]
      exact .otherwise last ended
  | otherwiseEnd => exact .withoutElse after
  | close => exact .close after
  | finish => exact .finish after

theorem steps_completes (taken : steps limit goals tokens = .ok next) (after : Completes limit next more) :
    Completes limit goals (tokens ++ more) := by
  -- Token by token from the end: what completes the agenda behind a token completes, with it, the agenda before.
  induction tokens generalizing goals with
  | nil =>
    cases taken
    exact after
  | cons placed tokens ih =>
    obtain ⟨middle, first, taken⟩ := steps_cons_ok taken
    exact (move_of_step first).completes (ih taken)

theorem program_of_completes (completes : Completes limit start tokens) : ∃ shape, Program limit tokens shape := by
  cases completes with
  | definition after =>
  cases after with
  | word after =>
  cases after with
  | one named after =>
  cases after with
  | parameterList after =>
  cases after with
  | parameters declared after =>
  cases after with
  | items defined after =>
  cases after with
  | finish after =>
  cases after with
  | nil => exact ⟨_, .intro named declared defined⟩

def Completable (limit : Nat) (goals : Agenda) : Prop :=
  ∃ tokens, Completes limit goals tokens

def somewhere : Span := .between .origin .origin

theorem exists_item (item : Item) (room : Nat) : ∃ tokens shape, Derives (.one item) room tokens [shape] := by
  by_cases named : item = .name
  · subst named
    have proper : Item.name ≠ .datum := nofun
    exact ⟨_, _, @Derives.identifier _ _ "name" somewhere proper⟩
  · exact ⟨_, _, @Derives.boolean _ _ true somewhere named⟩

theorem Completable.one {item : Item} (later : Completable limit rest) : Completable limit (.one item within :: rest) := by
  obtain ⟨tokens, after⟩ := later
  obtain ⟨inside, shape, derived⟩ := exists_item item (limit + 1 - unclosed rest)
  exact ⟨_, .one derived after⟩

theorem Completable.items {item : Item} (later : Completable limit rest) : Completable limit (.items item within :: rest) := by
  obtain ⟨tokens, after⟩ := later
  exact ⟨_, @Completes.items _ _ _ _ somewhere _ _ _ .nil after⟩

theorem Completable.parameters {count : Nat} (later : Completable limit rest) : Completable limit (.parameters count :: rest) := by
  obtain ⟨tokens, after⟩ := later.items
  exact ⟨_, @Completes.parameters _ _ _ somewhere _ _ _ .nil after⟩

theorem Completable.parameterList (later : Completable limit rest) : Completable limit (.parameterList :: rest) := by
  obtain ⟨tokens, after⟩ := later.parameters
  exact ⟨_, @Completes.parameterList _ _ somewhere _ after⟩

theorem Completable.word (later : Completable limit rest) : Completable limit (.word :: rest) := by
  obtain ⟨tokens, after⟩ := later.parameterList.one
  exact ⟨_, @Completes.word _ _ somewhere _ after⟩

theorem completable_of_ready (limit : Nat) (ready : Ready goals) : Completable limit goals := by
  induction goals with
  | nil => exact ⟨[], .nil⟩
  | cons goal rest ih =>
    obtain ⟨settled, ready⟩ := List.forall_mem_cons.mp ready
    have later := ih ready
    obtain ⟨tokens, after⟩ := ih ready
    cases goal with
    | definition =>
      obtain ⟨tokens, after⟩ := later.word
      exact ⟨_, @Completes.definition _ _ somewhere _ after⟩
    | word => exact later.word
    | parameterList => exact later.parameterList
    | parameters => exact later.parameters
    | one => exact later.one
    | items => exact later.items
    | otherwise => exact ⟨_, @Completes.withoutElse _ _ _ somewhere _ after⟩
    | close => exact ⟨_, @Completes.close _ _ _ somewhere _ after⟩
    | finish => exact ⟨_, @Completes.finish _ _ somewhere _ after⟩
    | form | list => cases settled

end DefunReader.Grammar.Agenda

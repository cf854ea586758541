import DefunReader.Proofs.Agenda

/-! The moves of an agenda, one for each way to take a token, and what all of them keep. -/
namespace DefunReader.Grammar.Agenda

inductive Begins (within : List Node.Kind) (rest : Agenda) : Item → Token.Placed → Agenda → Prop
  | identifier {item name span} (named : item ≠ .datum) : Begins within rest item ⟨.identifier name, span⟩ rest
  | number {item n span} (valued : item ≠ .name) : Begins within rest item ⟨.number n, span⟩ rest
  | boolean {item b span} (valued : item ≠ .name) : Begins within rest item ⟨.boolean b, span⟩ rest
  | tick {span} : Begins within rest .expression ⟨.quote true, span⟩ (.one .datum (.quote :: within) :: rest)
  | form {span} : Begins within rest .expression ⟨.leftParen, span⟩ (.form within span :: rest)
  | list {span} : Begins within rest .datum ⟨.leftParen, span⟩ (.list within span :: rest)

inductive Move (limit : Nat) : Agenda → Token.Placed → Agenda → Prop
  | definition {rest span} : Move limit (.definition :: rest) ⟨.leftParen, span⟩ (.word :: rest)
  | word {rest span} :
      Move limit (.word :: rest) ⟨.defunWord, span⟩ (.one .name (inDefinition 0) :: .parameterList :: rest)
  | parameterList {rest span} : Move limit (.parameterList :: rest) ⟨.leftParen, span⟩ (.parameters 0 :: rest)
  | parameter {rest count placed next} (begins : Begins (inDefinition 0) (.parameters (count + 1) :: rest) .name placed next) :
      Move limit (.parameters count :: rest) placed next
  | parametersEnd {rest count span} :
      Move limit (.parameters count :: rest) ⟨.rightParen, span⟩ (.items .expression (inDefinition count) :: rest)
  | one {rest item within placed next} (begins : Begins within rest item placed next) :
      Move limit (.one item within :: rest) placed next
  | ifForm {rest within opening span} (fits : unclosed rest ≤ limit) :
      Move limit (.form within opening :: rest) ⟨.ifWord, span⟩
        (.one .expression (.ifForm :: within) :: .one .expression (.ifForm :: within) ::
          .otherwise (.ifForm :: within) :: rest)
  | quotation {rest within opening span} (fits : unclosed rest ≤ limit) :
      Move limit (.form within opening :: rest) ⟨.quote false, span⟩
        (.one .datum (.quote :: within) :: .close (.quote :: within) :: rest)
  | application {rest within opening placed next} (fits : unclosed rest ≤ limit)
      (begins : Begins (.application :: within) (.items .expression (.application :: within) :: rest) .expression placed
        next) :
      Move limit (.form within opening :: rest) placed next
  | listItem {rest within opening placed next} (fits : unclosed rest ≤ limit)
      (begins : Begins (.list :: within) (.items .datum (.list :: within) :: rest) .datum placed next) :
      Move limit (.list within opening :: rest) placed next
  | listEnd {rest within opening span} (fits : unclosed rest ≤ limit) :
      Move limit (.list within opening :: rest) ⟨.rightParen, span⟩ rest
  | item {rest item within placed next} (begins : Begins within (.items item within :: rest) item placed next) :
      Move limit (.items item within :: rest) placed next
  | itemsEnd {rest item within span} : Move limit (.items item within :: rest) ⟨.rightParen, span⟩ rest
  | otherwise {rest within placed next} (begins : Begins within (.close within :: rest) .expression placed next) :
      Move limit (.otherwise within :: rest) placed next
  | otherwiseEnd {rest within span} : Move limit (.otherwise within :: rest) ⟨.rightParen, span⟩ rest
  | close {rest within span} : Move limit (.close within :: rest) ⟨.rightParen, span⟩ rest
  | finish {rest span} : Move limit (.finish :: rest) ⟨.finish, span⟩ rest

variable {limit room : Nat} {goals rest next : Agenda} {placed : Token.Placed} {item : Item} {within : List Node.Kind}

theorem begin_cases (item : Item) (within : List Node.Kind) (rest : Agenda) (placed : Token.Placed) :
    (∃ next, begin item within rest placed = .ok next ∧ Begins within rest item placed next) ∨
      begin item within rest placed = refuse item.expectation within placed := by
  obtain ⟨token, span⟩ := placed
  cases token with
  | identifier name =>
    cases item with
    | datum => exact .inr rfl
    | name | expression => exact .inl ⟨_, rfl, .identifier nofun⟩
  | number n =>
    cases item with
    | name => exact .inr rfl
    | datum | expression => exact .inl ⟨_, rfl, .number nofun⟩
  | boolean b =>
    cases item with
    | name => exact .inr rfl
    | datum | expression => exact .inl ⟨_, rfl, .boolean nofun⟩
  | leftParen =>
    cases item with
    | name => exact .inr rfl
    | datum => exact .inl ⟨_, rfl, .list⟩
    | expression => exact .inl ⟨_, rfl, .form⟩
  | quote abbreviated =>
    cases abbreviated with
    | false => cases item <;> exact .inr rfl
    | true =>
      cases item with
      | name | datum => exact .inr rfl
      | expression => exact .inl ⟨_, rfl, .tick⟩
  | rightParen | ifWord | defunWord | finish => cases item <;> exact .inr rfl

theorem begins_of_ok (taken : begin item within rest placed = .ok next) : Begins within rest item placed next := by
  rcases begin_cases item within rest placed with ⟨other, same, begins⟩ | refused
  · cases taken.symm.trans same
    exact begins
  · cases taken.symm.trans refused

theorem require_ok {kind : Token.Kind} (taken : require kind within rest placed = .ok next) :
    placed.token.kind = kind ∧ rest = next := by
  unfold require at taken
  split at taken
  · cases taken
    exact ⟨‹_›, rfl⟩
  · cases taken

theorem unlessClosed_ok {closed : Agenda} {more : Except Problem Agenda}
    (taken : unlessClosed within closed more placed = .ok next) :
    (∃ span, placed = ⟨.rightParen, span⟩ ∧ closed = next) ∨ more = .ok next := by
  obtain ⟨token, span⟩ := placed
  cases token with
  | rightParen =>
    cases taken
    exact .inl ⟨span, rfl, rfl⟩
  | finish => cases taken
  | _ => exact .inr taken

theorem nest_ok {span : Span} {inside : Except Problem Agenda} (taken : nest limit span rest inside = .ok next) :
    unclosed rest ≤ limit ∧ inside = .ok next := by
  unfold nest at taken
  split at taken
  · exact ⟨‹_›, taken⟩
  · cases taken

theorem move_of_step (taken : step limit goals placed = .ok next) : Move limit goals placed next := by
  cases goals with
  | nil => cases taken
  | cons goal rest =>
    cases goal with
    | definition =>
      obtain ⟨token, span⟩ := placed
      obtain ⟨kind, rfl⟩ := require_ok taken
      cases token <;> cases kind
      exact .definition
    | word =>
      obtain ⟨token, span⟩ := placed
      obtain ⟨kind, rfl⟩ := require_ok taken
      cases token <;> cases kind
      exact .word
    | parameterList =>
      obtain ⟨token, span⟩ := placed
      obtain ⟨kind, rfl⟩ := require_ok taken
      cases token <;> cases kind
      exact .parameterList
    | parameters count =>
      rcases unlessClosed_ok taken with ⟨span, rfl, rfl⟩ | taken
      · exact .parametersEnd
      · exact .parameter (begins_of_ok taken)
    | one item within => exact .one (begins_of_ok taken)
    | form within opening =>
      obtain ⟨fits, taken⟩ := nest_ok taken
      obtain ⟨token, span⟩ := placed
      cases token with
      | ifWord => cases taken; exact .ifForm fits
      | quote abbreviated =>
        cases abbreviated with
        | false => cases taken; exact .quotation fits
        | true => exact .application fits (begins_of_ok taken)
      | _ => exact .application fits (begins_of_ok taken)
    | list within opening =>
      obtain ⟨fits, taken⟩ := nest_ok taken
      rcases unlessClosed_ok taken with ⟨span, rfl, rfl⟩ | taken
      · exact .listEnd fits
      · exact .listItem fits (begins_of_ok taken)
    | items item within =>
      rcases unlessClosed_ok taken with ⟨span, rfl, rfl⟩ | taken
      · exact .itemsEnd
      · exact .item (begins_of_ok taken)
    | otherwise within =>
      rcases unlessClosed_ok taken with ⟨span, rfl, rfl⟩ | taken
      · exact .otherwiseEnd
      · exact .otherwise (begins_of_ok taken)
    | close within =>
      obtain ⟨token, span⟩ := placed
      obtain ⟨kind, rfl⟩ := require_ok taken
      cases token <;> cases kind
      exact .close
    | finish =>
      obtain ⟨token, span⟩ := placed
      obtain ⟨kind, rfl⟩ := require_ok taken
      cases token <;> cases kind
      exact .finish

theorem steps_cons_ok {tokens : List Token.Placed} (taken : steps limit goals (placed :: tokens) = .ok next) :
    ∃ middle, step limit goals placed = .ok middle ∧ steps limit middle tokens = .ok next := by
  cases first : step limit goals placed with
  | error problem =>
    simp only [steps, List.foldlM_cons, first] at taken
    cases taken
  | ok middle =>
    rw [steps_cons first] at taken
    exact ⟨middle, rfl, taken⟩

theorem steps_append_ok {tokens others : List Token.Placed} (taken : steps limit goals (tokens ++ others) = .ok next) :
    ∃ middle, steps limit goals tokens = .ok middle ∧ steps limit middle others = .ok next := by
  cases first : steps limit goals tokens with
  | error problem =>
    simp only [steps, List.foldlM_append] at first taken
    rw [first] at taken
    cases taken
  | ok middle =>
    rw [steps_append first] at taken
    exact ⟨middle, rfl, taken⟩

theorem steps_concat {tokens : List Token.Placed} {middle : Agenda} (taken : steps limit goals tokens = .ok middle)
    (last : step limit middle placed = .ok next) : steps limit goals (tokens ++ [placed]) = .ok next :=
  (steps_append taken).trans (steps_cons last)

theorem steps_concat_ok {tokens : List Token.Placed} (taken : steps limit goals (tokens ++ [placed]) = .ok next) :
    ∃ middle, steps limit goals tokens = .ok middle ∧ step limit middle placed = .ok next := by
  obtain ⟨middle, taken, later⟩ := steps_append_ok taken
  obtain ⟨after, last, same⟩ := steps_cons_ok later
  cases same
  exact ⟨middle, taken, last⟩

/-- No form and no list is only just opened. -/
def Ready (goals : Agenda) : Prop :=
  ∀ goal ∈ goals, goal.opens = false

theorem Ready.tail (ready : Ready goals) : Ready goals.tail :=
  fun goal member => ready goal (List.mem_of_mem_tail member)

theorem Ready.cons {goal : Goal} (ready : Ready rest) (settled : goal.opens = false) : Ready (goal :: rest) :=
  List.forall_mem_cons.mpr ⟨settled, ready⟩

theorem Begins.ready (begins : Begins within rest item placed next) (ready : Ready rest) : Ready next.tail := by
  cases begins with
  | identifier | number | boolean => exact ready.tail
  | tick | form | list => exact ready

theorem Move.ready (move : Move limit goals placed next) (ready : Ready goals.tail) : Ready next.tail := by
  cases move with
  | definition | parameterList | parametersEnd => exact ready
  | word => exact ready.cons rfl
  | parameter begins | listItem _ begins | application _ begins | item begins | otherwise begins =>
    exact begins.ready (ready.cons rfl)
  | one begins => exact begins.ready ready
  | ifForm => exact (ready.cons rfl).cons rfl
  | quotation => exact ready.cons rfl
  | listEnd | itemsEnd | otherwiseEnd | close | finish => exact ready.tail

theorem steps_ready {tokens : List Token.Placed} (taken : steps limit goals tokens = .ok next) (ready : Ready goals.tail) :
    Ready next.tail := by
  induction tokens generalizing goals with
  | nil =>
    cases taken
    exact ready
  | cons placed tokens ih =>
    obtain ⟨middle, first, taken⟩ := steps_cons_ok taken
    exact ih taken ((move_of_step first).ready ready)

theorem Begins.unclosed_eq (begins : Begins within rest item placed next) :
    unclosed next + [placed.token].count .rightParen = unclosed rest + [placed.token].count .leftParen := by
  cases begins <;> simp [Goal.unclosed, Nat.add_comm]

theorem Move.unclosed_eq (move : Move limit goals placed next) :
    unclosed next + [placed.token].count .rightParen = unclosed goals + [placed.token].count .leftParen := by
  cases move with
  | parameter begins | one begins | application _ begins | listItem _ begins | item begins | otherwise begins =>
    have same := begins.unclosed_eq
    simp only [unclosed_cons, Goal.unclosed] at same ⊢
    omega
  | _ => simp [Goal.unclosed]; try omega

theorem steps_unclosed {tokens : List Token.Placed} (taken : steps limit goals tokens = .ok next) :
    unclosed next + (tokens.map Token.Placed.token).count .rightParen =
      unclosed goals + (tokens.map Token.Placed.token).count .leftParen := by
  induction tokens generalizing goals with
  | nil =>
    cases taken
    rfl
  | cons placed tokens ih =>
    obtain ⟨middle, first, taken⟩ := steps_cons_ok taken
    have first := (move_of_step first).unclosed_eq
    have others := ih taken
    rw [List.map_cons, List.count_cons, List.count_cons]
    simp only [List.count_singleton] at first
    omega

end DefunReader.Grammar.Agenda

import DefunReader.Proofs.Stage

/-! The limit of nesting. Texts that keep a limit are read in the same way under every larger one; where a text does not, the
problem stands at the first parenthesis of a form or a list that has as many around it as the limit allows. -/
namespace DefunReader

namespace Grammar

open Agenda (steps unclosed start InBody)

/-- Whatever is an item of this kind can stand behind the tokens. -/
def Admits (before : List Token.Placed) (item : Item) : Prop :=
  ∀ room inside shape, Derives (.one item) room inside [shape] → ∃ limit, Viable limit (before ++ inside)

/-- The parenthesis is the first of a form or a list with as many open around it as the limit allows. -/
structure FirstTooDeep (limit : Nat) (before : List Token.Placed) (opening : Token.Placed) : Prop where
  paren : opening.token = .leftParen
  stands : ∃ item, item ≠ .name ∧ Admits before item
  depth : nesting before = limit
  first : ∀ earlier other more item, before = earlier ++ other :: more → other.token = .leftParen →
    item ≠ .name → Admits earlier item → nesting earlier < limit

variable {limit room : Nat} {before tokens more : List Token.Placed} {opening : Token.Placed} {goals rest : Agenda} {goal : Goal}
  {item : Item} {shape : Shape}

theorem Viable.of_append (viable : Viable limit (tokens ++ more)) : Viable limit tokens := by
  obtain ⟨others, shape, program⟩ := viable
  rw [List.append_assoc] at program
  exact ⟨more ++ others, shape, program⟩

theorem Derives.meets (derived : Derives (.one item) room tokens [shape]) : Meets room item.expectation tokens := by
  cases item with
  | name =>
    cases derived with
    | @identifier _ _ name span => exact @Meets.token room ⟨.identifier name, span⟩
    | number valued | boolean valued => contradiction
  | datum => exact .datum derived
  | expression => exact .expression derived

theorem admits_of_expectation (taken : steps limit start before = .ok (goal :: rest))
    (among : item.expectation ∈ goal.expectations) : Admits before item := by
  intro room inside shape derived
  -- A limit with room for what is open and for the item.
  have le : limit ≤ max limit (room + unclosed (goal :: rest)) := Nat.le_max_left ..
  have enough : room + unclosed (goal :: rest) ≤ max limit (room + unclosed (goal :: rest)) := Nat.le_max_right ..
  generalize max limit (room + unclosed (goal :: rest)) = larger at le enough
  have taken := Agenda.steps_mono taken le
  have fits : goal.opens → unclosed rest ≤ larger := by
    intro _
    rw [Agenda.unclosed_cons] at enough
    omega
  have meets := derived.meets.mono (show room ≤ larger + 1 - unclosed (goal :: rest) by omega)
  obtain ⟨more, after⟩ := Agenda.completes_of_meets (ready_of_steps taken) fits among meets
  obtain ⟨shape, program⟩ := Agenda.program_of_completes (Agenda.steps_completes taken after)
  exact ⟨larger, more, shape, by rwa [List.append_assoc]⟩

theorem inBody_of_admits (taken : steps limit start before = .ok goals) (admits : Admits before item) (proper : item ≠ .name) :
    InBody limit goals := by
  obtain ⟨room, viable⟩ := admits 0 [⟨.number 0, Agenda.somewhere⟩] _ (.number proper)
  obtain ⟨next, taken', -⟩ := viable_iff.mp viable
  obtain ⟨middle, taken', first⟩ := Agenda.steps_concat_ok taken'
  cases Agenda.steps_of_room taken' taken
  exact (Agenda.steps_stage taken .start).inBody_of_number (Agenda.move_of_step first)

theorem nesting_lt_of_viable (viable : Viable limit (before ++ [opening])) (paren : opening.token = .leftParen)
    (proper : item ≠ .name) (admits : Admits before item) : nesting before < limit := by
  obtain ⟨next, taken, roomy⟩ := viable_iff.mp viable
  obtain ⟨goals, taken, last⟩ := Agenda.steps_concat_ok taken
  have inside := (inBody_of_admits taken admits proper).inside
  have move := Agenda.move_of_step last
  obtain ⟨kind, opens⟩ := move.opens_of_inside inside paren
  have fits := (opens.roomy_iff move).mp roomy
  have some := inside.unclosed_pos
  rw [nesting_of_steps taken]
  omega

/-- What overflows stands at the limit; all forms and lists before it stand below. -/
theorem Overflows.first (overflows : Overflows limit before opening) : FirstTooDeep limit before opening := by
  obtain ⟨goal, rest, item, next, taken, last, among, opens, deep⟩ := opens_of_overflows overflows
  have move := Agenda.move_of_step last
  have proper : item ≠ .name := by
    cases opens <;> decide
  have admits := admits_of_expectation taken among
  have within := (inBody_of_admits taken admits proper).bounded (Agenda.roomy_of_step last)
  rw [opens.roomy_iff move] at deep
  refine ⟨overflows.paren, ⟨item, proper, admits⟩, ?_, ?_⟩
  · rw [nesting_of_steps taken]
    omega
  · intro earlier other more kind split paren proper admits
    have viable := overflows.viable
    rw [split, List.append_cons] at viable
    exact nesting_lt_of_viable viable.of_append paren proper admits

end Grammar

open Grammar (Agenda FirstTooDeep nesting)

variable {text : String} {limit larger room : Nat} {span : Span} {before other : List Token.Placed}
  {opening wrong : Token.Placed}

theorem parse_of_problem?_eq (same : Agenda.problem? limit Agenda.start (Cursor.start text).drain.1 =
    Agenda.problem? larger Agenda.start (Cursor.start text).drain.1) : parse text limit = parse text larger := by
  cases parsed : parse text larger with
  | error problem =>
    rw [problem_of_parse parsed] at same
    exact parse_of_problem same
  | ok tree =>
    obtain ⟨tokens, shape, read, derived, lists⟩ := program_of_parse parsed
    rw [problem?_of_program read derived] at same
    cases parsed' : parse text limit with
    | error problem => cases same.symm.trans (problem_of_parse parsed')
    | ok tree' =>
      obtain ⟨tokens', shape', read', derived', lists'⟩ := program_of_parse parsed'
      cases read.symm.trans read'
      cases derived.unique derived'
      rw [lists.unique lists']

theorem parse_of_le (text : String) (le : limit ≤ larger) :
    parse text limit = parse text larger ∨ ∃ span, parse text limit = .error (.nestedTooDeep span limit) := by
  rcases @Agenda.problem?_of_le _ _ Agenda.start (Cursor.start text).drain.1 le with same | ⟨span, deep⟩
  · exact .inl (parse_of_problem?_eq same)
  · exact .inr ⟨span, parse_of_problem deep⟩

theorem first_of_tooDeep (failed : parse text limit = .error (.nestedTooDeep span room)) :
    room = limit ∧ ∃ before opening, (before ++ [opening]).map .ok <+: (Cursor.start text).drain.1 ∧ opening.span = span ∧
      FirstTooDeep limit before opening := by
  rcases failure_cases failed with ⟨before, drained⟩ | ⟨_, _, _, _, -, ⟨_, blamed⟩, -⟩ |
    ⟨before, opening, placed, more, drained, deep, overflows⟩
  · have lexical := Cursor.lexical_of_drain drained
    simp [Problem.code] at lexical
  · cases blamed
  · cases deep
    exact ⟨rfl, before, opening, ⟨.ok placed :: more, drained.symm⟩, rfl, overflows.first⟩

theorem start_lt_of_first (less : limit < larger) (delivered : (before ++ [opening]).map .ok <+: (Cursor.start text).drain.1)
    (first : FirstTooDeep limit before opening) (delivered' : (other ++ [wrong]).map .ok <+: (Cursor.start text).drain.1)
    (first' : FirstTooDeep larger other wrong) : opening.span.start.offset < wrong.span.start.offset := by
  have injective : Function.Injective (Except.ok : Token.Placed → Answer) := fun _ _ => Except.ok.inj
  have distinct : before ++ [opening] ≠ other ++ [wrong] := by
    intro same
    obtain ⟨rfl, -⟩ := List.append_inj' same rfl
    have depth := first.depth.symm.trans first'.depth
    omega
  rcases List.prefix_or_prefix_of_prefix delivered delivered' with shorter | longer
  · rw [List.prefix_map_iff_of_injective injective, List.prefix_concat_iff] at shorter
    obtain ⟨between, rfl⟩ := shorter.resolve_left distinct
    obtain ⟨more, stream⟩ := delivered'
    rw [List.map_append, List.append_assoc] at stream
    exact (Cursor.start_le_of_drain stream.symm).2 opening (by simp)
  · rw [List.prefix_map_iff_of_injective injective, List.prefix_concat_iff] at longer
    obtain ⟨between, split⟩ := longer.resolve_left distinct.symm
    obtain ⟨item, proper, admits⟩ := first'.stands
    rw [List.append_assoc] at split
    have below := first.first other wrong between item split.symm first'.paren proper admits
    have depth := first'.depth
    omega

theorem parens_of_first (delivered : (before ++ [opening]).map .ok <+: (Cursor.start text).drain.1)
    (first : FirstTooDeep limit before opening) : limit < text.toList.count '(' := by
  obtain ⟨more, stream⟩ := delivered
  have count := Cursor.count_le_of_drain stream.symm
  have depth := first.depth
  simp only [List.map_append, List.map_singleton, first.paren, List.count_append, List.count_singleton_self] at count
  rw [nesting] at depth
  calc limit
    _ < (before.map Token.Placed.token).count .leftParen + 1 := by omega
    _ ≤ text.toList.count '(' := count

/-- A lower limit gives the same answer or finds the nesting too deep, and does so earlier. The nesting is too deep at the
first parenthesis of a form or a list with as many open around it as the limit allows, hence under no limit that is at least
the number of parentheses. -/
theorem parse_limits (text : String) (limit : Nat) :
    (∀ larger, limit < larger →
      (parse text limit = parse text larger ∨ ∃ span, parse text limit = .error (.nestedTooDeep span limit)) ∧
      ∀ span room, parse text larger = .error (.nestedTooDeep span room) →
        ∃ earlier, parse text limit = .error (.nestedTooDeep earlier limit) ∧ earlier.start.offset < span.start.offset) ∧
    (∀ span room, parse text limit = .error (.nestedTooDeep span room) → room = limit ∧ ∃ before opening,
      (before ++ [opening]).map .ok <+: (Cursor.start text).drain.1 ∧ opening.span = span ∧
        FirstTooDeep limit before opening) ∧
    (text.toList.count '(' ≤ limit → ∀ span room, parse text limit ≠ .error (.nestedTooDeep span room)) := by
  refine ⟨?_, ?_, ?_⟩
  · intro larger less
    have agree := parse_of_le text (Nat.le_of_lt less)
    refine ⟨agree, ?_⟩
    intro span room failed
    obtain ⟨rfl, other, wrong, delivered', rfl, first'⟩ := first_of_tooDeep failed
    rcases agree with same | ⟨earlier, failed'⟩
    · have exact' := (first_of_tooDeep (same.trans failed)).1
      omega
    · obtain ⟨-, before, opening, delivered, rfl, first⟩ := first_of_tooDeep failed'
      exact ⟨opening.span, failed', start_lt_of_first less delivered first delivered' first'⟩
  · intro span room failed
    exact first_of_tooDeep failed
  · intro enough span room failed
    obtain ⟨-, before, opening, delivered, -, first⟩ := first_of_tooDeep failed
    have few := parens_of_first delivered first
    omega

end DefunReader

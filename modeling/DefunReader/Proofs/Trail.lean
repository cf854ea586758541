import DefunReader.Proofs.Viability

/-! The trail of a syntax problem: the kinds of the constructs that are open where it stands. It is what a stack holds that is
kept from the tokens before, with nothing known of the reading. -/
namespace DefunReader

inductive Frame where
  | program
  /-- A definition before its parameters. -/
  | head
  | parameters (count : Nat)
  | body (arity : Nat)
  | ifForm
  | application
  | quote (abbreviated : Bool)
  | list
deriving DecidableEq

namespace Frame

/-- The arity of a definition is that of its parameters once they are closed. -/
def kind : Frame → Node.Kind
  | program => .program
  | head | parameters _ => .defun 0
  | body arity => .defun arity
  | ifForm => .ifForm
  | application => .application
  | quote _ => .quote
  | list => .list

def evaluates : Frame → Bool
  | body _ | ifForm | application => true
  | _ => false

def quotes : Frame → Bool
  | quote _ | list => true
  | _ => false

/-- The form that a parenthesis opens where an expression is taken, by the token behind it. -/
def form : Option Token → Frame
  | some .ifWord => ifForm
  | some (.quote false) => quote false
  | _ => application

end Frame

namespace Trail

def kinds (stack : List Frame) : List Node.Kind := stack.map Frame.kind

/-- A tick is closed with its datum. -/
def settle : List Frame → List Frame
  | .quote true :: outer => outer
  | stack => stack

def opening (ahead : Option Token) : List Frame → List Frame
  | .program :: outer => if ahead = some .defunWord then .head :: .program :: outer else .program :: outer
  | .head :: outer => .parameters 0 :: outer
  | frame :: outer =>
    if frame.evaluates then .form ahead :: frame :: outer
    else if frame.quotes then .list :: frame :: outer
    else frame :: outer
  | [] => []

def closing : List Frame → List Frame
  | .parameters count :: outer => .body count :: outer
  | .list :: outer => settle outer
  | .body _ :: outer | .ifForm :: outer | .application :: outer | .quote false :: outer => outer
  | stack => stack

/-- A name among the parameters of a definition is one of them. -/
def named : List Frame → List Frame
  | .parameters count :: outer => .parameters (count + 1) :: outer
  | stack => stack

def ticked : List Frame → List Frame
  | frame :: outer => if frame.evaluates then .quote true :: frame :: outer else frame :: outer
  | [] => []

/-- The stack behind a token; `ahead` is the token that follows, if one does. -/
def take (stack : List Frame) (ahead : Option Token) : Token → List Frame
  | .leftParen => opening ahead stack
  | .rightParen => closing stack
  | .number _ | .boolean _ => settle stack
  | .identifier _ => named stack
  | .quote true => ticked stack
  | .ifWord | .defunWord | .quote false | .finish => stack

def replay (stack : List Frame) : List Token → List Frame
  | [] => stack
  | token :: tokens => replay (take stack tokens.head? token) tokens

end Trail

namespace Grammar

open Agenda (steps step unclosed start Begins Move inDefinition refuse require begin unlessClosed beginForm nest)
open Trail (kinds settle opening closing named ticked take replay)

def Goal.context : Goal → List Node.Kind
  | definition | word | finish => [.program]
  | parameterList | parameters _ => inDefinition 0
  | one _ within | items _ within | otherwise within | close within => within
  | form within _ => .application :: within
  | list within _ => .list :: within

/-- The goals are what the open constructs still take. -/
inductive Rests : Agenda → List Frame → Prop
  | definition : Rests [.definition, .finish] [.program]
  | finish : Rests [.finish] [.program]
  | name : Rests [.one .name (inDefinition 0), .parameterList, .finish] [.head, .program]
  | parameterList : Rests [.parameterList, .finish] [.head, .program]
  | parameters {count} : Rests [.parameters count, .finish] [.parameters count, .program]
  | body {arity} : Rests [.items .expression (inDefinition arity), .finish] [.body arity, .program]
  | operands {rest outer} (rests : Rests rest outer) :
      Rests (.items .expression (kinds (.application :: outer)) :: rest) (.application :: outer)
  | expression {rest outer} (rests : Rests rest (.ifForm :: outer)) :
      Rests (.one .expression (kinds (.ifForm :: outer)) :: rest) (.ifForm :: outer)
  | otherwise {rest outer} (rests : Rests rest outer) :
      Rests (.otherwise (kinds (.ifForm :: outer)) :: rest) (.ifForm :: outer)
  | close {frame rest outer} (form : frame = .ifForm ∨ frame = .quote false) (rests : Rests rest outer) :
      Rests (.close (kinds (frame :: outer)) :: rest) (frame :: outer)
  | datum {abbreviated rest outer} (rests : Rests rest (settle (.quote abbreviated :: outer))) :
      Rests (.one .datum (kinds (.quote abbreviated :: outer)) :: rest) (.quote abbreviated :: outer)
  | data {rest outer} (rests : Rests rest (settle outer)) :
      Rests (.items .datum (kinds (.list :: outer)) :: rest) (.list :: outer)
  | list {rest outer span} (rests : Rests rest (settle outer)) : Rests (.list (kinds outer) span :: rest) (.list :: outer)

/-- The same, where the token behind an opening parenthesis may still have to tell what it opened. -/
inductive Tracks (ahead : Option Token) : Agenda → List Frame → Prop
  | rests {goals stack} (rests : Rests goals stack) : Tracks ahead goals stack
  | word : Tracks ahead [.word, .finish] (opening ahead [.program])
  | form {rest outer span} (rests : Rests rest outer) : Tracks ahead (.form (kinds outer) span :: rest) (.form ahead :: outer)

variable {limit : Nat} {goals rest next : Agenda} {placed : Token.Placed} {frame : Frame} {outer stack : List Frame}
  {ahead : Option Token}

theorem settle_of_evaluates (evaluates : frame.evaluates) : settle (frame :: outer) = frame :: outer := by
  cases frame <;> first | contradiction | rfl

theorem Rests.begins_datum (quotes : frame.quotes) (rests : Rests rest (settle (frame :: outer)))
    (begins : Begins (kinds (frame :: outer)) rest .datum placed next) :
    Rests next (take (frame :: outer) ahead placed.token) := by
  cases begins with
  | identifier named => contradiction
  | number | boolean => exact rests
  | list =>
    have pushed : opening ahead (frame :: outer) = .list :: frame :: outer := by
      cases frame <;> first | contradiction | rfl
    rw [take, pushed]
    exact .list rests

theorem Rests.begins_expression (evaluates : frame.evaluates) (rests : Rests rest (frame :: outer))
    (begins : Begins (kinds (frame :: outer)) rest .expression placed next) :
    Tracks ahead next (take (frame :: outer) ahead placed.token) := by
  cases begins with
  | identifier =>
    have same : named (frame :: outer) = frame :: outer := by
      cases frame <;> first | contradiction | rfl
    rw [take, same]
    exact .rests rests
  | number | boolean =>
    rw [take, settle_of_evaluates evaluates]
    exact .rests rests
  | tick =>
    rw [take, ticked, if_pos evaluates]
    exact .rests (@Rests.datum true _ _ rests)
  | form =>
    have pushed : opening ahead (frame :: outer) = .form ahead :: frame :: outer := by
      cases frame <;> first | contradiction | rfl
    rw [take, pushed]
    exact .form rests

/-- No token that begins an expression makes another form of what it is the operator of. -/
theorem form_of_begins {within : List Node.Kind} {item : Item} (begins : Begins within rest item placed next) :
    Frame.form (some placed.token) = .application := by
  cases begins <;> rfl

theorem name_of_begins {within : List Node.Kind} (begins : Begins within rest .name placed next) :
    (∃ name, placed.token = .identifier name) ∧ next = rest := by
  cases begins with
  | identifier => exact ⟨⟨_, rfl⟩, rfl⟩
  | number valued | boolean valued => contradiction

theorem Tracks.move (tracks : Tracks (some placed.token) goals stack) (move : Move limit goals placed next)
    (proper : placed.token ≠ .finish) : Tracks ahead next (take stack ahead placed.token) := by
  cases tracks with
  | word =>
    cases move
    exact .rests .name
  | form rests =>
    -- The frame was chosen by the very token that is taken now.
    cases move with
    | ifForm => exact .rests (.expression (.expression (.otherwise rests)))
    | quotation => exact .rests (@Rests.datum false _ _ (.close (.inr rfl) rests))
    | application _ begins =>
      rw [form_of_begins begins]
      exact Rests.begins_expression rfl (.operands rests) begins
  | rests rests =>
    cases rests with
    | definition => cases move; exact .word
    | finish =>
      cases move
      exact absurd rfl proper
    | name =>
      cases move with
      | one begins =>
        obtain ⟨⟨name, named⟩, rfl⟩ := name_of_begins begins
        rw [named]
        exact .rests .parameterList
    | parameterList => cases move; exact .rests .parameters
    | parameters =>
      cases move with
      | parameter begins =>
        obtain ⟨⟨name, named⟩, rfl⟩ := name_of_begins begins
        rw [named]
        exact .rests .parameters
      | parametersEnd => exact .rests .body
    | body =>
      cases move with
      | item begins => exact Rests.begins_expression rfl .body begins
      | itemsEnd => exact .rests .finish
    | operands rests =>
      cases move with
      | item begins => exact Rests.begins_expression rfl (.operands rests) begins
      | itemsEnd => exact .rests rests
    | expression rests =>
      cases move with
      | one begins => exact Rests.begins_expression rfl rests begins
    | otherwise rests =>
      cases move with
      | otherwise begins => exact Rests.begins_expression rfl (.close (.inl rfl) rests) begins
      | otherwiseEnd => exact .rests rests
    | close form rests =>
      cases move
      rcases form with rfl | rfl <;> exact .rests rests
    | datum rests =>
      cases move with
      | one begins => exact .rests (rests.begins_datum rfl begins)
    | data rests =>
      cases move with
      | item begins => exact .rests (Rests.begins_datum rfl (.data rests) begins)
      | itemsEnd => exact .rests rests
    | list rests =>
      cases move with
      | listItem _ begins => exact .rests (Rests.begins_datum rfl (.data rests) begins)
      | listEnd => exact .rests rests

theorem Tracks.steps {tokens : List Token.Placed} (tracks : Tracks (tokens.map Token.Placed.token).head? goals stack)
    (taken : steps limit goals tokens = .ok next) (proper : ∀ placed ∈ tokens, placed.token ≠ .finish) :
    Tracks none next (replay stack (tokens.map Token.Placed.token)) := by
  induction tokens generalizing goals stack with
  | nil =>
    cases taken
    exact tracks
  | cons placed tokens ih =>
    obtain ⟨middle, first, taken⟩ := Agenda.steps_cons_ok taken
    obtain ⟨proper, others⟩ := List.forall_mem_cons.mp proper
    exact ih (tracks.move (Agenda.move_of_step first) proper) taken others

theorem Tracks.context_eq (tracks : Tracks none goals stack) : ∃ goal rest, goals = goal :: rest ∧ goal.context = kinds stack := by
  cases tracks with
  | word | form => exact ⟨_, _, rfl, rfl⟩
  | rests rests => cases rests <;> exact ⟨_, _, rfl, rfl⟩

theorem getLast?_of_settle (bottom : (settle stack).getLast? = some .program) : stack.getLast? = some .program := by
  unfold settle at bottom
  split at bottom
  · simp [List.getLast?_cons, bottom]
  · exact bottom

theorem Rests.bottom (rests : Rests goals stack) : stack.getLast? = some .program := by
  induction rests with
  | definition | finish | name | parameterList | parameters | body => rfl
  | expression _ ih => exact ih
  | datum _ ih => exact getLast?_of_settle ih
  | operands _ ih | otherwise _ ih | close _ _ ih => simp [List.getLast?_cons, ih]
  | data _ ih | list _ ih => simp [List.getLast?_cons, getLast?_of_settle ih]

theorem Tracks.bottom (tracks : Tracks none goals stack) : stack.getLast? = some .program := by
  cases tracks with
  | rests rests => exact rests.bottom
  | word => rfl
  | form rests => simp [List.getLast?_cons, rests.bottom]

section Refused

variable {span : Span} {expected : Expectation} {found : Token.Kind} {within context : List Node.Kind}

theorem within_of_refuse {expectation : Expectation}
    (refused : refuse expectation context placed = .error (.unexpectedToken span expected found within)) : within = context := by
  cases refused
  rfl

theorem within_of_require {kind : Token.Kind}
    (refused : require kind context rest placed = .error (.unexpectedToken span expected found within)) : within = context := by
  unfold require at refused
  split at refused
  · cases refused
  · exact within_of_refuse refused

theorem within_of_begin {item : Item}
    (refused : begin item context rest placed = .error (.unexpectedToken span expected found within)) : within = context := by
  rcases Agenda.begin_cases item context rest placed with ⟨next, taken, -⟩ | same
  · cases taken.symm.trans refused
  · exact within_of_refuse (same.symm.trans refused)

theorem within_of_unlessClosed {closed : Agenda} {more : Except Problem Agenda}
    (refused : unlessClosed context closed more placed = .error (.unexpectedToken span expected found within))
    (begun : more = .error (.unexpectedToken span expected found within) → within = context) : within = context := by
  unfold unlessClosed at refused
  split at refused
  · cases refused
  · exact within_of_refuse refused
  · exact begun refused

theorem within_of_beginForm (refused : beginForm context rest placed = .error (.unexpectedToken span expected found within)) :
    within = .application :: context := by
  unfold beginForm at refused
  split at refused
  · cases refused
  · cases refused
  · exact within_of_begin refused

theorem inside_of_nest {opening : Span} {inside : Except Problem Agenda}
    (refused : nest limit opening rest inside = .error (.unexpectedToken span expected found within)) :
    inside = .error (.unexpectedToken span expected found within) := by
  rcases Agenda.nest_error refused with ⟨-, refused⟩ | ⟨-, other⟩
  · exact refused
  · cases other

theorem within_of_refused {goal : Goal}
    (refused : step limit (goal :: rest) placed = .error (.unexpectedToken span expected found within)) :
    within = goal.context := by
  cases goal with
  | definition | word | parameterList | close | finish => exact within_of_require refused
  | one item within => exact within_of_begin refused
  | parameters count => exact within_of_unlessClosed refused within_of_begin
  | items item within => exact within_of_unlessClosed refused within_of_begin
  | otherwise within => exact within_of_unlessClosed refused within_of_begin
  | form within opening => exact within_of_beginForm (inside_of_nest refused)
  | list within opening => exact within_of_unlessClosed (inside_of_nest refused) within_of_begin

end Refused

end Grammar

/-- The trail of a syntax problem is what is open where it stands: the stack that the tokens before it leave. They are the ones
that start before it. -/
theorem syntax_trail {text : String} {limit : Nat} {span : Span} {expected : Expectation} {found : Token.Kind}
    {within : List Node.Kind} (failed : parse text limit = .error (.unexpectedToken span expected found within)) :
    ∃ (before : List Token.Placed) (placed : Token.Placed) (more : List Answer),
      (Cursor.start text).drain.1 = before.map .ok ++ .ok placed :: more ∧ placed.span = span ∧ placed.token.kind = found ∧
      (∀ earlier ∈ before, earlier.span.start.offset < span.start.offset) ∧
      within = (Trail.replay [.program] (before.map Token.Placed.token)).map Frame.kind ∧
      within ≠ [] ∧ within.getLast? = some .program := by
  rcases Grammar.Agenda.problem?_cases (problem_of_parse failed) with ⟨before, more, drained⟩ |
    ⟨before, placed, more, goals, drained, taken, refused⟩
  · have lexical := Cursor.lexical_of_drain drained
    simp [Problem.code] at lexical
  · obtain ⟨expectation, inside, same⟩ : ∃ expectation inside, Problem.unexpectedToken span expected found within =
        .unexpectedToken placed.span expectation placed.token.kind inside := by
      rcases Grammar.Agenda.blames_or_beyond refused with ⟨-, expectation, inside, same⟩ | ⟨goal, rest, opening, rfl, beyond⟩
      · exact ⟨expectation, inside, same⟩
      · -- Going too deep is a problem of its own.
        cases beyond
    have tracks := Grammar.Tracks.steps (.rests .definition) taken (Cursor.ne_finish_of_drain drained)
    obtain ⟨goal, rest, rfl, context⟩ := tracks.context_eq
    have trail := (Grammar.within_of_refused refused).trans context
    have bottom : within.getLast? = some .program := by
      rw [trail, Trail.kinds, List.getLast?_map, tracks.bottom]
      rfl
    cases same
    refine ⟨before, placed, more, drained, rfl, rfl, (Cursor.start_le_of_drain drained).2, trail, ?_, bottom⟩
    intro none
    rw [none] at bottom
    cases bottom

/-- A tick inside a conditional, and a token that is no datum in the list behind it. -/
theorem syntax_trail_tick : ∃ within, parse "(defun f (x) (if x '(1 defun" 4 =
      .error (.unexpectedToken ⟨⟨1, 24, 23⟩, 28⟩ .datum .defunWord within) ∧
    within = [.list, .quote, .ifForm, .defun 1, .program] ∧ within.getLast? = some .program := by
  have failed : parse "(defun f (x) (if x '(1 defun" 4 = .error (.unexpectedToken ⟨⟨1, 24, 23⟩, 28⟩ .datum .defunWord
      [.list, .quote, .ifForm, .defun 1, .program]) := by
    decide +kernel
  obtain ⟨before, placed, more, -, -, -, -, -, -, bottom⟩ := syntax_trail failed
  exact ⟨_, failed, rfl, bottom⟩

end DefunReader

import DefunReader.Proofs.Grammar
import DefunReader.Scanner

/-! What a reading still has to read, as an agenda of goals that takes one token at a time. A goal knows the
nodes that it stands in, innermost first, as a problem there reports them. -/
namespace DefunReader.Grammar

def Item.expectation : Item → Expectation
  | name => .token .identifier
  | datum => .datum
  | expression => .expression

inductive Goal where
  | definition
  | word
  | parameterList
  | parameters (count : Nat)
  | one (item : Item) (within : List Node.Kind)
  /-- Behind the parenthesis of a form; the nesting is checked with the token that follows. -/
  | form (within : List Node.Kind) (span : Span)
  | list (within : List Node.Kind) (span : Span)
  /-- Items up to a closing parenthesis. -/
  | items (item : Item) (within : List Node.Kind)
  | otherwise (within : List Node.Kind)
  | close (within : List Node.Kind)
  | finish
deriving DecidableEq

def Goal.unclosed : Goal → Nat
  | definition | one _ _ | finish => 0
  | word | parameterList | form _ _ | list _ _ | items _ _ | otherwise _ | close _ => 1
  | parameters _ => 2

def Goal.opens : Goal → Bool
  | form _ _ | list _ _ => true
  | _ => false

abbrev Agenda := List Goal

namespace Agenda

def start : Agenda := [.definition, .finish]

/-- The parentheses that are open, that of the definition included. -/
def unclosed (goals : Agenda) : Nat :=
  goals.foldr (fun goal count => goal.unclosed + count) 0

@[simp] theorem unclosed_nil : unclosed [] = 0 := rfl

@[simp] theorem unclosed_cons (goal : Goal) (goals : Agenda) : unclosed (goal :: goals) = goal.unclosed + unclosed goals :=
  rfl

def inDefinition (arity : Nat) : List Node.Kind := [.defun arity, .program]

def refuse (expected : Expectation) (within : List Node.Kind) (placed : Token.Placed) : Except Problem Agenda :=
  .error (.unexpectedToken placed.span expected placed.token.kind within)

def require (kind : Token.Kind) (within : List Node.Kind) (rest : Agenda) (placed : Token.Placed) :
    Except Problem Agenda :=
  if placed.token.kind = kind then .ok rest else refuse (.token kind) within placed

def begin (item : Item) (within : List Node.Kind) (rest : Agenda) (placed : Token.Placed) : Except Problem Agenda :=
  match item, placed.token with
  | .name, .identifier _ | .datum, .number _ | .datum, .boolean _ => .ok rest
  | .expression, .identifier _ | .expression, .number _ | .expression, .boolean _ => .ok rest
  | .expression, .quote true => .ok (.one .datum (.quote :: within) :: rest)
  | .expression, .leftParen => .ok (.form within placed.span :: rest)
  | .datum, .leftParen => .ok (.list within placed.span :: rest)
  | item, _ => refuse item.expectation within placed

/-- A sequence goes on up to its closing parenthesis, which the end of the text leaves missing. -/
def unlessClosed (within : List Node.Kind) (closed : Agenda) (more : Except Problem Agenda) (placed : Token.Placed) :
    Except Problem Agenda :=
  match placed.token with
  | .rightParen => .ok closed
  | .finish => refuse (.token .rightParen) within placed
  | _ => more

def proceed (item : Item) (within : List Node.Kind) (rest : Agenda) (placed : Token.Placed) : Except Problem Agenda :=
  unlessClosed within rest (begin item within (.items item within :: rest) placed) placed

def beginForm (within : List Node.Kind) (rest : Agenda) (placed : Token.Placed) : Except Problem Agenda :=
  match placed.token with
  | .ifWord =>
    .ok (.one .expression (.ifForm :: within) :: .one .expression (.ifForm :: within) ::
      .otherwise (.ifForm :: within) :: rest)
  | .quote false => .ok (.one .datum (.quote :: within) :: .close (.quote :: within) :: rest)
  | _ => begin .expression (.application :: within) (.items .expression (.application :: within) :: rest) placed

def nest (limit : Nat) (span : Span) (rest : Agenda) (inside : Except Problem Agenda) : Except Problem Agenda :=
  if unclosed rest ≤ limit then inside else .error (.nestedTooDeep span limit)

def step (limit : Nat) : Agenda → Token.Placed → Except Problem Agenda
  | [], placed => refuse (.token .finish) [] placed
  | .definition :: rest, placed => require .leftParen [.program] (.word :: rest) placed
  | .word :: rest, placed =>
    require .defunWord [.program] (.one .name (inDefinition 0) :: .parameterList :: rest) placed
  | .parameterList :: rest, placed => require .leftParen (inDefinition 0) (.parameters 0 :: rest) placed
  | .parameters count :: rest, placed =>
    unlessClosed (inDefinition 0) (.items .expression (inDefinition count) :: rest)
      (begin .name (inDefinition 0) (.parameters (count + 1) :: rest) placed) placed
  | .one item within :: rest, placed => begin item within rest placed
  | .form within span :: rest, placed => nest limit span rest (beginForm within rest placed)
  | .list within span :: rest, placed => nest limit span rest (proceed .datum (.list :: within) rest placed)
  | .items item within :: rest, placed => proceed item within rest placed
  | .otherwise within :: rest, placed =>
    unlessClosed within rest (begin .expression within (.close within :: rest) placed) placed
  | .close within :: rest, placed => require .rightParen within rest placed
  | .finish :: rest, placed => require .finish [.program] rest placed

def steps (limit : Nat) (goals : Agenda) (tokens : List Token.Placed) : Except Problem Agenda :=
  tokens.foldlM (step limit) goals

/-- The problem that a stream of answers runs into: its own, or that of a token no goal takes. -/
def problem? (limit : Nat) : Agenda → List Answer → Option Problem
  | _, [] => none
  | _, .error problem :: _ => some problem
  | goals, .ok placed :: answers =>
    match step limit goals placed with
    | .error problem => some problem
    | .ok goals => problem? limit goals answers

variable {limit : Nat} {goals next : Agenda} {placed : Token.Placed}

@[simp] theorem steps_nil : steps limit goals [] = .ok goals := rfl

theorem steps_cons {tokens : List Token.Placed} (taken : step limit goals placed = .ok next) :
    steps limit goals (placed :: tokens) = steps limit next tokens := by
  simp only [steps, List.foldlM_cons, taken]
  rfl

theorem steps_append {first rest : List Token.Placed} (taken : steps limit goals first = .ok next) :
    steps limit goals (first ++ rest) = steps limit next rest := by
  simp only [steps, List.foldlM_append] at taken ⊢
  rw [taken]
  rfl

theorem problem?_cons {answers : List Answer} (taken : step limit goals placed = .ok next) :
    problem? limit goals (.ok placed :: answers) = problem? limit next answers := by
  rw [problem?, taken]

theorem problem?_refused {answers : List Answer} {problem : Problem} (refused : step limit goals placed = .error problem) :
    problem? limit goals (.ok placed :: answers) = some problem := by
  rw [problem?, refused]

theorem problem?_append {tokens : List Token.Placed} {answers : List Answer} (taken : steps limit goals tokens = .ok next) :
    problem? limit goals (tokens.map .ok ++ answers) = problem? limit next answers := by
  induction tokens generalizing goals with
  | nil =>
    cases taken
    rfl
  | cons placed tokens ih =>
    cases found : step limit goals placed with
    | error problem =>
      simp only [steps, List.foldlM_cons, found] at taken
      cases taken
    | ok middle =>
      rw [steps_cons found] at taken
      rw [List.map_cons, List.cons_append, problem?_cons found, ih taken]

def Repeats (limit : Nat) (item : Item) (within : List Node.Kind) (again closed : Nat → Agenda) : Prop :=
  ∀ count placed, step limit (again count) placed =
    unlessClosed within (closed count) (begin item within (again (count + 1)) placed) placed

theorem repeats_items (limit : Nat) (item : Item) (within : List Node.Kind) (rest : Agenda) :
    Repeats limit item within (fun _ => .items item within :: rest) (fun _ => rest) := fun _ _ => rfl

theorem repeats_parameters (limit : Nat) (rest : Agenda) :
    Repeats limit .name (inDefinition 0) (fun count => .parameters count :: rest)
      (fun count => .items .expression (inDefinition count) :: rest) := fun _ _ => rfl

theorem unlessClosed_of_starts {within : List Node.Kind} {closed : Agenda} {more : Except Problem Agenda}
    (starts : startsItem placed.token) : unlessClosed within closed more placed = more := by
  unfold unlessClosed
  split <;> simp_all [startsItem]

theorem beginForm_of_starts {within : List Node.Kind} {rest : Agenda} (starts : startsItem placed.token) :
    beginForm within rest placed =
      begin .expression (.application :: within) (.items .expression (.application :: within) :: rest) placed := by
  unfold beginForm
  split <;> simp_all [startsItem]

/-- Whether what nests `room` deep may stand before `rest`; names nest nothing. -/
def Fits (limit : Nat) (item : Item) (room : Nat) (rest : Agenda) : Prop :=
  item ≠ .name → room ≤ limit + 1 - unclosed rest

theorem outside_fits {rest : Agenda} {room : Nat} (fits : room + 1 ≤ limit + 1 - unclosed rest) : unclosed rest ≤ limit := by
  omega

theorem inside_fits {item : Item} {rest inside : Agenda} {room : Nat} (one : unclosed inside = 1 + unclosed rest)
    (fits : room + 1 ≤ limit + 1 - unclosed rest) : Fits limit item room inside := by
  intro _
  omega

theorem step_form {within : List Node.Kind} {rest : Agenda} {span : Span} (fits : unclosed rest ≤ limit) :
    step limit (.form within span :: rest) placed = beginForm within rest placed :=
  if_pos fits

theorem step_list {within : List Node.Kind} {rest : Agenda} {span : Span} (fits : unclosed rest ≤ limit) :
    step limit (.list within span :: rest) placed = proceed .datum (.list :: within) rest placed :=
  if_pos fits

theorem step_form_deep {within : List Node.Kind} {rest : Agenda} {span : Span} (deep : ¬unclosed rest ≤ limit) :
    step limit (.form within span :: rest) placed = .error (.nestedTooDeep span limit) :=
  if_neg deep

theorem step_list_deep {within : List Node.Kind} {rest : Agenda} {span : Span} (deep : ¬unclosed rest ≤ limit) :
    step limit (.list within span :: rest) placed = .error (.nestedTooDeep span limit) :=
  if_neg deep

theorem steps_item_congr {other : Agenda} {item : Item} {room : Nat} {tokens : List Token.Placed} {shapes : List Shape}
    (derived : Derives (.one item) room tokens shapes)
    (same : ∀ placed, startsItem placed.token → step limit goals placed = step limit other placed) :
    steps limit goals tokens = steps limit other tokens := by
  obtain ⟨placed, rest, rfl, starts⟩ := derived.starts
  simp only [steps, List.foldlM_cons, same placed starts]

/-- The goal of a phrase takes exactly these tokens, which stand for so many branches. -/
def Takes (limit room : Nat) (tokens : List Token.Placed) (branches : Nat) : Phrase → Prop
  | .one item => ∀ within rest, Fits limit item room rest → steps limit (.one item within :: rest) tokens = .ok rest
  | .many item => ∀ within again closed, Repeats limit item within again closed →
      (∀ count, Fits limit item room (again count)) →
      ∀ count, steps limit (again count) tokens = .ok (again (count + branches))

theorem takes_of_derives {phrase : Phrase} {room : Nat} {tokens : List Token.Placed} {shapes : List Shape}
    (derived : Derives phrase room tokens shapes) : Takes limit room tokens shapes.length phrase := by
  induction derived with
  | nil => exact fun _ _ _ _ _ _ => rfl
  | @cons item room first rest shape shapes head _ headSteps tailSteps =>
    intro within again closed repeats fits count
    have taken : steps limit (again count) first = .ok (again (count + 1)) :=
      (steps_item_congr head fun placed starts => (repeats count placed).trans (unlessClosed_of_starts starts)).trans
        (headSteps within _ (fits _))
    rw [steps_append taken, tailSteps within again closed repeats fits (count + 1), List.length_cons,
      Nat.add_assoc, Nat.add_comm 1]
  | @identifier item room name span named =>
    intro within rest _
    cases item <;> first | contradiction | rfl
  | @number item room n span valued =>
    intro within rest _
    cases item <;> first | contradiction | rfl
  | @boolean item room b span valued =>
    intro within rest _
    cases item <;> first | contradiction | rfl
  | tick _ datum =>
    intro within rest fits
    exact datum _ rest fun _ => fits nofun
  | quotation _ datum =>
    intro within rest fits
    have room := fits nofun
    rw [steps_cons rfl, steps_cons (step_form (outside_fits room)), steps_append (datum _ _ (inside_fits rfl room))]
    rfl
  | ifThen _ _ tested chosen =>
    intro within rest fits
    have room := fits nofun
    rw [steps_cons rfl, steps_cons (step_form (outside_fits room)),
      steps_append (tested _ _ (inside_fits (Nat.zero_add _) room)), steps_append (chosen _ _ (inside_fits rfl room))]
    rfl
  | @ifElse _ _ _ _ _ _ third _ _ _ _ _ last tested chosen otherwise =>
    intro within rest fits
    have room := fits nofun
    -- The third expression begins where a parenthesis could close the form as well.
    have taken : steps limit (.otherwise (.ifForm :: within) :: rest) third = .ok (.close (.ifForm :: within) :: rest) :=
      (steps_item_congr last fun placed starts => by simp only [step, unlessClosed_of_starts starts]).trans
        (otherwise (.ifForm :: within) _ (inside_fits rfl room))
    rw [steps_cons rfl, steps_cons (step_form (outside_fits room)),
      steps_append (tested _ _ (inside_fits (Nat.zero_add _) room)), steps_append (chosen _ _ (inside_fits rfl room)),
      steps_append taken]
    rfl
  | @application _ opening _ first _ _ _ head _ operator operands =>
    intro within rest fits
    have room := fits nofun
    -- The operator begins where a keyword could make it another form.
    have taken : steps limit (.form within opening :: rest) first =
        .ok (.items .expression (.application :: within) :: rest) :=
      (steps_item_congr head fun placed starts =>
        (step_form (outside_fits room)).trans (beginForm_of_starts starts)).trans
        (operator _ _ (inside_fits rfl room))
    rw [steps_cons rfl, steps_append taken, steps_append (operands _ _ _ (repeats_items limit .expression _ rest)
      (fun _ => inside_fits rfl room) 0)]
    rfl
  | @list _ opening closing tokens _ _ items =>
    intro within rest fits
    have room := fits nofun
    have taken := items _ _ _ (repeats_items limit .datum (.list :: within) rest) (fun _ => inside_fits rfl room) 0
    -- Behind the parenthesis the list reads as one that has begun, also where it is empty.
    have same : steps limit (.list within opening :: rest) (tokens ++ [⟨.rightParen, closing⟩]) =
        steps limit (.items .datum (.list :: within) :: rest) (tokens ++ [⟨.rightParen, closing⟩]) := by
      cases tokens <;>
        simp only [steps, List.nil_append, List.cons_append, List.foldlM_cons, step_list (outside_fits room)] <;> rfl
    rw [steps_cons rfl, same, steps_append taken]
    rfl

theorem steps_of_program {tokens : List Token.Placed} {shape : Shape} (derived : Program limit tokens shape) :
    steps limit start tokens = .ok [] := by
  cases derived with
  | @intro _ _ _ _ _ _ _ _ _ _ formals _ named declared defined =>
    have fits : Fits limit .name limit [.parameterList, .finish] := nofun
    have name := takes_of_derives named (inDefinition 0) _ fits
    have parameters := takes_of_derives declared _ _ _ (repeats_parameters limit [.finish]) (by simp [Fits]) 0
    have body := takes_of_derives defined _ _ _
      (repeats_items limit .expression (inDefinition (0 + formals.length)) [.finish])
      (fun _ _ => by simp [Goal.unclosed]) 0
    rw [start, steps_cons rfl, steps_cons rfl, steps_append name, steps_cons rfl, steps_append parameters,
      steps_cons rfl, steps_append body]
    rfl

end Agenda

end DefunReader.Grammar

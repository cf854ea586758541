import DefunReader.Proofs.Branch
import DefunReader.Proofs.Lookups
import DefunReader.Proofs.Preorder
import DefunReader.Proofs.Stage
import DefunReader.Proofs.Trail

/-! The limit bounds how deep trees are. It counts the parentheses of forms and lists, and all but three levels of a tree have
one: the program and its definition have none of their own, and nor has a tick, inside which there are only data. -/
namespace DefunReader

namespace Grammar

/-- The most levels that an item has whose forms and lists nest `room` deep. Only an expression can add a tick to them. -/
def Item.height (room : Nat) : Item → Nat
  | name => 1
  | datum => room + 1
  | expression => room + 2

theorem deepest_of_derives {phrase : Phrase} {room : Nat} {tokens : List Token.Placed} {shapes : List Shape}
    (derived : Derives phrase room tokens shapes) : Shape.deepest shapes ≤ phrase.item.height room := by
  induction derived with
  | nil => exact Nat.zero_le _
  | cons _ _ head tail =>
    simp only [Shape.deepest, Phrase.item] at head tail ⊢
    omega
  | @identifier item | @number item | @boolean item =>
    cases item <;> simp [Shape.deepest, Shape.levels, Phrase.item, Item.height]
  | tick _ datum | quotation _ datum =>
    simp only [Shape.deepest, Shape.levels, Phrase.item, Item.height] at datum ⊢
    omega
  | ifThen _ _ tested chosen =>
    simp only [Shape.deepest, Shape.levels, Phrase.item, Item.height] at tested chosen ⊢
    omega
  | ifElse _ _ _ tested chosen otherwise =>
    simp only [Shape.deepest, Shape.levels, Phrase.item, Item.height] at tested chosen otherwise ⊢
    omega
  | application _ _ head tail =>
    simp only [Shape.deepest, Shape.levels, Phrase.item, Item.height] at head tail ⊢
    omega
  | list _ items =>
    simp only [Shape.deepest, Shape.levels, Phrase.item, Item.height] at items ⊢
    omega

theorem levels_of_program {limit : Nat} {tokens : List Token.Placed} {shape : Shape} (derived : Program limit tokens shape) :
    shape.levels ≤ limit + 4 := by
  cases derived with
  | @intro _ _ _ _ _ _ _ _ _ title formals expressions named declared defined =>
    have name := deepest_of_derives named
    have parameters := deepest_of_derives declared
    have body := deepest_of_derives defined
    simp only [Shape.deepest, Shape.levels, Shape.deepest_append, Phrase.item, Item.height] at name parameters body ⊢
    omega

end Grammar

def Frame.unclosed : Frame → Nat
  | program | quote true => 0
  | head | body _ | ifForm | application | quote false | list => 1
  | parameters _ => 2

namespace Trail

def unclosed : List Frame → Nat
  | [] => 0
  | frame :: outer => frame.unclosed + unclosed outer

/-- Nothing stands around the program, and only lists stand inside a tick. -/
def Layered (stack : List Frame) : Prop :=
  stack.Pairwise fun inner outer => inner ≠ .program ∧ (outer = .quote true → inner = .list)

variable {frame other : Frame} {stack outer : List Frame} {ahead : Option Token}

theorem Layered.tail (layered : Layered (frame :: outer)) : Layered outer :=
  List.Pairwise.of_cons layered

theorem Layered.none_ticked (layered : Layered (frame :: outer)) (proper : frame ≠ .list) : .quote true ∉ outer := by
  intro member
  exact proper ((List.rel_of_pairwise_cons layered member).2 rfl)

theorem Layered.cons (layered : Layered outer) (proper : frame ≠ .program) (none : .quote true ∉ outer) :
    Layered (frame :: outer) := by
  apply List.Pairwise.cons _ layered
  intro other member
  refine ⟨proper, ?_⟩
  rintro rfl
  exact absurd member none

theorem Layered.list (layered : Layered outer) : Layered (.list :: outer) := by
  apply List.Pairwise.cons _ layered
  intro other _
  exact ⟨nofun, fun _ => rfl⟩

theorem Layered.replace (layered : Layered (frame :: outer)) (single : frame ≠ .list) (proper : other ≠ .program) :
    Layered (other :: outer) :=
  layered.tail.cons proper (layered.none_ticked single)

theorem Layered.push (layered : Layered (frame :: outer)) (plain : frame.quotes = false) (proper : other ≠ .program) :
    Layered (other :: frame :: outer) := by
  apply layered.cons proper
  intro member
  rcases List.mem_cons.mp member with same | member
  · subst same
    cases plain
  · apply layered.none_ticked _ member
    rintro rfl
    cases plain

theorem Layered.settle (layered : Layered stack) : Layered (settle stack) := by
  fun_cases Trail.settle stack with
  | case1 => exact layered.tail
  | case2 => exact layered

theorem not_quotes_of_evaluates (evaluates : frame.evaluates) : frame.quotes = false := by
  cases frame <;> first | contradiction | rfl

theorem form_ne_program (ahead : Option Token) : Frame.form ahead ≠ .program := by
  unfold Frame.form
  split <;> nofun

theorem Layered.opening (layered : Layered stack) : Layered (opening ahead stack) := by
  fun_cases Trail.opening ahead stack with
  | case1 => exact layered.push rfl nofun
  | case2 => exact layered
  | case3 => exact layered.replace nofun nofun
  | case4 => exact layered.push (not_quotes_of_evaluates ‹_›) (form_ne_program ahead)
  | case5 => exact layered.list
  | case6 | case7 => exact layered

theorem Layered.closing (layered : Layered stack) : Layered (closing stack) := by
  fun_cases Trail.closing stack with
  | case1 => exact layered.replace nofun nofun
  | case2 => exact layered.tail.settle
  | case3 | case4 | case5 | case6 => exact layered.tail
  | case7 => exact layered

theorem Layered.take (layered : Layered stack) (token : Token) : Layered (take stack ahead token) := by
  cases token with
  | leftParen => exact layered.opening
  | rightParen => exact layered.closing
  | number | boolean => exact layered.settle
  | identifier =>
    rw [Trail.take]
    fun_cases named stack with
    | case1 => exact layered.replace (by simp) (by simp)
    | case2 => exact layered
  | quote abbreviated =>
    cases abbreviated with
    | false => exact layered
    | true =>
      rw [Trail.take]
      fun_cases ticked stack with
      | case1 => exact layered.push (not_quotes_of_evaluates ‹_›) (by simp)
      | case2 | case3 => exact layered
  | ifWord | defunWord | finish => exact layered

theorem Layered.replay (layered : Layered stack) (tokens : List Token) : Layered (replay stack tokens) := by
  induction tokens generalizing stack with
  | nil => exact layered
  | cons token tokens ih => exact ih (layered.take token)

/-- The frames without parentheses are the program and ticks. -/
theorem length_le_counts (stack : List Frame) :
    stack.length ≤ unclosed stack + stack.count (.quote true) + stack.count .program := by
  induction stack with
  | nil => exact Nat.zero_le _
  | cons frame outer ih =>
    fun_cases Frame.unclosed frame <;> simp [unclosed, Frame.unclosed] <;> omega

theorem Layered.count_ticks_le (layered : Layered stack) : stack.count (.quote true) ≤ 1 := by
  induction stack with
  | nil => exact Nat.zero_le _
  | cons frame outer ih =>
    by_cases inner : frame = .list
    · have other : frame ≠ .quote true := by
        rw [inner]
        nofun
      rw [List.count_cons_of_ne other]
      exact ih layered.tail
    · rw [List.count_cons, List.count_eq_zero.mpr (layered.none_ticked inner)]
      split <;> simp

theorem Layered.count_program_le (layered : Layered stack) : stack.count .program ≤ 1 := by
  induction stack with
  | nil => exact Nat.zero_le _
  | cons frame outer ih =>
    by_cases bottom : frame = .program
    · subst bottom
      cases outer with
      | nil => simp
      | cons other outer => exact absurd rfl (List.rel_of_pairwise_cons layered List.mem_cons_self).1
    · rw [List.count_cons_of_ne bottom]
      exact ih layered.tail

theorem Layered.length_le (layered : Layered stack) : stack.length ≤ unclosed stack + 2 := by
  have frames := length_le_counts stack
  have ticks := layered.count_ticks_le
  have programs := layered.count_program_le
  omega

end Trail

namespace Grammar

variable {limit : Nat} {goals rest : Agenda} {goal : Goal} {stack : List Frame}

theorem unclosed_settle (stack : List Frame) : Trail.unclosed (Trail.settle stack) = Trail.unclosed stack := by
  fun_cases Trail.settle stack with
  | case1 outer => simp [Trail.unclosed, Frame.unclosed]
  | case2 => rfl

theorem Rests.unclosed_eq (rests : Rests goals stack) : Agenda.unclosed goals = Trail.unclosed stack := by
  induction rests with
  | definition | finish | name | parameterList | parameters | body => rfl
  | operands _ ih | otherwise _ ih => simp [Goal.unclosed, Trail.unclosed, Frame.unclosed, ih]
  | expression _ ih => simp [Goal.unclosed, ih]
  | close form _ ih => rcases form with rfl | rfl <;> simp [Goal.unclosed, Trail.unclosed, Frame.unclosed, ih]
  | datum _ ih => simp [Goal.unclosed, ih, unclosed_settle]
  | data _ ih | list _ ih => simp [Goal.unclosed, Trail.unclosed, Frame.unclosed, ih, unclosed_settle]

theorem Tracks.length_le (tracks : Tracks none goals stack) (layered : Trail.Layered stack) :
    stack.length ≤ Agenda.unclosed goals + 2 := by
  have bound := layered.length_le
  cases tracks with
  | rests rests =>
    rw [rests.unclosed_eq]
    exact bound
  | word => simp [Trail.opening, Goal.unclosed]
  | form rests =>
    rw [Agenda.unclosed_cons, Goal.unclosed, rests.unclosed_eq]
    exact bound

/-- What a goal reports is at most three constructs more than the limit. -/
theorem length_context_le (stage : Agenda.Stage limit (goal :: rest)) (roomy : Agenda.Roomy limit (goal :: rest))
    (tracks : Tracks none (goal :: rest) stack) (layered : Trail.Layered stack) : stack.length ≤ limit + 3 := by
  have bound := tracks.length_le layered
  cases stage with
  | body inBody =>
    have fits := inBody.bounded roomy
    omega
  | start | word | name | parameterList | finish =>
    simp only [Agenda.unclosed_cons, Agenda.unclosed_nil, Goal.unclosed] at bound
    omega
  | parameters =>
    cases tracks with
    | rests rests => cases rests; simp

end Grammar

open Grammar (Agenda)

/-- What stands above a node of a parsed tree, the calls that a walk of the tree nests, which its fuel counts, and what a syntax
problem reports as open are all bounded by the limit. -/
theorem depth_within_limit (text : String) (limit : Nat) :
    (∀ tree, parse text limit = .ok tree →
      (∀ id h, (tree.ancestors id h).length ≤ limit + 3) ∧
      Lookup.sexp tree.nodes (limit + 4) Tree.root = some (tree.sexp Tree.root tree.root_lt_size) ∧
      Lookup.outline tree.nodes (limit + 4) 0 Tree.root = some ((tree.shape Tree.root tree.root_lt_size).outline 0)) ∧
    ∀ span expected found within, parse text limit = .error (.unexpectedToken span expected found within) →
      within.length ≤ limit + 3 := by
  constructor
  · intro tree parsed
    obtain ⟨tokens, shape, -, derived, lists⟩ := program_of_parse parsed
    have levels : (tree.shape Tree.root tree.root_lt_size).levels ≤ limit + 4 := by
      rw [lists.holds.shape_eq]
      exact Grammar.levels_of_program derived
    refine ⟨?_, tree.lookup_sexp Tree.root _ levels, tree.lookup_outline Tree.root _ levels⟩
    intro id h
    have bound := @Tree.ancestors_add_levels_le _ _ h lists.linked lists.rooted
    have some := (tree.shape id h).levels_pos
    omega
  · intro span expected found within failed
    obtain ⟨before, placed, more, goal, rest, drained, -, -, refuses⟩ := refuses_of_unexpected failed
    have tracks := Grammar.Tracks.steps (.rests .definition) refuses.taken (Cursor.ne_finish_of_drain drained)
    obtain ⟨_, _, same, context⟩ := tracks.context_eq
    cases same
    have stage := Grammar.Agenda.steps_stage refuses.taken .start
    have bottom : Trail.Layered [.program] := List.pairwise_singleton ..
    have bound := Grammar.length_context_le stage refuses.roomy tracks (bottom.replay _)
    rw [Grammar.within_of_refused refuses.refused, context, Trail.kinds, List.length_map]
    exact bound

/-- Inside a tick, the constructs that are open are three more than the limit. -/
example : parse "(defun f (x) '(1 defun" 1 = .error (.unexpectedToken ⟨⟨1, 18, 17⟩, 22⟩ .datum .defunWord
    [.list, .quote, .defun 1, .program]) := by
  decide +kernel

end DefunReader

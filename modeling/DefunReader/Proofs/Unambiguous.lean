import DefunReader.Proofs.Agenda

/-! The grammar is unambiguous: a phrase ends where its goal has nothing left to read, so no phrase continues
another, and tokens stand for one tree at most. -/
namespace DefunReader.Grammar

open Agenda

variable {item : Item} {room larger : Nat} {tokens others first second : List Token.Placed} {shapes branches : List Shape}

theorem Derives.prefix_free (left : Derives (.one item) room tokens shapes)
    (right : Derives (.one item) larger others branches) (same : tokens ++ first = others ++ second) :
    tokens = others ∧ first = second := by
  -- The agenda of the item alone is empty behind either, and an empty agenda takes nothing more.
  have nothing {extra : List Token.Placed} (taken : steps (max room larger) [] extra = .ok []) : extra = [] := by
    cases extra with
    | nil => rfl
    | cons placed extra => cases taken
  have ended := takes_of_derives left [] [] fun _ => Nat.le_succ_of_le (Nat.le_max_left room larger)
  have ended' := takes_of_derives right [] [] fun _ => Nat.le_succ_of_le (Nat.le_max_right room larger)
  rcases List.append_eq_append_iff.mp same with ⟨extra, rfl, rfl⟩ | ⟨extra, rfl, rfl⟩
  · rw [steps_append ended] at ended'
    simp [nothing ended']
  · rw [steps_append ended'] at ended
    simp [nothing ended]

theorem Derives.many_prefix_free {closing ending : Token.Placed} (left : Derives (.many item) room tokens shapes)
    (right : Derives (.many item) larger others branches) (same : tokens ++ closing :: first = others ++ ending :: second)
    (closes : startsItem closing.token = false) (ends : startsItem ending.token = false) :
    tokens = others ∧ closing :: first = ending :: second := by
  -- The induction is on the derivation of a sequence, so its phrase is a variable.
  generalize phrased : Phrase.many item = phrase at left
  induction left generalizing others branches with
  | nil =>
    cases right with
    | nil => exact ⟨rfl, same⟩
    | cons head tail =>
      obtain ⟨placed, rest, rfl, starts⟩ := head.starts
      simp only [List.nil_append, List.cons_append, List.cons.injEq] at same
      rw [same.1, starts] at closes
      contradiction
  | cons head tail _ ih =>
    cases phrased
    cases right with
    | nil =>
      obtain ⟨placed, rest, rfl, starts⟩ := head.starts
      simp only [List.nil_append, List.cons_append, List.cons.injEq] at same
      rw [← same.1, starts] at ends
      contradiction
    | cons head' tail' =>
      rw [List.append_assoc, List.append_assoc] at same
      obtain ⟨rfl, remaining⟩ := head.prefix_free head' same
      obtain ⟨rfl, behind⟩ := ih tail' remaining rfl
      exact ⟨rfl, behind⟩
  | _ => cases phrased

theorem Derives.ne_application {word : Token.Placed} {operator : Shape} (head : Derives (.one item) room tokens [operator])
    (keyword : startsItem word.token = false) : word :: first ≠ tokens ++ second := by
  obtain ⟨placed, rest, rfl, starts⟩ := head.starts
  intro same
  rw [(List.cons.inj same).1, starts] at keyword
  contradiction

theorem Derives.unique {phrase : Phrase} (left : Derives phrase room tokens shapes)
    (right : Derives phrase larger others branches) (same : tokens = others) : shapes = branches := by
  -- The parts of one derivation are cut off the other in order: where a part ends does not depend on what follows.
  induction left generalizing larger others branches with
  | nil =>
    cases right with
    | nil => rfl
    | cons head tail =>
      obtain ⟨placed, rest, rfl, starts⟩ := head.starts
      cases same
  | cons head tail headUnique tailUnique =>
    cases right with
    | nil =>
      obtain ⟨placed, rest, rfl, starts⟩ := head.starts
      cases same
    | cons head' tail' =>
      obtain ⟨rfl, remaining⟩ := head.prefix_free head' same
      obtain ⟨rfl⟩ := headUnique head' rfl
      rw [tailUnique tail' remaining]
  | identifier =>
    cases right <;> cases same
    rfl
  | number =>
    cases right <;> cases same
    rfl
  | boolean =>
    cases right <;> cases same
    rfl
  | tick datum unique =>
    cases right <;> cases same
    obtain ⟨rfl⟩ := unique ‹_› rfl
    rfl
  | quotation datum unique =>
    cases right with
    | quotation datum' =>
      simp only [List.cons.injEq] at same
      obtain ⟨rfl, ended⟩ := datum.prefix_free datum' same.2.2
      obtain ⟨rfl⟩ := unique datum' rfl
      cases same.1
      rfl
    | application head => exact absurd (List.cons.inj same).2 (head.ne_application rfl)
    | _ => cases same
  | ifThen tested chosen testedUnique chosenUnique =>
    cases right with
    | ifThen tested' chosen' =>
      simp only [List.cons.injEq] at same
      obtain ⟨rfl, remaining⟩ := tested.prefix_free tested' same.2.2
      obtain ⟨rfl, ended⟩ := chosen.prefix_free chosen' remaining
      obtain ⟨rfl⟩ := testedUnique tested' rfl
      obtain ⟨rfl⟩ := chosenUnique chosen' rfl
      cases same.1
      rfl
    | ifElse tested' chosen' otherwise' =>
      simp only [List.cons.injEq] at same
      obtain ⟨rfl, remaining⟩ := tested.prefix_free tested' same.2.2
      obtain ⟨rfl, ended⟩ := chosen.prefix_free chosen' remaining
      -- Where one form is closed, the other has a third expression.
      exact absurd ended (otherwise'.ne_application rfl)
    | application head => exact absurd (List.cons.inj same).2 (head.ne_application rfl)
    | _ => cases same
  | ifElse tested chosen otherwise testedUnique chosenUnique otherwiseUnique =>
    cases right with
    | ifThen tested' chosen' =>
      simp only [List.cons.injEq] at same
      obtain ⟨rfl, remaining⟩ := tested.prefix_free tested' same.2.2
      obtain ⟨rfl, ended⟩ := chosen.prefix_free chosen' remaining
      exact absurd ended.symm (otherwise.ne_application rfl)
    | ifElse tested' chosen' otherwise' =>
      simp only [List.cons.injEq] at same
      obtain ⟨rfl, remaining⟩ := tested.prefix_free tested' same.2.2
      obtain ⟨rfl, further⟩ := chosen.prefix_free chosen' remaining
      obtain ⟨rfl, ended⟩ := otherwise.prefix_free otherwise' further
      obtain ⟨rfl⟩ := testedUnique tested' rfl
      obtain ⟨rfl⟩ := chosenUnique chosen' rfl
      obtain ⟨rfl⟩ := otherwiseUnique otherwise' rfl
      cases same.1
      rfl
    | application head => exact absurd (List.cons.inj same).2 (head.ne_application rfl)
    | _ => cases same
  | application head tail headUnique tailUnique =>
    cases right with
    | application head' tail' =>
      simp only [List.cons.injEq] at same
      obtain ⟨rfl, remaining⟩ := head.prefix_free head' same.2
      obtain ⟨rfl, ended⟩ := tail.many_prefix_free tail' remaining rfl rfl
      obtain ⟨rfl⟩ := headUnique head' rfl
      rw [tailUnique tail' rfl]
      cases same.1
      rfl
    | quotation => exact absurd (List.cons.inj same).2.symm (head.ne_application rfl)
    | ifThen => exact absurd (List.cons.inj same).2.symm (head.ne_application rfl)
    | ifElse => exact absurd (List.cons.inj same).2.symm (head.ne_application rfl)
    | _ => obtain ⟨placed, rest, rfl, starts⟩ := head.starts; cases same
  | list items itemsUnique =>
    cases right with
    | list items' =>
      simp only [List.cons.injEq] at same
      obtain ⟨rfl, ended⟩ := items.many_prefix_free items' same.2 rfl rfl
      rw [itemsUnique items' rfl]
      cases same.1
      rfl
    | _ => cases same

theorem Program.unique {shape other : Shape} (left : Program room tokens shape) (right : Program larger tokens other) :
    shape = other := by
  generalize same : tokens = others at right
  cases left with
  | intro named declared defined =>
    cases right with
    | intro named' declared' defined' =>
      simp only [List.cons.injEq] at same
      obtain ⟨rfl, further⟩ := named.prefix_free named' same.2.2
      obtain ⟨rfl, inside⟩ := declared.many_prefix_free declared' (List.cons.inj further).2 rfl rfl
      obtain ⟨rfl, ended⟩ := defined.many_prefix_free defined' (List.cons.inj inside).2 rfl rfl
      obtain ⟨rfl⟩ := named.unique named' rfl
      rw [declared.unique declared' rfl, defined.unique defined' rfl]
      cases same.1
      rfl

end DefunReader.Grammar

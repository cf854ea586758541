import DefunReader.Reading.Grammar

/-! What a reading keeps up. The productions touch the cursor, the lookahead and the journal in one way only, which is to take
a token before the end of the text; so whatever that keeps up, every production does, and where one stops there is little to
be said. -/
namespace DefunReader.Reading

variable {α β : Type}

/-- From a state on, a reading ends as `post` says or stops as `out` says. -/
def Ensures (m : Reading α) (s : State) (post : α → State → Prop) (out : Stop → State → Prop) : Prop :=
  match m s with
  | .ok a rest => post a rest
  | .error e rest => out e rest

section Ensures

variable {m : Reading α} {f : α → Reading β} {s : State} {mid post : α → State → Prop} {last : β → State → Prop}
  {out : Stop → State → Prop}

theorem Ensures.bind (first : Ensures m s mid out) (further : ∀ a rest, mid a rest → Ensures (f a) rest last out) :
    Ensures (m >>= f) s last out := by
  simp only [Ensures, Bind.bind, EStateM.bind] at first ⊢
  cases run : m s with
  | ok a rest =>
    rw [run] at first
    exact further a rest first
  | error e rest =>
    rw [run] at first
    exact first

theorem Ensures.weaken (first : Ensures m s mid out) (weaker : ∀ a rest, mid a rest → post a rest) : Ensures m s post out := by
  simp only [Ensures] at first ⊢
  cases run : m s with
  | ok a rest =>
    rw [run] at first
    exact weaker a rest first
  | error e rest =>
    rw [run] at first
    exact first

theorem peek_ensures : Ensures peek s (fun token rest => token = s.lookahead.token ∧ s = rest) out :=
  ⟨rfl, rfl⟩

theorem unexpected_ensures {expected : Expectation} {context : Nat} (defect : ∀ defect, out (.defect defect) s)
    (refused : ∀ within, out (.problem (.unexpectedToken s.lookahead.span expected s.lookahead.token.kind within)) s) :
    Ensures (unexpected expected context) s post out := by
  unfold Ensures unexpected
  by_cases h : context < s.tree.size
  · rw [dif_pos h]
    exact refused _
  · rw [dif_neg h]
    exact defect _

end Ensures

/-- What states keep up in a reading, and what holds where it stops before the end of the program is asked for. -/
structure Upkeep (limit : Nat) (inv : State → Prop) (out : Stop → State → Prop) : Prop where
  /-- The tree and the depth may change. -/
  still {s : State} (tree : Tree) (depth : Nat) (holds : inv s) : inv { s with tree, depth }
  /-- Only a parenthesis that was just taken can be nested too deep. -/
  advance {s : State} (holds : inv s) (proper : s.lookahead.token ≠ .finish) :
    Ensures advance s (fun placed rest => inv rest ∧ placed = s.lookahead ∧
      (placed.token.kind = .leftParen → out (.problem (.nestedTooDeep placed.span limit)) rest)) out
  unexpected {s : State} (expected : Expectation) (within : List Node.Kind) (holds : inv s)
    (proper : expected ≠ .token .finish) :
    out (.problem (.unexpectedToken s.lookahead.span expected s.lookahead.token.kind within)) s
  defect {s : State} (defect : Defect) (holds : inv s) : out (.defect defect) s

namespace Upkeep

variable {limit fuel parent context : Nat} {inv : State → Prop} {out : Stop → State → Prop} {m : Reading α} {f : α → Reading β}
  {s : State} {kind : Node.Kind} {value : Option Node.Value} {span : Span} {expression : Nat → Reading Nat} {item : Reading Nat}

def Maintains (inv : State → Prop) (out : Stop → State → Prop) (m : Reading α) : Prop :=
  ∀ s, inv s → Ensures m s (fun _ rest => inv rest) out

theorem Maintains.bind (first : Maintains inv out m) (further : ∀ a, Maintains inv out (f a)) :
    Maintains inv out (m >>= f) := by
  intro s holds
  apply (first s holds).bind
  intro a rest holds
  exact further a rest holds

theorem Maintains.pure (a : α) : Maintains inv out (Pure.pure a : Reading α) := fun _ holds => holds

theorem stop_maintains (upkeep : Upkeep limit inv out) (defect : Defect) :
    Maintains inv out (stop (.defect defect) : Reading α) :=
  fun _ holds => upkeep.defect defect holds

theorem refusal_ensures (upkeep : Upkeep limit inv out) {expected : Expectation} {post : α → State → Prop} (holds : inv s)
    (proper : expected ≠ .token .finish) : Ensures (Reading.unexpected expected context) s post out := by
  apply unexpected_ensures
  · intro defect
    exact upkeep.defect defect holds
  · intro within
    exact upkeep.unexpected expected within holds proper

theorem push_maintains (upkeep : Upkeep limit inv out) : Maintains inv out (push parent kind value span) := by
  intro s holds
  unfold Ensures push
  by_cases h : parent < s.tree.size
  · rw [dif_pos h]
    exact upkeep.still _ s.depth holds
  · rw [dif_neg h]
    exact upkeep.defect _ holds

theorem setKind_maintains (upkeep : Upkeep limit inv out) {id : Nat} : Maintains inv out (setKind id kind) := by
  intro s holds
  unfold Ensures setKind
  by_cases h : id < s.tree.size
  · rw [if_pos h]
    exact upkeep.still _ s.depth holds
  · rw [if_neg h]
    exact upkeep.defect _ holds

theorem leave_maintains (upkeep : Upkeep limit inv out) : Maintains inv out leave := by
  intro s holds
  unfold Ensures leave
  cases s.depth with
  | zero => exact upkeep.defect _ holds
  | succ depth => exact upkeep.still s.tree depth holds

theorem enter_ensures (upkeep : Upkeep limit inv out) (holds : inv s) (deep : out (.problem (.nestedTooDeep span limit)) s) :
    Ensures (enter limit span) s (fun _ rest => inv rest) out := by
  unfold Ensures enter
  by_cases room : s.depth < limit
  · rw [if_pos room]
    exact upkeep.still s.tree _ holds
  · rw [if_neg room]
    exact deep

theorem advance_ensures (upkeep : Upkeep limit inv out) (holds : inv s) (proper : s.lookahead.token ≠ .finish) :
    Ensures Reading.advance s (fun _ rest => inv rest) out :=
  (upkeep.advance holds proper).weaken fun _ _ done => done.1

theorem expect_ensures (upkeep : Upkeep limit inv out) (token : Token.Kind) (holds : inv s) (proper : token ≠ .finish) :
    Ensures (expect token context) s (fun placed rest => inv rest ∧
      (token = .leftParen → out (.problem (.nestedTooDeep placed.span limit)) rest)) out := by
  apply peek_ensures.bind
  intro found rest same
  obtain ⟨rfl, rfl⟩ := same
  by_cases fits : s.lookahead.token.kind = token
  · subst fits
    rw [if_pos rfl]
    have inside : s.lookahead.token ≠ .finish := by
      intro last
      rw [last] at proper
      exact proper rfl
    apply (upkeep.advance holds inside).weaken
    intro placed rest done
    obtain ⟨holds, rfl, deep⟩ := done
    exact ⟨holds, deep⟩
  · rw [if_neg fits]
    have other : Expectation.token token ≠ .token .finish := fun same => proper (Expectation.token.inj same)
    exact upkeep.refusal_ensures holds other

theorem expect_maintains (upkeep : Upkeep limit inv out) (token : Token.Kind) (proper : token ≠ .finish) :
    Maintains inv out (expect token context) := by
  intro s holds
  exact (upkeep.expect_ensures token holds proper).weaken fun _ _ done => done.1

theorem beforeClose_maintains (upkeep : Upkeep limit inv out) : Maintains inv out (beforeClose context) := by
  intro s holds
  apply peek_ensures.bind
  intro token rest same
  obtain ⟨rfl, rfl⟩ := same
  split
  · exact holds
  · exact upkeep.refusal_ensures holds nofun
  · exact holds

theorem untilClose_maintains (upkeep : Upkeep limit inv out) (inner : Maintains inv out item) :
    Maintains inv out (untilClose context item fuel) := by
  induction fuel with
  | zero => exact upkeep.stop_maintains _
  | succ fuel ih =>
    apply upkeep.beforeClose_maintains.bind
    intro more
    split
    · apply inner.bind
      intro _
      apply ih.bind
      intro count
      exact .pure (count + 1)
    · exact .pure 0

theorem leaf_ensures (upkeep : Upkeep limit inv out) {leafValue : Node.Value} (holds : inv s)
    (proper : s.lookahead.token ≠ .finish) : Ensures (leaf parent kind leafValue) s (fun _ rest => inv rest) out := by
  apply (upkeep.advance_ensures holds proper).bind
  intro placed rest holds
  exact upkeep.push_maintains rest holds

theorem identifier_maintains (upkeep : Upkeep limit inv out) : Maintains inv out (identifier parent) := by
  intro s holds
  apply peek_ensures.bind
  intro token rest same
  obtain ⟨rfl, rfl⟩ := same
  cases found : s.lookahead.token with
  | identifier => exact upkeep.leaf_ensures holds (found ▸ nofun)
  | _ => exact upkeep.refusal_ensures holds nofun

theorem datum_maintains (upkeep : Upkeep limit inv out) : Maintains inv out (datum limit fuel parent) := by
  induction fuel generalizing parent with
  | zero => exact upkeep.stop_maintains _
  | succ fuel ih =>
    intro s holds
    apply peek_ensures.bind
    intro token rest same
    obtain ⟨rfl, rfl⟩ := same
    cases found : s.lookahead.token with
    | number | boolean => exact upkeep.leaf_ensures holds (found ▸ nofun)
    | leftParen =>
      apply (upkeep.advance holds (found ▸ nofun)).bind
      intro opening t done
      obtain ⟨holds, rfl, deep⟩ := done
      apply (upkeep.enter_ensures holds (deep (congrArg Token.kind found))).bind
      intro _ u holds
      apply (upkeep.push_maintains u holds).bind
      intro list v holds
      apply (upkeep.untilClose_maintains ih v holds).bind
      intro _ w holds
      apply (upkeep.expect_maintains .rightParen nofun w holds).bind
      intro _ x holds
      apply (upkeep.leave_maintains x holds).bind
      intro _ y holds
      exact holds
    | _ => exact upkeep.refusal_ensures holds nofun

theorem quotation_maintains (upkeep : Upkeep limit inv out) : Maintains inv out (quotation limit fuel parent span) := by
  apply upkeep.push_maintains.bind
  intro quote
  apply upkeep.datum_maintains.bind
  intro _
  exact .pure quote

theorem ifForm_maintains (upkeep : Upkeep limit inv out) (inner : ∀ parent, Maintains inv out (expression parent)) :
    Maintains inv out (ifForm expression parent span) := by
  apply upkeep.push_maintains.bind
  intro node
  apply (inner node).bind
  intro _
  apply (inner node).bind
  intro _
  apply upkeep.beforeClose_maintains.bind
  intro more
  split
  · apply (inner node).bind
    intro _
    exact .pure node
  · exact .pure node

theorem application_maintains (upkeep : Upkeep limit inv out) (inner : ∀ parent, Maintains inv out (expression parent)) :
    Maintains inv out (application expression fuel parent span) := by
  apply upkeep.push_maintains.bind
  intro node
  apply (inner node).bind
  intro _
  apply (upkeep.untilClose_maintains (inner node)).bind
  intro _
  exact .pure node

theorem formBody_maintains (upkeep : Upkeep limit inv out) (inner : ∀ parent, Maintains inv out (expression parent)) :
    Maintains inv out (formBody limit expression fuel parent span) := by
  intro s holds
  apply peek_ensures.bind
  intro token rest same
  obtain ⟨rfl, rfl⟩ := same
  split
  · rename_i found
    apply (upkeep.advance_ensures holds (found ▸ nofun)).bind
    intro _ t holds
    exact upkeep.ifForm_maintains inner t holds
  · rename_i found
    apply (upkeep.advance_ensures holds (found ▸ nofun)).bind
    intro _ t holds
    exact upkeep.quotation_maintains t holds
  · exact upkeep.application_maintains inner s holds

theorem form_maintains (upkeep : Upkeep limit inv out) (inner : ∀ parent, Maintains inv out (expression parent)) :
    Maintains inv out (form limit expression fuel parent) := by
  intro s holds
  apply (upkeep.expect_ensures .leftParen holds nofun).bind
  intro opening t done
  obtain ⟨holds, deep⟩ := done
  apply (upkeep.enter_ensures holds (deep rfl)).bind
  intro _ u holds
  apply (upkeep.formBody_maintains inner u holds).bind
  intro node v holds
  apply (upkeep.expect_maintains .rightParen nofun v holds).bind
  intro _ w holds
  apply (upkeep.leave_maintains w holds).bind
  intro _ x holds
  exact holds

theorem expression_maintains (upkeep : Upkeep limit inv out) : Maintains inv out (Reading.expression limit fuel parent) := by
  induction fuel generalizing parent with
  | zero => exact upkeep.stop_maintains _
  | succ fuel ih =>
    intro s holds
    apply peek_ensures.bind
    intro token rest same
    obtain ⟨rfl, rfl⟩ := same
    cases found : s.lookahead.token with
    | number | boolean | identifier => exact upkeep.leaf_ensures holds (found ▸ nofun)
    | quote abbreviated =>
      cases abbreviated with
      | false => exact upkeep.refusal_ensures holds nofun
      | true =>
        apply (upkeep.advance_ensures holds (found ▸ nofun)).bind
        intro tick t holds
        exact upkeep.quotation_maintains t holds
    | leftParen => exact upkeep.form_maintains (fun _ => ih) s holds
    | _ => exact upkeep.refusal_ensures holds nofun

/-- A definition is noted once it is read. -/
theorem definition_ensures (upkeep : Upkeep limit inv out) (holds : inv s) :
    Ensures (definition limit fuel parent) s
      (fun _ rest => ∃ t arity, inv t ∧ rest = { t with journal := t.journal.push (.definitionRead arity) }) out := by
  apply (upkeep.expect_maintains .leftParen nofun s holds).bind
  intro opening t holds
  apply (upkeep.expect_maintains .defunWord nofun t holds).bind
  intro _ t holds
  apply (upkeep.push_maintains t holds).bind
  intro defun t holds
  apply (upkeep.identifier_maintains t holds).bind
  intro _ t holds
  apply (upkeep.expect_maintains .leftParen nofun t holds).bind
  intro _ t holds
  apply (upkeep.untilClose_maintains upkeep.identifier_maintains t holds).bind
  intro arity t holds
  apply (upkeep.expect_maintains .rightParen nofun t holds).bind
  intro _ t holds
  apply (upkeep.setKind_maintains t holds).bind
  intro _ t holds
  apply (upkeep.untilClose_maintains upkeep.expression_maintains t holds).bind
  intro _ t holds
  apply (upkeep.expect_maintains .rightParen nofun t holds).bind
  intro _ t holds
  exact ⟨t, arity, holds, rfl⟩

end Upkeep

end DefunReader.Reading

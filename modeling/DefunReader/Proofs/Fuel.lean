import DefunReader.Proofs.Steps
import DefunReader.Proofs.Upkeep

/-! Fuel does not decide what a reading gives. Every item of a sequence and everything that is nested takes a token, so as much
fuel as there are tokens ahead is enough, and with more the reading goes the same way. -/
namespace DefunReader.Reading

variable {α β : Type}

def State.waiting (s : State) : Nat := s.stream.length

/-- Two readings go the same way from a state on, end as `post` says, and do not stop for want of fuel. -/
def Same (m m' : Reading α) (s : State) (post : α → State → Prop) : Prop :=
  m' s = m s ∧ Ensures m s post fun e _ => e ≠ .defect .outOfFuel

abbrev Fewer (s : State) (_ : α) (rest : State) : Prop := rest.waiting < s.waiting

abbrev Still (s : State) (_ : α) (rest : State) : Prop := rest.waiting = s.waiting

variable {m m' : Reading α} {f f' : α → Reading β} {s : State} {mid post : α → State → Prop} {last : β → State → Prop}
  {limit fuel fuel' parent context : Nat} {kind : Node.Kind} {value : Option Node.Value} {span : Span}
  {item item' : Reading Nat} {expression expression' : Nat → Reading Nat}

theorem Same.bind (first : Same m m' s mid) (further : ∀ a rest, mid a rest → Same (f a) (f' a) rest last) :
    Same (m >>= f) (m' >>= f') s last := by
  obtain ⟨same, ends⟩ := first
  constructor
  · simp only [Bind.bind, EStateM.bind, same]
    cases run : m s with
    | ok a rest =>
      rw [Ensures, run] at ends
      exact (further a rest ends).1
    | error e rest => rfl
  · exact ends.bind fun a rest holds => (further a rest holds).2

theorem Same.weaken (first : Same m m' s mid) (weaker : ∀ a rest, mid a rest → post a rest) : Same m m' s post :=
  ⟨first.1, first.2.weaken weaker⟩

theorem Same.of_ensures (ends : Ensures m s post fun e _ => e ≠ .defect .outOfFuel) : Same m m s post :=
  ⟨rfl, ends⟩

theorem Same.pure {a : α} (holds : post a s) : Same (Pure.pure a) (Pure.pure a) s post := .of_ensures holds

theorem State.waiting_pos (s : State) : 0 < s.waiting := Nat.succ_pos _

theorem State.waiting_eq (proper : s.lookahead.token ≠ .finish) : s.waiting = s.cursor.drain.1.length + 1 := by
  rw [State.waiting, State.stream, if_neg proper, List.length_cons]

theorem peek_same : Same peek peek s fun token rest => token = s.lookahead.token ∧ s = rest :=
  .of_ensures peek_ensures

theorem unexpected_same {expected : Expectation} : Same (unexpected expected context) (unexpected expected context) s post := by
  apply Same.of_ensures
  unfold Ensures unexpected
  split
  · rename_i found
    split at found <;> cases found
  · rename_i found
    split at found <;> cases found <;> simp

theorem advance_same (proper : s.lookahead.token ≠ .finish) : Same advance advance s (Fewer s) := by
  apply Same.of_ensures
  rw [Ensures, advance]
  rcases found : s.cursor.next with ⟨answer, cursor⟩
  cases answer with
  | error problem => simp
  | ok placed =>
    have before : s.waiting = s.cursor.drain.1.length + 1 := State.waiting_eq proper
    rw [Cursor.drain_of_ok found] at before
    change State.waiting _ < s.waiting
    rw [before]
    exact Nat.lt_succ_self _

theorem expect_same (token : Token.Kind) (proper : token ≠ .finish) :
    Same (expect token context) (expect token context) s (Fewer s) := by
  apply peek_same.bind
  intro found rest same
  obtain ⟨rfl, rfl⟩ := same
  by_cases fits : s.lookahead.token.kind = token
  · rw [if_pos fits]
    apply advance_same
    intro final
    rw [final] at fits
    exact proper fits.symm
  · rw [if_neg fits]
    exact unexpected_same

theorem push_same : Same (push parent kind value span) (push parent kind value span) s (Still s) := by
  apply Same.of_ensures
  unfold Ensures push
  by_cases h : parent < s.tree.size
  · rw [dif_pos h]
    rfl
  · rw [dif_neg h]
    simp

theorem setKind_same {id : Nat} : Same (setKind id kind) (setKind id kind) s (Still s) := by
  apply Same.of_ensures
  unfold Ensures setKind
  by_cases h : id < s.tree.size
  · rw [if_pos h]
    rfl
  · rw [if_neg h]
    simp

theorem enter_same : Same (enter limit span) (enter limit span) s (Still s) := by
  apply Same.of_ensures
  unfold Ensures enter
  by_cases room : s.depth < limit
  · rw [if_pos room]
    rfl
  · rw [if_neg room]
    simp

theorem leave_same : Same leave leave s (Still s) := by
  apply Same.of_ensures
  unfold Ensures leave
  cases s.depth with
  | zero => simp
  | succ depth => rfl

theorem beforeClose_same : Same (beforeClose context) (beforeClose context) s (fun _ rest => s = rest) := by
  apply peek_same.bind
  intro token rest same
  obtain ⟨rfl, rfl⟩ := same
  cases found : s.lookahead.token with
  | finish => exact unexpected_same
  | _ => exact Same.pure rfl

/-- A sequence takes at least as many tokens as it has items. -/
theorem untilClose_same (enough : s.waiting ≤ fuel) (enough' : s.waiting ≤ fuel')
    (inner : ∀ t : State, t.waiting ≤ s.waiting → Same item item' t (Fewer t)) :
    Same (untilClose context item fuel) (untilClose context item' fuel') s fun count rest => rest.waiting + count ≤ s.waiting := by
  induction fuel generalizing s fuel' with
  | zero => exact absurd enough (Nat.not_le_of_lt s.waiting_pos)
  | succ fuel ih =>
    cases fuel' with
    | zero => exact absurd enough' (Nat.not_le_of_lt s.waiting_pos)
    | succ fuel' =>
      apply beforeClose_same.bind
      intro more rest same
      subst same
      cases more with
      | false => exact Same.pure (Nat.le_refl _)
      | true =>
        apply (inner s (Nat.le_refl _)).bind
        intro _ t taken
        apply (ih (s := t) (by omega) (by omega) fun u fewer => inner u (by omega)).bind
        intro count u later
        apply Same.pure
        omega

theorem leaf_same {leafValue : Node.Value} (proper : s.lookahead.token ≠ .finish) :
    Same (leaf parent kind leafValue) (leaf parent kind leafValue) s (Fewer s) := by
  apply (advance_same proper).bind
  intro placed t taken
  apply push_same.weaken
  intro _ rest still
  exact still.trans_lt taken

theorem identifier_same : Same (identifier parent) (identifier parent) s (Fewer s) := by
  apply peek_same.bind
  intro token rest same
  obtain ⟨rfl, rfl⟩ := same
  cases found : s.lookahead.token with
  | identifier => exact leaf_same (found ▸ nofun)
  | _ => exact unexpected_same

theorem datum_same (enough : s.waiting ≤ fuel) (enough' : s.waiting ≤ fuel') :
    Same (datum limit fuel parent) (datum limit fuel' parent) s (Fewer s) := by
  induction fuel generalizing s parent fuel' with
  | zero => exact absurd enough (Nat.not_le_of_lt s.waiting_pos)
  | succ fuel ih =>
    cases fuel' with
    | zero => exact absurd enough' (Nat.not_le_of_lt s.waiting_pos)
    | succ fuel' =>
      apply peek_same.bind
      intro token rest same
      obtain ⟨rfl, rfl⟩ := same
      cases found : s.lookahead.token with
      | number | boolean => exact leaf_same (found ▸ nofun)
      | leftParen =>
        apply (advance_same (found ▸ nofun)).bind
        intro opening t taken
        apply enter_same.bind
        intro _ u entered
        apply push_same.bind
        intro list v pushed
        -- The parenthesis is taken, so what is nested has a token less ahead.
        have fewer : v.waiting < s.waiting := by omega
        apply (untilClose_same (s := v) (by omega) (by omega) fun w le => ih (by omega) (by omega)).bind
        intro _ w items
        apply (expect_same .rightParen (by decide)).bind
        intro _ x closed
        apply leave_same.bind
        intro _ y left
        apply Same.pure
        omega
      | _ => exact unexpected_same

theorem quotation_same (enough : s.waiting ≤ fuel) (enough' : s.waiting ≤ fuel') :
    Same (quotation limit fuel parent span) (quotation limit fuel' parent span) s (Fewer s) := by
  apply push_same.bind
  intro quote t pushed
  apply (datum_same (s := t) (by omega) (by omega)).bind
  intro _ u taken
  apply Same.pure
  omega

/-- Nested expressions go the same way wherever no more tokens are ahead than a bound says. -/
def SameBelow (bound : Nat) (expression expression' : Nat → Reading Nat) : Prop :=
  ∀ {parent : Nat} {t : State}, t.waiting ≤ bound → Same (expression parent) (expression' parent) t (Fewer t)

theorem ifForm_same {bound : Nat} (inner : SameBelow bound expression expression') (below : s.waiting ≤ bound) :
    Same (ifForm expression parent span) (ifForm expression' parent span) s (Fewer s) := by
  apply push_same.bind
  intro node t pushed
  apply (inner (t := t) (by omega)).bind
  intro _ u condition
  apply (inner (t := u) (by omega)).bind
  intro _ v branch
  apply beforeClose_same.bind
  intro more w same
  subst same
  cases more with
  | false =>
    apply Same.pure
    omega
  | true =>
    apply (inner (t := v) (by omega)).bind
    intro _ w other
    apply Same.pure
    omega

theorem application_same {bound : Nat} (inner : SameBelow bound expression expression') (below : s.waiting ≤ bound)
    (enough : bound ≤ fuel) (enough' : bound ≤ fuel') :
    Same (application expression fuel parent span) (application expression' fuel' parent span) s (Fewer s) := by
  apply push_same.bind
  intro node t pushed
  apply (inner (t := t) (by omega)).bind
  intro _ u operator
  apply (untilClose_same (s := u) (by omega) (by omega) fun v le => inner (by omega)).bind
  intro _ v operands
  apply Same.pure
  omega

theorem formBody_same {bound : Nat} (inner : SameBelow bound expression expression') (below : s.waiting ≤ bound)
    (enough : bound ≤ fuel) (enough' : bound ≤ fuel') :
    Same (formBody limit expression fuel parent span) (formBody limit expression' fuel' parent span) s (Fewer s) := by
  apply peek_same.bind
  intro token rest same
  obtain ⟨rfl, rfl⟩ := same
  split
  · rename_i found
    apply (advance_same (found ▸ nofun)).bind
    intro _ t taken
    apply (ifForm_same (s := t) inner (by omega)).weaken
    intro _ rest fewer
    exact fewer.trans taken
  · rename_i found
    apply (advance_same (found ▸ nofun)).bind
    intro _ t taken
    apply (quotation_same (s := t) (by omega) (by omega)).weaken
    intro _ rest fewer
    exact fewer.trans taken
  · exact application_same inner below enough enough'

theorem form_same {bound : Nat} (inner : SameBelow bound expression expression') (below : s.waiting ≤ bound + 1)
    (enough : bound ≤ fuel) (enough' : bound ≤ fuel') :
    Same (form limit expression fuel parent) (form limit expression' fuel' parent) s (Fewer s) := by
  apply (expect_same .leftParen (by decide)).bind
  intro opening t taken
  apply enter_same.bind
  intro _ u entered
  apply (formBody_same (s := u) inner (by omega) enough enough').bind
  intro node v body
  apply (expect_same .rightParen (by decide)).bind
  intro _ w closed
  apply leave_same.bind
  intro _ x left
  apply Same.pure
  omega

theorem expression_same (enough : s.waiting ≤ fuel) (enough' : s.waiting ≤ fuel') :
    Same (Reading.expression limit fuel parent) (Reading.expression limit fuel' parent) s (Fewer s) := by
  induction fuel generalizing s parent fuel' with
  | zero => exact absurd enough (Nat.not_le_of_lt s.waiting_pos)
  | succ fuel ih =>
    cases fuel' with
    | zero => exact absurd enough' (Nat.not_le_of_lt s.waiting_pos)
    | succ fuel' =>
      apply peek_same.bind
      intro token rest same
      obtain ⟨rfl, rfl⟩ := same
      cases found : s.lookahead.token with
      | number | boolean | identifier => exact leaf_same (found ▸ nofun)
      | quote abbreviated =>
        cases abbreviated with
        | false => exact unexpected_same
        | true =>
          apply (advance_same (found ▸ nofun)).bind
          intro tick t taken
          apply (quotation_same (s := t) (by omega) (by omega)).weaken
          intro _ rest fewer
          exact fewer.trans taken
      | leftParen =>
        have inner : SameBelow (min fuel fuel') (Reading.expression limit fuel) (Reading.expression limit fuel') :=
          fun {_ t} below => ih (s := t) (by omega) (by omega)
        exact form_same inner (by omega) (Nat.min_le_left ..) (Nat.min_le_right ..)
      | _ => exact unexpected_same

theorem get_same : Same get get s fun found rest => found = s ∧ s = rest :=
  .of_ensures ⟨rfl, rfl⟩

theorem note_same (record : Journal.Record) : Same (note record) (note record) s (Still s) :=
  .of_ensures rfl

theorem definition_same (enough : s.waiting ≤ fuel) (enough' : s.waiting ≤ fuel') :
    Same (definition limit fuel parent) (definition limit fuel' parent) s (Fewer s) := by
  apply (expect_same .leftParen (by decide)).bind
  intro opening t opened
  apply (expect_same .defunWord (by decide)).bind
  intro _ u worded
  apply push_same.bind
  intro defun v pushed
  apply identifier_same.bind
  intro _ w named
  apply (expect_same .leftParen (by decide)).bind
  intro _ a listed
  apply (untilClose_same (s := a) (by omega) (by omega) fun _ _ => identifier_same).bind
  intro arity b parameters
  apply (expect_same .rightParen (by decide)).bind
  intro _ c closed
  apply setKind_same.bind
  intro _ d known
  apply (untilClose_same (s := d) (by omega) (by omega) fun e le => expression_same (s := e) (by omega) (by omega)).bind
  intro _ e body
  apply (expect_same .rightParen (by decide)).bind
  intro _ f last
  apply (note_same _).bind
  intro _ g noted
  apply Same.pure
  omega

theorem expect_finish_same :
    Same (expect .finish context) (expect .finish context) s fun _ _ => True := by
  apply peek_same.bind
  intro token rest same
  obtain ⟨rfl, rfl⟩ := same
  by_cases fits : s.lookahead.token.kind = .finish
  · rw [if_pos fits]
    apply Same.of_ensures
    unfold Ensures advance
    rcases s.cursor.next with ⟨answer, cursor⟩
    cases answer <;> simp
  · rw [if_neg fits]
    exact unexpected_same

theorem program_same (enough : s.waiting ≤ fuel) (enough' : s.waiting ≤ fuel') :
    Same (program limit fuel) (program limit fuel') s fun _ _ => True := by
  apply (definition_same enough enough').bind
  intro _ t defined
  apply expect_finish_same.bind
  intro _ u ended
  apply get_same.bind
  intro _ v found
  exact (note_same _).weaken fun _ _ _ => trivial

end DefunReader.Reading

import DefunReader.Reading.Grammar

/-! No reading stops at a defect: nodes are only added under nodes that are there, a form is closed
only where one is open, and every item of a sequence takes a token, so the fuel outlasts the text. -/
namespace DefunReader.Reading

/-- A bound on the tokens that a state has left. -/
def State.left (s : State) : Nat :=
  (if s.lookahead.token = .finish then 0 else 1) + s.cursor.unread.length

/-- A reading keeps its promises from a state on: it ends as `post` says or stops at a problem. -/
def Keeps {α : Type} (m : Reading α) (s : State) (post : α → State → Prop) : Prop :=
  match m s with
  | .ok a rest => post a rest
  | .error (.problem _) _ => True
  | .error (.defect _) _ => False

theorem Keeps.bind {α β : Type} {m : Reading α} {f : α → Reading β} {s : State} {mid : α → State → Prop}
    {post : β → State → Prop} (first : Keeps m s mid) (then' : ∀ a rest, mid a rest → Keeps (f a) rest post) :
    Keeps (m >>= f) s post := by
  simp only [Keeps, Bind.bind, EStateM.bind] at first ⊢
  cases run : m s with
  | ok a rest =>
    rw [run] at first
    exact then' a rest first
  | error e rest =>
    rw [run] at first
    cases e <;> exact first

theorem Keeps.weaken {α : Type} {m : Reading α} {s : State} {mid post : α → State → Prop} (first : Keeps m s mid)
    (weaker : ∀ a rest, mid a rest → post a rest) : Keeps m s post := by
  simp only [Keeps] at first ⊢
  cases run : m s with
  | ok a rest =>
    rw [run] at first
    exact weaker a rest first
  | error e rest =>
    rw [run] at first
    cases e <;> exact first

theorem Keeps.pure {α : Type} {a : α} {s : State} {post : α → State → Prop} (h : post a s) :
    Keeps (Pure.pure a) s post := h

/-- Nothing is lost, no form stays open, and no text is given back. -/
structure Moves (s rest : State) : Prop where
  size : s.tree.size ≤ rest.tree.size
  depth : rest.depth = s.depth
  left : rest.left ≤ s.left

theorem Moves.refl (s : State) : Moves s s := ⟨Nat.le_refl _, rfl, Nat.le_refl _⟩

theorem Moves.trans {s t u : State} (first : Moves s t) (second : Moves t u) : Moves s u :=
  ⟨Nat.le_trans first.size second.size, second.depth.trans first.depth, Nat.le_trans second.left first.left⟩

theorem peek_keeps (s : State) : Keeps peek s fun token rest => token = s.lookahead.token ∧ s = rest :=
  ⟨rfl, rfl⟩

theorem note_keeps (record : Journal.Record) (s : State) : Keeps (note record) s fun _ rest => Moves s rest :=
  ⟨Nat.le_refl _, rfl, Nat.le_refl _⟩

structure Advances (s rest : State) : Prop where
  tree : rest.tree = s.tree
  depth : rest.depth = s.depth
  left : rest.left ≤ s.left
  taken : s.lookahead.token ≠ .finish → rest.left < s.left

theorem Advances.moves {s rest : State} (h : Advances s rest) : Moves s rest :=
  ⟨h.tree ▸ Nat.le_refl _, h.depth, h.left⟩

theorem advance_keeps (s : State) : Keeps advance s fun placed rest => placed = s.lookahead ∧ Advances s rest := by
  simp only [Keeps, advance]
  split <;> rename_i run
  · split at run
    · cases run
    · rename_i placed cursor found
      cases run
      have shorter := s.cursor.next_length_le
      rw [found] at shorter
      by_cases final : placed.token = .finish
      · refine ⟨rfl, rfl, rfl, ?_, fun proper => ?_⟩
        · simp only [State.left, final, ↓reduceIte, Nat.zero_add]
          exact Nat.le_trans shorter (Nat.le_add_left _ _)
        · simp only [State.left, final, proper, ↓reduceIte, Nat.zero_add]
          dsimp only at shorter
          omega
      · have strict := Cursor.next_length_lt found final
        refine ⟨rfl, rfl, rfl, ?_, fun proper => ?_⟩
        · simp only [State.left, final, ↓reduceIte]
          omega
        · simp only [State.left, final, proper, ↓reduceIte]
          omega
  · trivial
  · split at run <;> cases run

theorem unexpected_keeps {α : Type} (expected : Expectation) {context : Nat} {s : State}
    (h : context < s.tree.size) (post : α → State → Prop) : Keeps (unexpected expected context) s post := by
  simp [Keeps, unexpected, h]

theorem expect_keeps (kind : Token.Kind) {context : Nat} {s : State} (h : context < s.tree.size) :
    Keeps (expect kind context) s fun placed rest =>
      placed = s.lookahead ∧ s.lookahead.token.kind = kind ∧ Advances s rest := by
  refine (peek_keeps s).bind fun token rest same => ?_
  obtain ⟨rfl, rfl⟩ := same
  split
  · rename_i fits
    exact (advance_keeps _).weaken fun _ _ done => ⟨done.1, fits, done.2⟩
  · exact unexpected_keeps _ h _

theorem push_keeps {parent : Nat} {s : State} (h : parent < s.tree.size) (kind : Node.Kind)
    (value : Option Node.Value) (span : Span) :
    Keeps (push parent kind value span) s fun id rest =>
      id = s.tree.size ∧ rest.tree.size = s.tree.size + 1 ∧ rest.depth = s.depth ∧ rest.left = s.left := by
  unfold Keeps push
  rw [dif_pos h]
  exact ⟨rfl, s.tree.size_addChild parent h kind value span, rfl, rfl⟩

theorem setKind_keeps {id : Nat} {s : State} (h : id < s.tree.size) (kind : Node.Kind) :
    Keeps (setKind id kind) s fun _ rest => Moves s rest := by
  simp only [Keeps, setKind, h, ↓reduceIte]
  exact ⟨Nat.le_of_eq (Tree.size_setKind ..).symm, rfl, Nat.le_refl _⟩

theorem enter_keeps (limit : Nat) (span : Span) (s : State) :
    Keeps (enter limit span) s fun _ rest =>
      rest.tree = s.tree ∧ rest.depth = s.depth + 1 ∧ rest.left = s.left := by
  simp only [Keeps, enter]
  split <;> rename_i run <;> split at run <;> cases run
  · exact ⟨rfl, rfl, rfl⟩
  · trivial

theorem leave_keeps {s : State} {depth : Nat} (h : s.depth = depth + 1) :
    Keeps leave s fun _ rest => rest.tree = s.tree ∧ rest.depth = depth ∧ rest.left = s.left := by
  unfold Keeps leave
  rw [h]
  exact ⟨rfl, rfl, rfl⟩

theorem beforeClose_keeps {context : Nat} {s : State} (h : context < s.tree.size) :
    Keeps (beforeClose context) s fun more rest => s = rest ∧ (more → s.lookahead.token ≠ .finish) := by
  refine (peek_keeps s).bind fun token rest same => ?_
  obtain ⟨rfl, rfl⟩ := same
  split
  · exact Keeps.pure ⟨rfl, nofun⟩
  · exact unexpected_keeps _ h _
  · rename_i other
    exact Keeps.pure ⟨rfl, fun _ => other⟩

structure Takes (s rest : State) : Prop extends Moves s rest where
  taken : rest.left < s.left

theorem untilClose_keeps {context : Nat} {item : Reading Nat} {fuel : Nat} {s : State}
    (h : context < s.tree.size) (enough : s.left < fuel)
    (step : ∀ t : State, Moves s t → Keeps item t fun _ rest => Takes t rest) :
    Keeps (untilClose context item fuel) s fun _ rest => Moves s rest := by
  induction fuel generalizing s with
  | zero => exact absurd enough (Nat.not_lt_zero _)
  | succ fuel ih =>
    refine (beforeClose_keeps h).bind fun more rest same => ?_
    obtain ⟨rfl, -⟩ := same
    split
    · refine (step _ (.refl _)).bind fun _ t moved => ?_
      refine (ih (Nat.lt_of_lt_of_le h moved.size) ?_ fun u later => step u (moved.toMoves.trans later)).bind
        fun _ u later => ?_
      · exact Nat.lt_of_lt_of_le moved.taken (Nat.le_of_lt_succ enough)
      · exact Keeps.pure (moved.toMoves.trans later)
    · exact Keeps.pure (.refl _)

/-- What a production does that adds a node under `parent`: the node comes next in number. -/
def Adds (s : State) (id : Nat) (rest : State) : Prop :=
  Takes s rest ∧ id = s.tree.size ∧ id < rest.tree.size

theorem leaf_keeps {parent : Nat} {s : State} (h : parent < s.tree.size) (proper : s.lookahead.token ≠ .finish)
    (kind : Node.Kind) (value : Node.Value) : Keeps (leaf parent kind value) s (Adds s) := by
  refine (advance_keeps s).bind fun placed t done => ?_
  obtain ⟨-, done⟩ := done
  refine (push_keeps (done.tree ▸ h) kind _ _).weaken fun id rest added => ?_
  obtain ⟨rfl, size, depth, left⟩ := added
  have taken := done.taken proper
  have tree := congrArg Tree.size done.tree
  exact ⟨⟨⟨by omega, depth.trans done.depth, by omega⟩, by omega⟩, tree, by omega⟩

theorem identifier_keeps {parent : Nat} {s : State} (h : parent < s.tree.size) :
    Keeps (identifier parent) s (Adds s) := by
  refine (peek_keeps s).bind fun token rest same => ?_
  obtain ⟨rfl, rfl⟩ := same
  split
  · rename_i found
    exact leaf_keeps h (by rw [found]; nofun) _ _
  · exact unexpected_keeps _ h _

theorem expect_taken {kind : Token.Kind} {s rest : State} (found : s.lookahead.token.kind = kind)
    (proper : kind ≠ .finish) (done : Advances s rest) : rest.left < s.left :=
  done.taken fun final => proper (by rw [← found, final]; rfl)

theorem datum_keeps (limit : Nat) {fuel : Nat} {parent : Nat} {s : State} (h : parent < s.tree.size)
    (enough : s.left < fuel) : Keeps (datum limit fuel parent) s (Adds s) := by
  induction fuel generalizing parent s with
  | zero => exact absurd enough (Nat.not_lt_zero _)
  | succ fuel ih =>
    refine (peek_keeps s).bind fun token rest same => ?_
    obtain ⟨rfl, rfl⟩ := same
    cases found : s.lookahead.token with
    | number => exact leaf_keeps h (by rw [found]; nofun) _ _
    | boolean => exact leaf_keeps h (by rw [found]; nofun) _ _
    | leftParen =>
      refine (advance_keeps s).bind fun opening t done => ?_
      obtain ⟨-, done⟩ := done
      have taken := done.taken (by rw [found]; nofun)
      refine (enter_keeps limit _ t).bind fun _ u entered => ?_
      obtain ⟨tree, depth, left⟩ := entered
      rw [done.tree] at tree
      refine (push_keeps (tree ▸ h) _ _ _).bind fun list v added => ?_
      obtain ⟨rfl, size, depth', left'⟩ := added
      rw [tree] at size ⊢
      have here : s.tree.size < v.tree.size := by omega
      refine (untilClose_keeps here (by omega) fun w moved => ?_).bind fun _ w moved => ?_
      · refine (ih (Nat.lt_of_lt_of_le here moved.size) ?_).weaken fun _ _ added => added.1
        have := moved.left
        omega
      refine (expect_keeps _ (Nat.lt_of_lt_of_le here moved.size)).bind fun _ x closed => ?_
      obtain ⟨-, -, closed⟩ := closed
      have open' : x.depth = s.depth + 1 := by
        rw [closed.depth, moved.depth, depth', depth, done.depth]
      refine (leave_keeps open').bind fun _ y left => ?_
      obtain ⟨tree', depth'', left''⟩ := left
      have := moved.size
      have := moved.left
      have := closed.left
      rw [closed.tree] at tree'
      refine Keeps.pure ⟨⟨⟨?_, depth'', ?_⟩, ?_⟩, rfl, ?_⟩
      all_goals first | omega | (rw [tree']; omega)
    | _ => exact unexpected_keeps _ h _

theorem quotation_keeps (limit : Nat) {fuel : Nat} {parent : Nat} {s : State} (h : parent < s.tree.size)
    (enough : s.left < fuel) (span : Span) : Keeps (quotation limit fuel parent span) s (Adds s) := by
  refine (push_keeps h _ _ _).bind fun quote t added => ?_
  obtain ⟨rfl, size, depth, left⟩ := added
  have here : s.tree.size < t.tree.size := by omega
  refine (datum_keeps limit here (by omega)).bind fun _ u moved => ?_
  have := moved.1.taken
  have := moved.1.size
  exact Keeps.pure ⟨⟨⟨by omega, moved.1.depth.trans depth, by omega⟩, by omega⟩, rfl, by omega⟩

/-- Inner expressions keep their promises wherever less than `fuel` is left. -/
def Inner (expression : Nat → Reading Nat) (fuel : Nat) : Prop :=
  ∀ {parent : Nat} {s : State}, parent < s.tree.size → s.left < fuel → Keeps (expression parent) s (Adds s)

theorem ifForm_keeps {expression : Nat → Reading Nat} {fuel : Nat} (inner : Inner expression fuel) {parent : Nat}
    {s : State} (h : parent < s.tree.size) (enough : s.left < fuel) (span : Span) :
    Keeps (ifForm expression parent span) s (Adds s) := by
  refine (push_keeps h _ _ _).bind fun node t added => ?_
  obtain ⟨rfl, size, depth, left⟩ := added
  have here : s.tree.size < t.tree.size := by omega
  refine (inner here (by omega)).bind fun _ u condition => ?_
  have condition := condition.1
  have := condition.taken
  have := condition.size
  refine (inner (by omega) (by omega)).bind fun _ v branch => ?_
  have branch := branch.1
  have := branch.taken
  have := branch.size
  refine (beforeClose_keeps (by omega)).bind fun more w same => ?_
  obtain ⟨rfl, -⟩ := same
  split
  · refine (inner (by omega) (by omega)).bind fun _ w last => ?_
    have last := last.1
    have := last.taken
    have := last.size
    exact Keeps.pure ⟨⟨⟨by omega, ((last.depth.trans branch.depth).trans condition.depth).trans depth, by omega⟩,
      by omega⟩, rfl, by omega⟩
  · exact Keeps.pure ⟨⟨⟨by omega, (branch.depth.trans condition.depth).trans depth, by omega⟩, by omega⟩, rfl,
      by omega⟩

theorem application_keeps {expression : Nat → Reading Nat} {fuel : Nat} (inner : Inner expression fuel) {parent : Nat}
    {s : State} (h : parent < s.tree.size) (enough : s.left < fuel) (span : Span) :
    Keeps (application expression fuel parent span) s (Adds s) := by
  refine (push_keeps h _ _ _).bind fun node t added => ?_
  obtain ⟨rfl, size, depth, left⟩ := added
  have here : s.tree.size < t.tree.size := by omega
  refine (inner here (by omega)).bind fun _ u operator => ?_
  have operator := operator.1
  have := operator.taken
  have := operator.size
  refine (untilClose_keeps (by omega) (by omega) fun v moved => ?_).bind fun _ v operands => ?_
  · have := moved.size
    have := moved.left
    exact (inner (by omega) (by omega)).weaken fun _ _ operand => operand.1
  · have := operands.left
    have := operands.size
    exact Keeps.pure ⟨⟨⟨by omega, (operands.depth.trans operator.depth).trans depth, by omega⟩, by omega⟩, rfl,
      by omega⟩

theorem Adds.after_advance {s t rest : State} {id : Nat} (first : Advances s t) (second : Adds t id rest) :
    Adds s id rest := by
  have tree := congrArg Tree.size first.tree
  have := first.left
  obtain ⟨⟨⟨size, depth, left⟩, taken⟩, rfl, below⟩ := second
  exact ⟨⟨⟨by omega, depth.trans first.depth, by omega⟩, by omega⟩, tree, below⟩

theorem formBody_keeps (limit : Nat) {expression : Nat → Reading Nat} {fuel : Nat} (inner : Inner expression fuel)
    {parent : Nat} {s : State} (h : parent < s.tree.size) (enough : s.left < fuel) (span : Span) :
    Keeps (formBody limit expression fuel parent span) s (Adds s) := by
  refine (peek_keeps s).bind fun token rest same => ?_
  obtain ⟨rfl, rfl⟩ := same
  split
  · refine (advance_keeps s).bind fun _ t done => ?_
    refine (ifForm_keeps inner (done.2.tree ▸ h) (Nat.lt_of_le_of_lt done.2.left enough) span).weaken ?_
    exact fun _ _ added => added.after_advance done.2
  · refine (advance_keeps s).bind fun _ t done => ?_
    refine (quotation_keeps limit (done.2.tree ▸ h) (Nat.lt_of_le_of_lt done.2.left enough) span).weaken ?_
    exact fun _ _ added => added.after_advance done.2
  · exact application_keeps inner h enough span

theorem form_keeps (limit : Nat) {expression : Nat → Reading Nat} {fuel : Nat} (inner : Inner expression fuel)
    {parent : Nat} {s : State} (h : parent < s.tree.size) (enough : s.left ≤ fuel) :
    Keeps (form limit expression fuel parent) s (Adds s) := by
  refine (expect_keeps _ h).bind fun opening t done => ?_
  obtain ⟨-, found, done⟩ := done
  have taken := expect_taken found nofun done
  refine (enter_keeps limit _ t).bind fun _ u entered => ?_
  obtain ⟨tree, depth, left⟩ := entered
  rw [done.tree] at tree
  refine (formBody_keeps limit inner (tree ▸ h) (by omega) _).bind fun node v added => ?_
  obtain ⟨⟨moved, taken'⟩, rfl, below⟩ := added
  refine (expect_keeps _ below).bind fun _ w closed => ?_
  obtain ⟨-, -, closed⟩ := closed
  have opened : w.depth = s.depth + 1 := by rw [closed.depth, moved.depth, depth, done.depth]
  refine (leave_keeps opened).bind fun _ x gone => ?_
  obtain ⟨tree', depth', left'⟩ := gone
  have size := congrArg Tree.size tree
  have size' := congrArg Tree.size (tree'.trans closed.tree)
  have := moved.size
  have := closed.left
  exact Keeps.pure ⟨⟨⟨by omega, depth', by omega⟩, by omega⟩, size, by omega⟩

theorem expression_keeps (limit fuel : Nat) : Inner (expression limit fuel) fuel := by
  induction fuel with
  | zero => exact fun _ enough => absurd enough (Nat.not_lt_zero _)
  | succ fuel ih =>
    intro parent s h enough
    refine (peek_keeps s).bind fun token rest same => ?_
    obtain ⟨rfl, rfl⟩ := same
    cases found : s.lookahead.token with
    | number => exact leaf_keeps h (by rw [found]; nofun) _ _
    | boolean => exact leaf_keeps h (by rw [found]; nofun) _ _
    | identifier => exact leaf_keeps h (by rw [found]; nofun) _ _
    | quote tick =>
      cases tick with
      | false => exact unexpected_keeps _ h _
      | true =>
        refine (advance_keeps s).bind fun tick t done => ?_
        have taken := done.2.taken (by rw [found]; nofun)
        refine (quotation_keeps limit (done.2.tree ▸ h) (by omega) _).weaken ?_
        exact fun _ _ added => added.after_advance done.2
    | leftParen => exact form_keeps limit ih h (Nat.le_of_lt_succ enough)
    | _ => exact unexpected_keeps _ h _

theorem definition_keeps (limit : Nat) {fuel : Nat} {program : Nat} {s : State} (h : program < s.tree.size)
    (enough : s.left < fuel) : Keeps (definition limit fuel program) s fun _ rest => Moves s rest := by
  refine (expect_keeps _ h).bind fun opening t done => ?_
  replace done := done.2.2.moves
  have := done.size
  have := done.left
  refine (expect_keeps _ (by omega)).bind fun _ u word => ?_
  replace word := done.trans word.2.2.moves
  have := word.size
  have := word.left
  refine (push_keeps (by omega) _ _ _).bind fun defun v added => ?_
  obtain ⟨rfl, size, depth, left⟩ := added
  have opened : Moves s v := ⟨by omega, depth.trans word.depth, by omega⟩
  have here : u.tree.size < v.tree.size := by omega
  refine (identifier_keeps here).bind fun _ w name => ?_
  replace name := name.1.toMoves
  have := name.size
  have := name.left
  refine (expect_keeps _ (by omega)).bind fun _ a list => ?_
  replace list := name.trans list.2.2.moves
  have := list.size
  have := list.left
  refine (untilClose_keeps (by omega) (by omega) fun b moved => ?_).bind fun arity b parameters => ?_
  · have := moved.size
    exact (identifier_keeps (by omega)).weaken fun _ _ added => added.1
  replace parameters := list.trans parameters
  have := parameters.size
  have := parameters.left
  refine (expect_keeps _ (by omega)).bind fun _ c closed => ?_
  replace closed := parameters.trans closed.2.2.moves
  have := closed.size
  have := closed.left
  refine (setKind_keeps (by omega) _).bind fun _ d known => ?_
  replace known := closed.trans known
  have := known.size
  have := known.left
  refine (untilClose_keeps (by omega) (by omega) fun e moved => ?_).bind fun _ e body => ?_
  · have := moved.size
    have := moved.left
    exact (expression_keeps limit fuel (by omega) (by omega)).weaken fun _ _ added => added.1
  replace body := known.trans body
  have := body.size
  have := body.left
  refine (expect_keeps _ (by omega)).bind fun _ f last => ?_
  replace last := body.trans last.2.2.moves
  refine (note_keeps _ _).bind fun _ g noted => ?_
  exact Keeps.pure (opened.trans (last.trans noted))

theorem program_keeps (limit : Nat) {fuel : Nat} {s : State} (enough : s.left < fuel) :
    Keeps (program limit fuel) s fun _ rest => Moves s rest := by
  refine (definition_keeps limit s.tree.root_lt_size enough).bind fun _ t read => ?_
  refine (expect_keeps _ (Nat.lt_of_lt_of_le s.tree.root_lt_size read.size)).bind fun _ u ended => ?_
  have all := read.trans ended.2.2.moves
  exact (note_keeps _ u).weaken fun _ _ noted => all.trans noted

theorem program_no_defect (limit : Nat) {fuel : Nat} {s rest : State} {defect : Defect} (enough : s.left < fuel) :
    program limit fuel s ≠ .error (.defect defect) rest := by
  intro stopped
  have kept := program_keeps limit enough
  simp only [Keeps, stopped] at kept

end DefunReader.Reading

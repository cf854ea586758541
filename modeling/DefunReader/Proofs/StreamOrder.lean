import DefunReader.Proofs.Stream

/-! The order of a stream: every answer starts strictly behind the tokens before it. What a text has of parentheses bounds
what its stream has of them. -/
namespace DefunReader

namespace Position

theorem offset_lt_step (p : Position) (c : Char) : p.offset < (p.step c).offset := by
  have size := c.utf8Size_pos
  unfold step
  split <;> simp only <;> omega

theorem offset_le_after (p : Position) (text : List Char) : p.offset ≤ (p.after text).offset := by
  induction text generalizing p with
  | nil => exact Nat.le_refl _
  | cons c text ih => exact Nat.le_trans (Nat.le_of_lt (p.offset_lt_step c)) (ih (p.step c))

theorem offset_lt_after (p : Position) {text : List Char} (some : text ≠ []) : p.offset < (p.after text).offset := by
  obtain ⟨c, behind, rfl⟩ := List.exists_cons_of_ne_nil some
  exact Nat.lt_of_lt_of_le (p.offset_lt_step c) ((p.step c).offset_le_after behind)

end Position

def Answer.span : Answer → Span
  | .ok placed => placed.span
  | .error problem => problem.span

theorem Lexeme.count_le {lexeme : List Char} {token : Token} (spelled : Lexeme lexeme token) :
    [token].count .leftParen ≤ lexeme.count '(' := by
  cases spelled with
  | leftParen => exact Nat.le_refl 1
  | _ => exact Nat.zero_le _

theorem collect_append (before : List Token.Placed) (answers : List Answer) :
    collect (before.map .ok ++ answers) = (collect answers).map (before ++ ·) := by
  induction before with
  | nil => cases h : collect answers <;> simp [h, Except.map]
  | cons placed before ih =>
    rw [List.map_cons, List.cons_append, collect, ih]
    cases collect answers <;> rfl

theorem split_of_collect {answers : List Answer} {problem : Problem} (collected : collect answers = .error problem) :
    ∃ (before : List Token.Placed) (more : List Answer), answers = before.map .ok ++ .error problem :: more := by
  induction answers with
  | nil => cases collected
  | cons answer answers ih =>
    cases answer with
    | error other =>
      cases collected
      exact ⟨[], answers, rfl⟩
    | ok placed =>
      rw [collect] at collected
      cases read : collect answers with
      | ok => rw [read] at collected; cases collected
      | error other =>
        rw [read] at collected
        cases collected
        obtain ⟨before, more, rfl⟩ := ih read
        exact ⟨placed :: before, more, rfl⟩

namespace Cursor

variable {c rest : Cursor} {placed : Token.Placed} {answer : Answer} {before : List Token.Placed} {more : List Answer}

theorem start_of_next (found : c.next = (answer, rest)) : Answer.span answer = ⟨c.front, (Answer.span answer).stop⟩ := by
  unfold next at found
  dsimp only at found
  split at found <;> cases found <;> rfl

theorem front_lt_of_next (found : c.next = (.ok placed, rest)) (proper : placed.token ≠ .finish) :
    c.front.offset < rest.front.offset := by
  rcases next_ok_cases found with ⟨-, rfl, -⟩ | ⟨lexeme, token, behind, front, -, rfl⟩
  · exact absurd rfl proper
  · have nonempty := (Front.append_of_parts? (congrArg Front.parts? front)).1
    exact Nat.lt_of_lt_of_le (c.front.offset_lt_after nonempty) (Position.offset_le_after ..)

theorem next_eq_head (drained : c.drain.1 = answer :: more) : ∃ rest, c.next = (answer, rest) := by
  rcases found : c.next with ⟨other, rest⟩
  cases other with
  | error =>
    rw [drain_of_error found] at drained
    cases drained
    exact ⟨rest, rfl⟩
  | ok =>
    rw [drain_of_ok found] at drained
    cases drained
    exact ⟨rest, rfl⟩

theorem start_le_of_drain (drained : c.drain.1 = before.map .ok ++ answer :: more) :
    c.front.offset ≤ (Answer.span answer).start.offset ∧
      ∀ placed ∈ before, placed.span.start.offset < (Answer.span answer).start.offset := by
  induction before generalizing c with
  | nil =>
    obtain ⟨rest, found⟩ := next_eq_head drained
    rw [start_of_next found]
    exact ⟨Nat.le_refl _, List.forall_mem_nil _⟩
  | cons placed before ih =>
    have proper := ne_finish_of_drain drained placed List.mem_cons_self
    obtain ⟨rest, found, later⟩ := next_of_drain drained
    rw [if_neg proper] at later
    obtain ⟨behind, others⟩ := ih later.symm
    have first := front_lt_of_next found proper
    have start : placed.span.start = c.front := congrArg Span.start (start_of_next found)
    exact ⟨by omega, List.forall_mem_cons.mpr ⟨by rw [start]; omega, others⟩⟩

theorem last_of_drain {problem : Problem} (drained : c.drain.1 = before.map .ok ++ .error problem :: more) : more = [] := by
  induction before generalizing c with
  | nil =>
    obtain ⟨rest, found⟩ := next_eq_head drained
    rw [drain_of_error found] at drained
    cases drained
    rfl
  | cons placed before ih =>
    have proper := ne_finish_of_drain drained placed List.mem_cons_self
    obtain ⟨rest, -, later⟩ := next_of_drain drained
    rw [if_neg proper] at later
    exact ih later.symm

theorem count_le_of_drain (drained : c.drain.1 = before.map .ok ++ more) :
    (before.map Token.Placed.token).count .leftParen ≤ c.unread.count '(' := by
  induction before generalizing c with
  | nil => exact Nat.zero_le _
  | cons placed before ih =>
    obtain ⟨rest, found, later⟩ := next_of_drain drained
    rcases next_ok_cases found with ⟨-, rfl, -⟩ | ⟨lexeme, token, behind, front, rfl, rfl⟩
    · rw [if_pos rfl] at later
      have none := List.map_eq_nil_iff.mp (List.append_eq_nil_iff.mp later).1
      rw [none]
      exact Nat.zero_le _
    · obtain ⟨split, spelled, -⟩ := front_iff_longest.mp front
      rw [if_neg spelled.ne_finish] at later
      have first := spelled.count_le
      have others := ih later.symm
      rw [← List.takeWhile_append_dropWhile (l := c.unread) (p := Text.isBlank), split, List.count_append,
        List.count_append, List.map_cons, ← List.singleton_append, List.count_append]
      calc [token].count .leftParen + (before.map Token.Placed.token).count .leftParen
        _ ≤ lexeme.count '(' + behind.count '(' := Nat.add_le_add first others
        _ ≤ _ := Nat.le_add_left _ _

end Cursor

theorem tokenize_eq_error_iff {text : String} {problem : Problem} :
    tokenize text = .error problem ↔ ∃ before : List Token.Placed,
      (Cursor.start text).drain.1 = before.map .ok ++ [.error problem] := by
  constructor
  · intro failed
    obtain ⟨before, more, drained⟩ := split_of_collect failed
    rw [Cursor.last_of_drain drained] at drained
    exact ⟨before, drained⟩
  · intro found
    obtain ⟨before, drained⟩ := found
    rw [tokenize, drained, collect_append]
    rfl

end DefunReader

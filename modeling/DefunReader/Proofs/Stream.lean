import DefunReader.Proofs.Lexemes
import DefunReader.Scanner

/-! The stream of answers that draining a cursor gives: tokens up to the end of the text or the first problem. -/
namespace DefunReader

namespace Cursor

variable {c rest : Cursor} {placed : Token.Placed} {problem : Problem}

/-- Draining goes on behind every answer but a final one. -/
theorem drain_eq (c : Cursor) : c.drain =
    if Scanner.isFinal c.next.1 then ([c.next.1], c.next.2) else (c.next.1 :: c.next.2.drain.1, c.next.2.drain.2) := by
  rw [drain]
  split
  · rename_i found
    simp [found, Scanner.isFinal]
  · rename_i found
    split <;> simp_all [Scanner.isFinal]

theorem drain_of_error (found : c.next = (.error problem, rest)) : c.drain.1 = [.error problem] := by
  rw [drain_eq, found]
  rfl

theorem drain_of_ok (found : c.next = (.ok placed, rest)) :
    c.drain.1 = .ok placed :: if placed.token = .finish then [] else rest.drain.1 := by
  rw [drain_eq, found]
  by_cases ended : placed.token = .finish <;> simp [Scanner.isFinal, ended]

theorem drain_ne_nil (c : Cursor) : c.drain.1 ≠ [] := by
  rcases found : c.next with ⟨answer, rest⟩
  cases answer with
  | error => simp [drain_of_error found]
  | ok => simp [drain_of_ok found]

theorem next_of_drain {answers : List Answer} (drained : c.drain.1 = .ok placed :: answers) :
    ∃ rest, c.next = (.ok placed, rest) ∧ answers = if placed.token = .finish then [] else rest.drain.1 := by
  rcases found : c.next with ⟨answer, rest⟩
  cases answer with
  | error =>
    rw [drain_of_error found] at drained
    cases drained
  | ok =>
    rw [drain_of_ok found] at drained
    cases drained
    exact ⟨rest, rfl, rfl⟩

/-- Where the text goes on behind its blanks. -/
def front (c : Cursor) : Position :=
  c.position.after (c.unread.takeWhile Text.isBlank)

theorem next_of_nothing (nothing : c.unread.dropWhile Text.isBlank = []) :
    c.next = (.ok ⟨.finish, .between c.front c.front⟩, ⟨c.front, []⟩) := by
  simp only [next, skipBlanks, nothing, Front.of, front]

theorem next_of_token {lexeme behind : List Char} {token : Token}
    (found : Front.of (c.unread.dropWhile Text.isBlank) = .token lexeme token behind) :
    c.next = (.ok ⟨token, .between c.front (c.front.after lexeme)⟩, ⟨c.front.after lexeme, behind⟩) := by
  simp only [next, skipBlanks, found, front]

theorem next_of_tooLarge {lexeme behind : List Char}
    (found : Front.of (c.unread.dropWhile Text.isBlank) = .tooLarge lexeme behind) :
    c.next = (.error (.numberTooLarge (.between c.front (c.front.after lexeme)) (String.ofList lexeme)),
      ⟨c.front.after lexeme, behind⟩) := by
  simp only [next, skipBlanks, found, front]

theorem next_of_stray {other : Char} (found : Front.of (c.unread.dropWhile Text.isBlank) = .stray other) :
    c.next = (.error (.strayCharacter (.between c.front (c.front.step other)) other), c.skipBlanks) := by
  simp only [next, skipBlanks, found, front]

theorem next_ok_cases (found : c.next = (.ok placed, rest)) :
    (c.unread.dropWhile Text.isBlank = [] ∧ placed = ⟨.finish, .between c.front c.front⟩ ∧ rest = ⟨c.front, []⟩) ∨
      ∃ lexeme token behind, Front.of (c.unread.dropWhile Text.isBlank) = .token lexeme token behind ∧
        placed = ⟨token, .between c.front (c.front.after lexeme)⟩ ∧ rest = ⟨c.front.after lexeme, behind⟩ := by
  cases front : Front.of (c.unread.dropWhile Text.isBlank) with
  | nothing =>
    have nothing := nil_of_front front
    rw [next_of_nothing nothing] at found
    cases found
    exact .inl ⟨nothing, rfl, rfl⟩
  | token lexeme token behind =>
    rw [next_of_token front] at found
    cases found
    exact .inr ⟨_, _, _, rfl, rfl, rfl⟩
  | tooLarge lexeme behind =>
    rw [next_of_tooLarge front] at found
    cases found
  | stray other =>
    rw [next_of_stray front] at found
    cases found

/-- The end of the text is answered for good: nothing is left behind it. -/
theorem unread_of_finish (found : c.next = (.ok placed, rest)) (ended : placed.token = .finish) : rest.unread = [] := by
  rcases next_ok_cases found with ⟨-, -, rfl⟩ | ⟨lexeme, token, behind, front, rfl, -⟩
  · rfl
  · exact absurd ended (front_iff_longest.mp front).2.spelled.ne_finish

theorem ne_finish_of_drain {before : List Token.Placed} {answer : Answer} {more : List Answer}
    (drained : c.drain.1 = before.map .ok ++ answer :: more) : ∀ placed ∈ before, placed.token ≠ .finish := by
  induction before generalizing c with
  | nil => exact List.forall_mem_nil _
  | cons placed before ih =>
    obtain ⟨rest, -, later⟩ := next_of_drain drained
    split at later
    · simp at later
    · rename_i proper
      exact List.forall_mem_cons.mpr ⟨proper, ih later.symm⟩

theorem lexical_of_drain {before : List Token.Placed} {more : List Answer}
    (drained : c.drain.1 = before.map .ok ++ .error problem :: more) : problem.code = "E_LEX" ∨ problem.code = "E_NUMBER" := by
  induction before generalizing c with
  | nil =>
    rcases found : c.next with ⟨answer, rest⟩
    cases answer with
    | ok placed =>
      rw [drain_of_ok found] at drained
      cases drained
    | error other =>
      rw [drain_of_error found] at drained
      cases drained
      unfold next at found
      dsimp only at found
      split at found <;> cases found
      · exact .inr rfl
      · exact .inl rfl
  | cons placed before ih =>
    obtain ⟨rest, -, later⟩ := next_of_drain drained
    split at later
    · simp at later
    · exact ih later.symm

theorem next_of_unread_nil (nothing : c.unread = []) :
    c.next = (.ok ⟨.finish, .between c.position c.position⟩, c) := by
  obtain ⟨position, unread⟩ := c
  subst nothing
  rfl

end Cursor

theorem collect_map_ok (tokens : List Token.Placed) : collect (tokens.map .ok) = .ok tokens := by
  induction tokens with
  | nil => rfl
  | cons placed tokens ih => rw [List.map_cons, collect, ih]; rfl

theorem collect_eq_ok_iff {answers : List Answer} {tokens : List Token.Placed} :
    collect answers = .ok tokens ↔ answers = tokens.map .ok := by
  constructor
  · intro collected
    induction answers generalizing tokens with
    | nil =>
      cases collected
      rfl
    | cons answer answers ih =>
      cases answer with
      | error => cases collected
      | ok placed =>
        rw [collect] at collected
        cases read : collect answers with
        | error => rw [read] at collected; cases collected
        | ok rest =>
          rw [read] at collected
          cases collected
          rw [ih read, List.map_cons]
  · intro same
    subst same
    exact collect_map_ok tokens

theorem tokenize_eq_ok_iff {text : String} {tokens : List Token.Placed} :
    tokenize text = .ok tokens ↔ (Cursor.start text).drain.1 = tokens.map .ok :=
  collect_eq_ok_iff

end DefunReader

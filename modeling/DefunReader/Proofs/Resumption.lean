import DefunReader.Proofs.Composition

/-! Texts that are broken off and gone on with. The tokens before an answer are read of every text that has the same characters
up to there, provided that no lexeme goes on with what comes then. -/
namespace DefunReader

/-- No lexeme goes on with the text. -/
def Breaks (text : List Char) : Prop :=
  ∀ next ∈ text.head?, isSubsequent next = false

theorem Breaks.not_merges {text lexeme : List Char} {token : Token} {next : Char} (breaks : Breaks text)
    (member : next ∈ text.head?) : ¬Merges lexeme token next := by
  have other := Bool.eq_false_iff.mp (breaks next member)
  intro merges
  rcases merges with ⟨-, subsequent⟩ | ⟨-, digit⟩
  · exact other subsequent
  · exact other (by simp [isSubsequent, digit])

theorem breaks_of_blank {gap : List Char} (rest : List Char) (blank : ∀ c ∈ gap, Text.isBlank c) (some : gap ≠ []) :
    Breaks (gap ++ rest) := by
  obtain ⟨first, gap, rfl⟩ := List.exists_cons_of_ne_nil some
  intro next member
  cases member
  apply Bool.eq_false_iff.mpr
  intro subsequent
  exact absurd (blank first List.mem_cons_self) (Bool.eq_false_iff.mp (not_blank_of_isSubsequent subsequent))

namespace Cursor

variable {c : Cursor} {before : List Token.Placed} {answer : Answer} {more : List Answer} {read rest : List Char}

section Lead

variable {gap lexeme : List Char} {token : Token} (blank : ∀ d ∈ gap, Text.isBlank d)
include blank

theorem skipBlanks_of_lead (black : ∀ next ∈ rest.head?, ¬Text.isBlank next) (p : Position) :
    (Cursor.mk p (gap ++ rest)).skipBlanks = ⟨p.after gap, rest⟩ := by
  obtain ⟨taken, left⟩ := split_run blank black
  rw [skipBlanks, taken, left]

theorem next_of_lead (longest : Longest lexeme token rest) (p : Position) : (Cursor.mk p (gap ++ (lexeme ++ rest))).next =
    (.ok ⟨token, .between (p.after gap) ((p.after gap).after lexeme)⟩, ⟨(p.after gap).after lexeme, rest⟩) := by
  have black : ∀ next ∈ (lexeme ++ rest).head?, ¬Text.isBlank next := by
    obtain ⟨first, tail, rfl, black⟩ := longest.spelled.not_blank
    intro next member
    cases member
    exact Bool.eq_false_iff.mp black
  simp only [next, skipBlanks_of_lead blank black, front_of_longest longest]

theorem drain_of_lead (longest : Longest lexeme token rest) (p : Position) :
    (Cursor.mk p (gap ++ (lexeme ++ rest))).drain.1 =
      .ok ⟨token, .between (p.after gap) ((p.after gap).after lexeme)⟩ ::
        (Cursor.mk ((p.after gap).after lexeme) rest).drain.1 := by
  rw [drain_of_ok (next_of_lead blank longest p), if_neg longest.spelled.ne_finish]

end Lead

/-- The tokens stand in what is read; `rest` is left, and could be something else. -/
structure Reaches (c : Cursor) (before : List Token.Placed) (read rest : List Char) : Prop where
  text_eq : c.unread = read ++ rest
  bare : rest.takeWhile Text.isBlank = []
  drain : c.drain.1 = before.map .ok ++ (Cursor.mk (c.position.after read) rest).drain.1
  resumes : ∀ other, Breaks other →
    (Cursor.mk c.position (read ++ other)).drain.1 = before.map .ok ++ (Cursor.mk (c.position.after read) other).drain.1

theorem exists_reaches (drained : c.drain.1 = before.map .ok ++ answer :: more) : ∃ read rest, c.Reaches before read rest := by
  induction before generalizing c with
  | nil =>
    have split := List.takeWhile_append_dropWhile (p := Text.isBlank) (l := c.unread)
    have blank : ∀ d ∈ c.unread.takeWhile Text.isBlank, Text.isBlank d := fun _ => List.mem_takeWhile_imp
    refine ⟨_, _, split.symm, ?_, ?_, ?_⟩
    · cases left : c.unread.dropWhile Text.isBlank with
      | nil => rfl
      | cons next rest =>
        have black : ¬Text.isBlank next := head?_dropWhile (by rw [left]; rfl)
        exact List.takeWhile_cons_of_neg black
    · rw [List.map_nil, List.nil_append, ← drain_of_blank blank, split]
    · intro other _
      rw [drain_of_blank blank]
      rfl
  | cons placed before ih =>
    have proper := ne_finish_of_drain drained placed List.mem_cons_self
    obtain ⟨after, found, later⟩ := next_of_drain drained
    rw [if_neg proper] at later
    rcases next_ok_cases found with ⟨-, rfl, -⟩ | ⟨lexeme, token, behind, front, rfl, rfl⟩
    · exact absurd rfl proper
    · obtain ⟨left, longest⟩ := front_iff_longest.mp front
      obtain ⟨read, rest, text, bare, drain, resumes⟩ := ih later.symm
      have text : behind = read ++ rest := text
      have blank : ∀ d ∈ c.unread.takeWhile Text.isBlank, Text.isBlank d := fun _ => List.mem_takeWhile_imp
      have unread : c.unread = c.unread.takeWhile Text.isBlank ++ (lexeme ++ read) ++ rest := by
        rw [List.append_assoc, List.append_assoc, ← text, ← left, List.takeWhile_append_dropWhile]
      have place : c.position.after (c.unread.takeWhile Text.isBlank ++ (lexeme ++ read)) =
          (c.front.after lexeme).after read := by
        rw [Position.after_append, Position.after_append]
        rfl
      refine ⟨_, rest, unread, bare, ?_, ?_⟩
      · rw [drain_of_ok found, if_neg proper, drain, place]
        rfl
      · intro other breaks
        -- What the lexeme touches is the text that was there, or what breaks it off.
        have apart : ∀ next ∈ (read ++ other).head?, ¬Merges lexeme token next := by
          intro next member
          cases read with
          | nil => exact breaks.not_merges member
          | cons first read =>
            apply longest.apart next
            rw [text]
            exact member
        rw [List.append_assoc, List.append_assoc, drain_of_lead blank ⟨longest.spelled, apart⟩, place]
        exact congrArg _ (resumes other breaks)

theorem Reaches.answers (reaches : c.Reaches before read rest) (drained : c.drain.1 = before.map .ok ++ answer :: more) :
    (Cursor.mk (c.position.after read) rest).drain.1 = answer :: more ∧ (Answer.span answer).start = c.position.after read := by
  have same := List.append_cancel_left (reaches.drain.symm.trans drained)
  obtain ⟨behind, found⟩ := next_eq_head same
  refine ⟨same, ?_⟩
  rw [start_of_next found, front, reaches.bare]
  rfl

theorem Reaches.rest_eq {placed : Token.Placed} (reaches : c.Reaches before read rest)
    (drained : c.drain.1 = before.map .ok ++ .ok placed :: more) (ended : placed.token = .finish) : rest = [] := by
  obtain ⟨behind, found⟩ := next_eq_head (reaches.answers drained).1
  rcases next_ok_cases found with ⟨nothing, -, -⟩ | ⟨lexeme, token, behind, front, rfl, -⟩
  · have split := List.takeWhile_append_dropWhile (p := Text.isBlank) (l := rest)
    rw [reaches.bare, nothing] at split
    exact split.symm
  · exact absurd ended (front_iff_longest.mp front).2.spelled.ne_finish

end Cursor

end DefunReader

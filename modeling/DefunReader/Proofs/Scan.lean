import DefunReader.Proofs.Decomposition
import DefunReader.Proofs.StreamOrder

/-! One scan step. It skips blanks, answers for a stretch of the text behind them, and takes the stretch or leaves it. Where
it leaves it, the next step answers the same. -/
namespace DefunReader

/-- The stretch is the lexeme of the token, with no lexeme for the end of the text. -/
def Token.StandsAt (token : Token) (stretch behind : List Char) : Prop :=
  if token = .finish then stretch = [] ∧ behind = [] else Longest stretch token behind

def Problem.StandsAt (stretch behind : List Char) : Problem → Prop
  | strayCharacter _ found => stretch = [found] ∧ Text.isBlank found = false
  | numberTooLarge _ text => stretch = text.toList ∧ Numeral.Written stretch
  | unexpectedToken _ _ found _ => ∃ token : Token, token.kind = found ∧ token.StandsAt stretch behind
  | nestedTooDeep _ _ => Token.leftParen.StandsAt stretch behind

namespace Answer

def StandsAt (stretch behind : List Char) : Answer → Prop
  | .ok placed => placed.token.StandsAt stretch behind
  | .error problem => problem.StandsAt stretch behind

/-- Tokens before the end and numerals beyond 64 bits are taken from the text. -/
def takes : Answer → Bool
  | .ok placed => placed.token != .finish
  | .error (.numberTooLarge ..) => true
  | .error _ => false

end Answer

/-- What a scan step answers and where it leaves the cursor, by the stretch that it answers for. -/
structure Scans (c : Cursor) (answer : Answer) (rest : Cursor) (stretch behind : List Char) : Prop where
  unread : c.skipBlanks.unread = stretch ++ behind
  span : Answer.span answer = .between c.front (c.front.after stretch)
  rest_eq : rest = if Answer.takes answer then ⟨c.front.after stretch, behind⟩ else c.skipBlanks
  stands : Answer.StandsAt stretch behind answer

section Fronts

variable {text lexeme behind : List Char} {found : Char}

theorem front_cons_cases (c : Char) (rest : List Char) :
    (∃ lexeme token behind, Front.of (c :: rest) = .token lexeme token behind) ∨
      ((c.isDigit ∨ c = '-' ∧ Front.startsWithDigit rest) ∧ Front.of (c :: rest) = Front.numeral c rest) ∨
      Front.of (c :: rest) = .stray c := by
  unfold Front.of
  dsimp only
  split
  · exact .inl ⟨_, _, _, rfl⟩
  split
  · exact .inl ⟨_, _, _, rfl⟩
  split
  · exact .inl ⟨_, _, _, rfl⟩
  split
  · rename_i hash
    subst hash
    unfold Front.boolean
    repeat' split
    all_goals first | exact .inl ⟨_, _, _, rfl⟩ | exact .inr (.inr rfl)
  split
  · rename_i starts
    exact .inr (.inl ⟨by simpa using starts, rfl⟩)
  split
  · exact .inl ⟨_, _, _, rfl⟩
  split
  · exact .inl ⟨_, _, _, rfl⟩
  · exact .inr (.inr rfl)

theorem numeral_cases (first : Char) (rest : List Char) :
    (∃ lexeme token behind, Front.numeral first rest = .token lexeme token behind) ∨
      Front.numeral first rest = .tooLarge (first :: rest.takeWhile Char.isDigit) (rest.dropWhile Char.isDigit) := by
  unfold Front.numeral
  dsimp only
  split
  · exact .inl ⟨_, _, _, rfl⟩
  · exact .inr rfl

theorem written_of_starts {first : Char} {rest : List Char} (starts : first.isDigit ∨ first = '-' ∧ Front.startsWithDigit rest) :
    Numeral.Written (first :: rest.takeWhile Char.isDigit) := by
  have decimal : ∀ d ∈ rest.takeWhile Char.isDigit, d.isDigit := fun _ => List.mem_takeWhile_imp
  rcases starts with digit | ⟨rfl, starts⟩
  · exact ⟨_, List.cons_ne_nil first _, List.forall_mem_cons.mpr ⟨digit, decimal⟩, .inl rfl⟩
  · obtain ⟨next, member, digit⟩ := startsWithDigit_iff.mp starts
    refine ⟨_, ?_, decimal, .inr rfl⟩
    cases rest <;> simp_all

theorem front_outcomes (c : Char) (rest : List Char) :
    (∃ lexeme token behind, Front.of (c :: rest) = .token lexeme token behind) ∨
      (∃ lexeme behind, Numeral.Written lexeme ∧ Front.of (c :: rest) = .tooLarge lexeme behind) ∨
      Front.of (c :: rest) = .stray c := by
  rcases front_cons_cases c rest with token | ⟨starts, numeral⟩ | stray
  · exact .inl token
  · rw [numeral]
    rcases numeral_cases c rest with token | large
    · exact .inl token
    · exact .inr (.inl ⟨_, _, written_of_starts starts, large⟩)
  · exact .inr (.inr stray)

theorem numeral_of_tooLarge (front : Front.of text = .tooLarge lexeme behind) : Numeral.Written lexeme := by
  cases text with
  | nil => cases front
  | cons c rest =>
    rcases front_outcomes c rest with ⟨_, _, _, other⟩ | ⟨_, _, written, large⟩ | other
    · cases other.symm.trans front
    · cases large.symm.trans front
      exact written
    · cases other.symm.trans front

theorem head_of_stray (front : Front.of text = .stray found) : ∃ behind, text = found :: behind := by
  cases text with
  | nil => cases front
  | cons c rest =>
    rcases front_outcomes c rest with ⟨_, _, _, other⟩ | ⟨_, _, -, other⟩ | stray
    · cases other.symm.trans front
    · cases other.symm.trans front
    · cases stray.symm.trans front
      exact ⟨rest, rfl⟩

end Fronts

theorem exists_scans (c : Cursor) : ∃ stretch behind, Scans c c.next.1 c.next.2 stretch behind := by
  cases front : Front.of c.skipBlanks.unread with
  | nothing =>
    have nothing := nil_of_front front
    rw [Cursor.next_of_nothing nothing]
    exact ⟨[], [], nothing, rfl, congrArg _ nothing.symm, rfl, rfl⟩
  | token lexeme token behind =>
    obtain ⟨split, longest⟩ := front_iff_longest.mp front
    have proper := longest.spelled.ne_finish
    rw [Cursor.next_of_token front]
    refine ⟨lexeme, behind, split, rfl, ?_, ?_⟩
    · simp [Answer.takes, proper]
    · simpa [Answer.StandsAt, Token.StandsAt, proper] using longest
  | tooLarge lexeme behind =>
    have split := (Front.append_of_parts? (congrArg Front.parts? front)).2
    rw [Cursor.next_of_tooLarge front]
    exact ⟨lexeme, behind, split.symm, rfl, rfl, String.toList_ofList.symm, numeral_of_tooLarge front⟩
  | stray found =>
    obtain ⟨behind, split⟩ := head_of_stray front
    have first : found ∈ (c.unread.dropWhile Text.isBlank).head? := congrArg List.head? split
    rw [Cursor.next_of_stray front]
    exact ⟨[found], behind, split, rfl, rfl, rfl, Bool.eq_false_iff.mpr (head?_dropWhile first)⟩

theorem forall_not_blank_of_isDigit {digits : List Char} (decimal : ∀ c ∈ digits, c.isDigit) :
    ∀ c ∈ digits, Text.isBlank c = false := by
  intro c member
  exact not_blank_of_isSubsequent (by simp [isSubsequent, decimal c member])

theorem Numeral.Written.not_blank {numeral : List Char} (written : Numeral.Written numeral) :
    ∀ c ∈ numeral, Text.isBlank c = false := by
  obtain ⟨digits, -, decimal, rfl | rfl⟩ := written
  · exact forall_not_blank_of_isDigit decimal
  · have minus : Text.isBlank '-' = false := rfl
    exact List.forall_mem_cons.mpr ⟨minus, forall_not_blank_of_isDigit decimal⟩

theorem Numeral.Written.ne_nil {numeral : List Char} (written : Numeral.Written numeral) : numeral ≠ [] := by
  obtain ⟨digits, some, -, rfl | rfl⟩ := written
  · exact some
  · exact List.cons_ne_nil _ _

theorem Lexeme.forall_not_blank {lexeme : List Char} {token : Token} (spelled : Lexeme lexeme token) :
    ∀ c ∈ lexeme, Text.isBlank c = false := by
  cases spelled with
  | natural _ decimal => exact forall_not_blank_of_isDigit decimal
  | negative some decimal => exact Numeral.Written.not_blank ⟨_, some, decimal, .inr rfl⟩
  | sign signs => rcases signs with rfl | rfl <;> simp [Text.isBlank]
  | identifier initial subsequent =>
    intro c member
    apply not_blank_of_isSubsequent
    rcases List.mem_cons.mp member with rfl | member
    · simp [isSubsequent, initial]
    · exact subsequent c member
  | _ => simp [Text.isBlank]

section Stands

variable {stretch behind : List Char}

theorem Token.StandsAt.not_blank {token : Token} (stands : token.StandsAt stretch behind) :
    ∀ c ∈ stretch, Text.isBlank c = false := by
  unfold Token.StandsAt at stands
  split at stands
  · rw [stands.1]
    exact List.forall_mem_nil _
  · exact stands.spelled.forall_not_blank

theorem Token.StandsAt.ne_nil {token : Token} (stands : token.StandsAt stretch behind) (proper : token ≠ .finish) :
    stretch ≠ [] := by
  rw [Token.StandsAt, if_neg proper] at stands
  obtain ⟨first, tail, rfl, -⟩ := stands.spelled.not_blank
  exact List.cons_ne_nil first tail

theorem Answer.StandsAt.not_blank {answer : Answer} (stands : Answer.StandsAt stretch behind answer) :
    ∀ c ∈ stretch, Text.isBlank c = false := by
  rcases answer with (⟨_, found⟩ | _ | _ | _) | placed
  · obtain ⟨rfl, proper⟩ := stands
    exact List.forall_mem_singleton.mpr proper
  · exact stands.2.not_blank
  · obtain ⟨token, -, stands⟩ := stands
    exact stands.not_blank
  · have paren : Token.leftParen.StandsAt stretch behind := stands
    exact paren.not_blank
  · exact Token.StandsAt.not_blank stands

theorem Answer.StandsAt.ne_nil {answer : Answer} (stands : Answer.StandsAt stretch behind answer)
    (takes : Answer.takes answer) : stretch ≠ [] := by
  rcases answer with (_ | _ | _ | _) | placed
  · cases takes
  · exact stands.2.ne_nil
  · cases takes
  · cases takes
  · exact Token.StandsAt.ne_nil stands (by simpa [Answer.takes] using takes)

end Stands

namespace Cursor

theorem skipBlanks_skipBlanks (c : Cursor) : c.skipBlanks.skipBlanks = c.skipBlanks := by
  have blank : ∀ d ∈ (c.unread.dropWhile Text.isBlank).head?, ¬Text.isBlank d := fun _ => head?_dropWhile
  obtain ⟨none, all⟩ := @split_run Text.isBlank [] _ (List.forall_mem_nil _) blank
  rw [List.nil_append] at none all
  simp only [skipBlanks, none, all, Position.after_nil]

theorem next_skipBlanks (c : Cursor) : c.skipBlanks.next = c.next := by
  rw [next, skipBlanks_skipBlanks, next]

theorem next_of_stays {c : Cursor} (stays : Answer.takes c.next.1 = false) : c.next.2.next = c.next := by
  obtain ⟨stretch, behind, scans⟩ := exists_scans c
  have rest := scans.rest_eq
  rw [stays, if_neg Bool.false_ne_true] at rest
  rw [rest, next_skipBlanks]

theorem offset_of_takes {c : Cursor} (takes : Answer.takes c.next.1) :
    c.next.2.position.offset = (Answer.span c.next.1).stop ∧ c.position.offset < c.next.2.position.offset := by
  obtain ⟨stretch, behind, scans⟩ := exists_scans c
  have rest := scans.rest_eq
  rw [takes, if_pos rfl] at rest
  rw [scans.span, rest]
  exact ⟨rfl, Nat.lt_of_le_of_lt (c.position.offset_le_after _) (c.front.offset_lt_after (scans.stands.ne_nil takes))⟩

theorem offset_le_next (c : Cursor) : c.position.offset ≤ c.next.2.position.offset := by
  obtain ⟨stretch, behind, scans⟩ := exists_scans c
  cases takes : Answer.takes c.next.1 with
  | true => exact Nat.le_of_lt (offset_of_takes takes).2
  | false =>
    rw [scans.rest_eq, takes]
    exact c.position.offset_le_after _

end Cursor

end DefunReader

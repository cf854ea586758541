import DefunReader.Proofs.Resumption
import DefunReader.Proofs.Spelling
import Mathlib.Data.Nat.Digits.Defs

/-! Numerals are read as the integers that they stand for, as far as these have 64 bits, and what is written for an integer is
read as that integer, whatever stands behind it. -/
namespace DefunReader

namespace Numeral

/-- The number that decimal digits stand for; the last of them counts ones. -/
def decimal (digits : List Char) : Nat :=
  Nat.ofDigits 10 (digits.reverse.map fun c => c.toNat - '0'.toNat)

/-- The integer that a minus, if there is one, and decimal digits stand for. -/
inductive Denotes : List Char → Int → Prop
  | natural {digits} (some : digits ≠ []) (digital : ∀ c ∈ digits, c.isDigit) : Denotes digits (decimal digits)
  | negative {digits} (some : digits ≠ []) (digital : ∀ c ∈ digits, c.isDigit) :
      Denotes ('-' :: digits) (-(decimal digits : Int))

variable {literal : List Char} {v : Int}

/-- Digits are read from the left, and what is read counts tenfold with every digit more. -/
theorem ofDigitChars_eq_decimal (digits : List Char) : Nat.ofDigitChars 10 digits 0 = decimal digits := by
  rw [decimal, Nat.ofDigits_eq_foldr, List.foldr_map, List.foldr_reverse, Nat.ofDigitChars]
  simp only [Nat.cast_id, Nat.add_comm]

theorem Denotes.value_eq (denotes : Denotes literal v) : value literal = v := by
  cases denotes with
  | natural some digital => rw [value_natural some digital, ofDigitChars_eq_decimal]
  | negative => rw [value_negative, ofDigitChars_eq_decimal]

theorem Denotes.written (denotes : Denotes literal v) : Written literal := by
  cases denotes with
  | natural some digital => exact ⟨_, some, digital, .inl rfl⟩
  | negative some digital => exact ⟨_, some, digital, .inr rfl⟩

theorem exists_of_range (low : -2 ^ 63 ≤ v) (high : v ≤ 2 ^ 63 - 1) : ∃ n : Int64, n.toInt = v := by
  rw [← Int64.toInt_minValue] at low
  rw [← Int64.toInt_maxValue] at high
  exact ⟨.ofIntLE v low high, Int64.toInt_ofIntLE ..⟩

theorem fit?_of_beyond (beyond : v < -2 ^ 63 ∨ 2 ^ 63 - 1 < v) : fit? v = none := by
  apply dif_neg
  rw [Int64.toInt_minValue, Int64.toInt_maxValue]
  omega

theorem Written.black {rest : List Char} (written : Written literal) :
    ∀ next ∈ (literal ++ rest).head?, ¬Text.isBlank next := by
  obtain ⟨first, tail, rfl, starts, -⟩ := written.starts
  have subsequent : isSubsequent first := by
    rcases starts with digit | ⟨rfl, -⟩
    · simp [isSubsequent, digit]
    · rfl
  intro next member
  cases member
  exact Bool.eq_false_iff.mp (not_blank_of_isSubsequent subsequent)

end Numeral

namespace Scanner

/-- The scanner has these blanks and the lexeme before it. -/
structure ComesTo (s : Scanner) (gap lexeme rest : List Char) : Prop where
  unread : s.cursor.unread = gap ++ (lexeme ++ rest)
  blank : ∀ c ∈ gap, Text.isBlank c

def place (s : Scanner) (gap lexeme : List Char) : Span :=
  .between (s.cursor.position.after gap) ((s.cursor.position.after gap).after lexeme)

def past (s : Scanner) (gap lexeme rest : List Char) : Scanner :=
  { s with cursor := ⟨(s.cursor.position.after gap).after lexeme, rest⟩ }

variable {s : Scanner} {gap lexeme rest : List Char} {token : Token}

theorem pull_of_longest (comes : s.ComesTo gap lexeme rest) (longest : Longest lexeme token rest) :
    s.pull = (.ok ⟨token, s.place gap lexeme⟩, s.past gap lexeme rest) := by
  rcases s with ⟨⟨position, unread⟩, finished⟩
  obtain ⟨rfl, blank⟩ := comes
  simp only [pull, Cursor.next_of_lead blank longest, place, past]

theorem pull_of_written (comes : s.ComesTo gap lexeme rest) (written : Numeral.Written lexeme)
    (ends : ∀ next ∈ rest.head?, ¬next.isDigit) :
    s.pull = ((Numeral.read? lexeme).elim (.error (.numberTooLarge (s.place gap lexeme) (String.ofList lexeme)))
      fun n => .ok ⟨.number n, s.place gap lexeme⟩, s.past gap lexeme rest) := by
  rcases s with ⟨⟨position, unread⟩, finished⟩
  obtain ⟨rfl, blank⟩ := comes
  simp only [pull, Cursor.next, Cursor.skipBlanks_of_lead blank written.black, front_numeral written ends]
  cases Numeral.read? lexeme <;> rfl

end Scanner

theorem Lexeme.not_digit {lexeme rest : List Char} {token : Token} (spelled : Lexeme lexeme token)
    (other : token.kind ≠ .number) : ∀ next ∈ (lexeme ++ rest).head?, ¬next.isDigit := by
  intro next member
  cases spelled with
  | natural | negative => exact absurd rfl other
  | identifier initial =>
    cases member
    exact Bool.eq_false_iff.mp (isDigit_of_isInitial initial)
  | sign signs =>
    cases member
    rcases signs with rfl | rfl <;> decide
  | _ =>
    cases member
    decide

/-- Numerals are exact. One that a scanner comes to is taken as a whole, with any zeros in front: for the integer that it
stands for, if 64 bits hold that, and for a problem otherwise. What is written for an integer is such a numeral of it,
unless a digit stands behind; so no other token, put right behind it, changes what is read. -/
theorem numerals_are_exact :
    (∀ literal v, Numeral.Denotes literal v → ∀ (s : Scanner) (gap rest : List Char), s.ComesTo gap literal rest →
      (∀ next ∈ rest.head?, ¬next.isDigit) →
        (-2 ^ 63 ≤ v ∧ v ≤ 2 ^ 63 - 1 → ∃ n : Int64, n.toInt = v ∧
          s.pull = (.ok ⟨.number n, s.place gap literal⟩, s.past gap literal rest)) ∧
        (v < -2 ^ 63 ∨ 2 ^ 63 - 1 < v →
          s.pull = (.error (.numberTooLarge (s.place gap literal) (String.ofList literal)), s.past gap literal rest))) ∧
    ∀ (n : Int64) (literal : List Char), (Node.Value.number n).text.toList = literal →
      ∀ (s : Scanner) (gap rest : List Char), s.ComesTo gap literal rest →
        ((∀ next ∈ rest.head?, ¬next.isDigit) →
          s.pull = (.ok ⟨.number n, s.place gap literal⟩, s.past gap literal rest)) ∧
        ∀ lexeme follower more, rest = lexeme ++ more → Longest lexeme follower more → follower.kind ≠ .number →
          s.pull = (.ok ⟨.number n, s.place gap literal⟩, s.past gap literal rest) ∧
            (s.past gap literal rest).pull = (.ok ⟨follower, (s.past gap literal rest).place [] lexeme⟩,
              (s.past gap literal rest).past [] lexeme more) := by
  refine ⟨?_, ?_⟩
  · intro literal v denotes s gap rest comes ends
    have answer := Scanner.pull_of_written comes denotes.written ends
    rw [Numeral.read?, denotes.value_eq] at answer
    refine ⟨?_, ?_⟩
    · intro range
      obtain ⟨n, same⟩ := Numeral.exists_of_range range.1 range.2
      rw [Numeral.fit?_eq_some.mpr same] at answer
      exact ⟨n, same, answer⟩
    · intro beyond
      rw [Numeral.fit?_of_beyond beyond] at answer
      exact answer
  · intro n literal written s gap rest comes
    have spelled : Lexeme literal (.number n) := written ▸ lexeme_of_number n
    refine ⟨?_, ?_⟩
    · intro ends
      exact Scanner.pull_of_longest comes (spelled.longest_of_number ends)
    · intro lexeme follower more split longest other
      subst split
      have ends : ∀ next ∈ (lexeme ++ more).head?, ¬next.isDigit := longest.spelled.not_digit other
      refine ⟨Scanner.pull_of_longest comes (spelled.longest_of_number ends), ?_⟩
      exact Scanner.pull_of_longest ⟨rfl, List.forall_mem_nil _⟩ longest

/-- The least integer is read, and its negation is not. -/
example : Numeral.read? "-9223372036854775808".toList = some Int64.minValue ∧
    Numeral.read? "9223372036854775808".toList = none := by
  decide +kernel

end DefunReader

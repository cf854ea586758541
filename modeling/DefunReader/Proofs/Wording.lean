import DefunReader.Proofs.Scan
import DefunReader.Report

/-! Headers, places and hints of reports take one line each: no line break is in their own words, and none in what they quote
of a text. -/
namespace DefunReader

namespace Text

theorem newline_not_mem_intercalate {separator : List Char} {parts : List (List Char)} (between : '\n' ∉ separator)
    (all : ∀ part ∈ parts, '\n' ∉ part) : '\n' ∉ separator.intercalate parts := by
  induction parts with
  | nil => simp
  | cons part parts ih =>
    obtain ⟨first, others⟩ := List.forall_mem_cons.mp all
    cases parts with
    | nil => simpa using first
    | cons next parts =>
      rw [List.intercalate_cons_cons]
      simp [first, between, ih others]

theorem not_mem_toDigits {c : Char} (symbol : c.isDigit = false) (n : Nat) : c ∉ Nat.toDigits 10 n := by
  intro member
  rw [Nat.isDigit_of_mem_toDigits (by decide) (by decide) member] at symbol
  cases symbol

@[simp] theorem newline_not_mem_toDigits (n : Nat) : '\n' ∉ Nat.toDigits 10 n :=
  not_mem_toDigits rfl n

@[simp] theorem newline_not_mem_hexadecimal (n : Nat) : '\n' ∉ (hexadecimal n).toList := by
  rw [hexadecimal, String.toList_ofList]
  induction n using Nat.strongRecOn with
  | ind n ih =>
    have digit : ∀ k < 16, '\n' ≠ Nat.digitChar k := by decide
    rw [Nat.toDigits_eq_if (by decide)]
    split
    · rename_i small
      simp [digit n small]
    · rename_i large
      have smaller : n / 16 < n := by omega
      simp [ih _ smaller, digit _ (Nat.mod_lt n (by decide))]

@[simp] theorem newline_not_mem_escaped (c : Char) : '\n' ∉ (escaped c).toList := by
  by_cases newline : c = '\n'
  · rw [newline]
    decide
  · unfold escaped
    repeat' split
    all_goals simp [Ne.symm newline]

@[simp] theorem newline_not_mem_shown (c : Char) : '\n' ∉ (shown c).toList := by
  simp [shown]

end Text

@[simp] theorem Position.newline_not_mem_text (p : Position) : '\n' ∉ p.text.toList := by
  simp [text]

@[simp] theorem Span.newline_not_mem_text (span : Span) : '\n' ∉ span.text.toList :=
  span.start.newline_not_mem_text

theorem Lexeme.newline_not_mem {lexeme : List Char} {token : Token} (spelled : Lexeme lexeme token) : '\n' ∉ lexeme := by
  intro member
  exact absurd (spelled.forall_not_blank _ member) (by decide)

@[simp] theorem Token.Kind.newline_not_mem_name (kind : Token.Kind) : '\n' ∉ kind.name.toList := by
  cases kind <;> simp [name]

@[simp] theorem Node.Kind.newline_not_mem_name (kind : Node.Kind) : '\n' ∉ kind.name.toList := by
  cases kind <;> simp [name]

@[simp] theorem Expectation.newline_not_mem_text (expected : Expectation) : '\n' ∉ expected.text.toList := by
  cases expected <;> simp [text]

namespace Problem

variable {stretch behind : List Char} {problem : Problem}

@[simp] theorem newline_not_mem_trailText (within : List Node.Kind) : '\n' ∉ (trailText within).toList := by
  have separated : '\n' ∉ (", ".intercalate (within.map fun kind => "in " ++ kind.name)).toList := by
    rw [String.toList_intercalate]
    apply Text.newline_not_mem_intercalate <;> simp
  unfold trailText
  split
  · simp
  · simp [-String.toList_intercalate, separated]

theorem newline_not_mem_message (stands : problem.StandsAt stretch behind) : '\n' ∉ problem.message.toList := by
  cases problem with
  | numberTooLarge span text =>
    obtain ⟨rfl, written⟩ := stands
    have quoted : '\n' ∉ text.toList := by
      intro member
      exact absurd (written.not_blank _ member) (by decide)
    unfold message
    simp [quoted]
  | _ =>
    unfold message
    simp

theorem newline_not_mem_help {help : String} (found : problem.help? = some help) : '\n' ∉ help.toList := by
  unfold help? at found
  repeat' split at found
  all_goals cases found
  all_goals simp

@[simp] theorem newline_not_mem_code (problem : Problem) : '\n' ∉ problem.code.toList := by
  cases problem <;> simp [code]

end Problem

end DefunReader

import DefunReader.Proofs.Underline

/-! What is printed read back: lines from a text of lines, numbers from their digits, and the line and the column from
the text of a place, whatever stands behind it. -/
namespace DefunReader

namespace Text

theorem unlines_injective {lines lines' : List String} (single : ∀ line ∈ lines, '\n' ∉ line.toList)
    (single' : ∀ line ∈ lines', '\n' ∉ line.toList) (same : unlines lines = unlines lines') : lines = lines' := by
  rw [← String.toList_inj, toList_unlines, toList_unlines] at same
  induction lines generalizing lines' with
  | nil =>
    cases lines' with
    | nil => rfl
    | cons line' lines' => simp at same
  | cons line lines ih =>
    cases lines' with
    | nil => simp at same
    | cons line' lines' =>
      obtain ⟨first, others⟩ := List.forall_mem_cons.mp single
      obtain ⟨first', others'⟩ := List.forall_mem_cons.mp single'
      have unbroken {line : String} (none : '\n' ∉ line.toList) : ∀ c ∈ line.toList, c != '\n' :=
        fun c member => bne_iff_ne.mpr (ne_of_mem_of_not_mem member none)
      simp only [List.flatMap_cons, List.append_assoc] at same
      obtain ⟨head, tail⟩ := runs_unique (unbroken first) (unbroken first') (by simp) (by simp) same
      rw [String.toList_injective head, ih others others' (List.append_cancel_left tail)]

theorem blanks_unique {n n' : Nat} {rest rest' : List Char} (stops : ∀ next ∈ rest.head?, ¬next == ' ')
    (stops' : ∀ next ∈ rest'.head?, ¬next == ' ') (same : List.replicate n ' ' ++ rest = List.replicate n' ' ' ++ rest') :
    n = n' ∧ rest = rest' := by
  have blank (n : Nat) : ∀ c ∈ List.replicate n ' ', c == ' ' := by simp
  obtain ⟨blanks, left⟩ := runs_unique (blank n) (blank n') stops stops' same
  exact ⟨by simpa using congrArg List.length blanks, left⟩

theorem digits_unique {n n' : Nat} {rest rest' : List Char} (stops : ∀ next ∈ rest.head?, ¬next.isDigit)
    (stops' : ∀ next ∈ rest'.head?, ¬next.isDigit) (same : Nat.toDigits 10 n ++ rest = Nat.toDigits 10 n' ++ rest') :
    n = n' ∧ rest = rest' := by
  have decimal (n : Nat) : ∀ c ∈ Nat.toDigits 10 n, c.isDigit :=
    fun _ member => Nat.isDigit_of_mem_toDigits (by decide) (by decide) member
  obtain ⟨digits, left⟩ := runs_unique (decimal n) (decimal n') stops stops' same
  have value := congrArg (Nat.ofDigitChars 10 · 0) digits
  simp only [Nat.ofDigitChars_ten_toDigits] at value
  exact ⟨value, left⟩

end Text

namespace Position

theorem toList_text (p : Position) : p.text.toList = Nat.toDigits 10 p.line ++ ':' :: Nat.toDigits 10 p.column := by
  simp [text]

/-- A place is read back from its text up to the offset, which is not shown. -/
theorem text_unique {p p' : Position} {rest rest' : List Char} (stops : ∀ next ∈ rest.head?, ¬next.isDigit)
    (stops' : ∀ next ∈ rest'.head?, ¬next.isDigit) (same : p.text.toList ++ rest = p'.text.toList ++ rest') :
    p.line = p'.line ∧ p.column = p'.column ∧ rest = rest' := by
  simp only [toList_text, List.append_assoc, List.cons_append] at same
  obtain ⟨line, behind⟩ := Text.digits_unique (by simp) (by simp) same
  obtain ⟨column, left⟩ := Text.digits_unique stops stops' (List.cons.inj behind).2
  exact ⟨line, column, left⟩

end Position

end DefunReader

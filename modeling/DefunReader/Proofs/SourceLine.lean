import DefunReader.Text.Lines
import Mathlib.Data.List.DropRight

/-! Lines of a text by the stretches that they take up. A line has its number of LFs before it, none inside, and behind it the
LF or CRLF that ends it, or the end of the text. -/
namespace DefunReader.Text

/-- What can stand behind a line. A CR before an LF belongs to the line break. -/
inductive Ends (line : List Char) : List Char → Prop where
  | finish : Ends line []
  | lf (rest : List Char) : line.getLast? ≠ some '\r' → Ends line ('\n' :: rest)
  | crlf (rest : List Char) : Ends line ('\r' :: '\n' :: rest)

/-- The text is nothing or ends in a line break. -/
def Whole (text : List Char) : Prop := text = [] ∨ text.getLast? = some '\n'

/-- The line of the text with that many LFs before it. Behind a final line break stands an empty line. -/
def IsLine (text : List Char) (number : Nat) (line : List Char) : Prop :=
  ∃ before behind, text = before ++ (line ++ behind) ∧ Whole before ∧ before.count '\n' = number ∧ '\n' ∉ line ∧
    Ends line behind

section Lines

variable {c : Char} {text before line behind rest : List Char} {number : Nat}

theorem Whole.of_cons (whole : Whole (c :: text)) : Whole text := by
  cases text with
  | nil => exact .inl rfl
  | cons d rest => simpa [Whole] using whole

theorem Ends.of_cons (ends : Ends (c :: line) behind) : Ends line behind := by
  cases ends with
  | finish => exact .finish
  | crlf rest => exact .crlf rest
  | lf rest plain =>
    apply Ends.lf rest
    cases line with
    | nil => simp
    | cons d line => simpa using plain

theorem lines_cons (plain : c ≠ '\n') (alone : c = '\r' → rest.head? ≠ some '\n') :
    lines (c :: rest) = extendFirst c (lines rest) := by
  apply lines.eq_4
  · exact plain
  · rintro more rfl rfl
    exact alone rfl rfl

theorem extendFirst_ne_nil (c : Char) (lines : List (List Char)) : extendFirst c lines ≠ [] := by
  cases lines <;> simp [extendFirst]

theorem lines_ne_nil (some : text ≠ []) : lines text ≠ [] := by
  fun_cases lines text with
  | case1 => exact absurd rfl some
  | case2 => simp
  | case3 => simp
  | case4 => exact extendFirst_ne_nil _ _

theorem extendFirst_append (c : Char) {lines : List (List Char)} (some : lines ≠ []) (more : List (List Char)) :
    extendFirst c (lines ++ more) = extendFirst c lines ++ more ∧ (extendFirst c lines).length = lines.length := by
  cases lines with
  | nil => exact absurd rfl some
  | cons line lines => exact ⟨rfl, rfl⟩

theorem head_extendFirst (c : Char) (lines : List (List Char)) :
    (extendFirst c lines).head?.getD [] = c :: lines.head?.getD [] := by
  cases lines <;> rfl

theorem lines_whole (whole : Whole before) (rest : List Char) :
    lines (before ++ rest) = lines before ++ lines rest ∧ (lines before).length = before.count '\n' := by
  induction before using lines.induct with
  | case1 => simp [lines]
  | case2 before ih =>
    obtain ⟨split, length⟩ := ih whole.of_cons
    simp [lines, split, length]
  | case3 before ih =>
    obtain ⟨split, length⟩ := ih whole.of_cons.of_cons
    simp [lines, split, length]
  | case4 c before plain alone ih =>
    -- The text goes on behind the character, for it ends in a line break; so what follows the text does not matter here.
    cases before with
    | nil =>
      have last : c = '\n' := by simpa [Whole] using whole
      exact absurd last plain
    | cons d before =>
      have proper : c = '\r' → d ≠ '\n' := by
        rintro rfl rfl
        exact alone before rfl rfl
      obtain ⟨split, length⟩ := ih whole.of_cons
      obtain ⟨extended, same⟩ := extendFirst_append c (lines_ne_nil (List.cons_ne_nil d before)) (lines rest)
      have first : lines (c :: d :: before) = extendFirst c (lines (d :: before)) :=
        lines_cons plain (by simpa using proper)
      have whole : lines (c :: d :: (before ++ rest)) = extendFirst c (lines (d :: (before ++ rest))) :=
        lines_cons plain (by simpa using proper)
      constructor
      · rw [List.cons_append, List.cons_append, whole, first, ← extended, ← split, List.cons_append]
      · rw [first, same, length, List.count_cons_of_ne plain]

theorem head_lines (single : '\n' ∉ line) (ends : Ends line behind) : (lines (line ++ behind)).head?.getD [] = line := by
  induction line with
  | nil => cases ends <;> simp_all [lines]
  | cons c line ih =>
    obtain ⟨plain, single⟩ := List.ne_and_not_mem_of_not_mem_cons single
    have alone : c = '\r' → (line ++ behind).head? ≠ some '\n' := by
      rintro rfl broken
      cases line with
      | nil => cases ends <;> simp_all
      | cons d line => simp_all
    rw [List.cons_append, lines_cons (Ne.symm plain) alone, head_extendFirst, ih single ends.of_cons]

theorem IsLine.single (stands : IsLine text number line) : '\n' ∉ line := by
  obtain ⟨-, -, -, -, -, single, -⟩ := stands
  exact single

theorem IsLine.eq (stands : IsLine text number line) : (lines text)[number]?.getD [] = line := by
  obtain ⟨before, behind, rfl, whole, rfl, single, ends⟩ := stands
  obtain ⟨split, length⟩ := lines_whole whole (line ++ behind)
  rw [split, List.getElem?_append_right (Nat.le_of_eq length), length, Nat.sub_self, ← List.head?_eq_getElem?]
  exact head_lines single ends

end Lines

theorem exists_ends (text : List Char) : ∃ tail behind, text = tail ++ behind ∧ '\n' ∉ tail ∧ Ends tail behind := by
  induction text using lines.induct with
  | case1 => exact ⟨[], [], rfl, List.not_mem_nil, .finish⟩
  | case2 rest => exact ⟨[], _, rfl, List.not_mem_nil, .lf rest (by simp)⟩
  | case3 rest => exact ⟨[], _, rfl, List.not_mem_nil, .crlf rest⟩
  | case4 c rest plain alone ih =>
    obtain ⟨tail, behind, rfl, single, ends⟩ := ih
    refine ⟨c :: tail, behind, rfl, List.not_mem_cons_of_ne_of_not_mem (Ne.symm plain) single, ?_⟩
    cases ends with
    | finish => exact .finish
    | crlf rest => exact .crlf rest
    | lf rest unbroken =>
      apply Ends.lf rest
      cases tail with
      | nil => simp_all
      | cons d tail => simpa using unbroken

theorem exists_whole (text : List Char) : ∃ start indent, text = start ++ indent ∧ Whole start ∧ '\n' ∉ indent ∧
    indent.length = (text.reverse.takeWhile (· ≠ '\n')).length := by
  refine ⟨text.rdropWhile (· ≠ '\n'), text.rtakeWhile (· ≠ '\n'), ?_, ?_, ?_, ?_⟩
  · exact List.rdropWhile_append_rtakeWhile.symm
  · by_cases none : text.rdropWhile (· ≠ '\n') = []
    · exact .inl none
    · have last := List.rdropWhile_last_not _ text none
      exact .inr ((List.getLast?_eq_some_getLast none).trans (congrArg some (by simpa using last)))
  · intro member
    simpa using List.mem_rtakeWhile_imp member
  · rw [List.rtakeWhile, List.length_reverse]

section Around

variable {stretch tail behind : List Char}

theorem Ends.append (ends : Ends tail behind) (front : List Char) (unbroken : tail = [] → front.getLast? ≠ some '\r') :
    Ends (front ++ tail) behind := by
  cases ends with
  | finish => exact .finish
  | crlf rest => exact .crlf rest
  | lf rest plain =>
    apply Ends.lf rest
    cases tail with
    | nil => simpa using unbroken rfl
    | cons c tail => simpa [List.getLast?_append] using plain

theorem exists_isLine (before : List Char) (single : '\n' ∉ stretch) (unbroken : stretch.getLast? ≠ some '\r')
    (finish : stretch = [] → behind = []) : ∃ indent tail,
      IsLine (before ++ (stretch ++ behind)) (before.count '\n') (indent ++ (stretch ++ tail)) ∧
      indent.length = (before.reverse.takeWhile (· ≠ '\n')).length := by
  obtain ⟨start, indent, split, whole, indented, length⟩ := exists_whole before
  obtain ⟨tail, rest, rfl, overlong, ends⟩ := exists_ends behind
  refine ⟨indent, tail, ⟨start, rest, ?_, whole, ?_, ?_, ?_⟩, length⟩
  · simp [split]
  · rw [split, List.count_append, List.count_eq_zero_of_not_mem indented, Nat.add_zero]
  · simp [indented, single, overlong]
  · by_cases none : stretch = []
    · obtain ⟨rfl, rfl⟩ := List.append_eq_nil_iff.mp (finish none)
      exact .finish
    · rw [← List.append_assoc]
      apply ends.append
      intro last
      rw [List.getLast?_append_of_ne_nil _ none]
      exact unbroken

end Around

end DefunReader.Text

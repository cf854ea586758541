import DefunReader.Proofs.Underline

/-! How far the carets of a report run, whatever range its problem has. They stop where the source line does, or a single caret
stands behind the line where the range has none of its characters. Only of a range that stops between the halves of a CRLF is
the CR counted too, although the source line is printed without it. -/
namespace DefunReader

namespace Text

/-- The characters of a line among the given number that follow its first `indent`. -/
def covered (line : List Char) (indent length : Nat) : List Char :=
  (line.drop indent).take length

/-- A stretch begins in front of a CRLF, in the same line, and stops between its halves. -/
def HalvesBreak (stretch behind : List Char) : Prop :=
  ∃ front rest, stretch = front ++ ['\r'] ∧ behind = '\n' :: rest ∧ front ≠ [] ∧ '\n' ∉ front

/-- The line that the text behind `before` starts in; `indent` is what `before` has of it. -/
structure LiesIn (text before start indent line rest : List Char) : Prop where
  text_eq : text = start ++ (line ++ rest)
  before_eq : before = start ++ indent
  whole : Whole start
  indented : '\n' ∉ indent
  single : '\n' ∉ line
  ends : Ends line rest

section Lines

variable {text before start indent line rest stretch behind tail : List Char}

theorem exists_liesIn (before behind : List Char) : ∃ start indent line rest,
    LiesIn (before ++ behind) before start indent line rest ∧
      indent.length = (before.reverse.takeWhile (· ≠ '\n')).length := by
  obtain ⟨start, indent, split, whole, indented, length⟩ := exists_whole before
  obtain ⟨line, rest, found, single, ends⟩ := exists_ends (indent ++ behind)
  refine ⟨start, indent, line, rest, ⟨?_, split, whole, indented, single, ends⟩, length⟩
  rw [split, List.append_assoc, found]

theorem LiesIn.isLine (lies : LiesIn text before start indent line rest) : IsLine text (before.count '\n') line := by
  refine ⟨start, rest, lies.text_eq, lies.whole, ?_, lies.single, lies.ends⟩
  rw [lies.before_eq, List.count_append, List.count_eq_zero_of_not_mem lies.indented, Nat.add_zero]

theorem LiesIn.split (lies : LiesIn (before ++ behind) before start indent line rest) : line ++ rest = indent ++ behind := by
  have same := lies.text_eq
  rw [lies.before_eq, List.append_assoc] at same
  exact (List.append_cancel_left same).symm

theorem Ends.of_append (ends : Ends (indent ++ tail) rest) : Ends tail rest := by
  induction indent with
  | nil => exact ends
  | cons c indent ih => exact ih ends.of_cons

theorem HalvesBreak.single (halves : HalvesBreak stretch behind) : '\n' ∉ stretch := by
  obtain ⟨front, rest, rfl, -, -, single⟩ := halves
  simp [single]

theorem HalvesBreak.two_le_length (halves : HalvesBreak stretch behind) : 2 ≤ stretch.length := by
  obtain ⟨front, rest, rfl, -, some, -⟩ := halves
  have := List.length_pos_iff.mpr some
  rw [List.length_append, List.length_singleton]
  omega

theorem head_lines_of_ends (ends : Ends [] stretch) :
    (lines stretch).head?.getD [] = [] ∧ ¬HalvesBreak stretch behind := by
  refine ⟨head_lines List.not_mem_nil ends, fun halves => ?_⟩
  have single := halves.single
  cases ends with
  | finish => exact absurd halves.two_le_length (by simp)
  | lf rest => simp at single
  | crlf rest => simp at single

theorem ends_of_lf {more : List Char} (split : '\n' :: more = stretch ++ behind) : Ends [] stretch := by
  cases stretch with
  | nil => exact .finish
  | cons c stretch =>
    cases split
    exact .lf stretch (by simp)

theorem cr_or_ends_of_crlf {more : List Char} (split : '\r' :: '\n' :: more = stretch ++ behind) :
    stretch = ['\r'] ∨ Ends [] stretch := by
  match stretch with
  | [] => exact .inr .finish
  | [c] =>
    cases split
    exact .inl rfl
  | c :: d :: stretch =>
    cases split
    exact .inr (.crlf stretch)

/-- Behind the characters of its line, a stretch has at most the CR of the line break on its first line. -/
theorem length_first_outside (split : line ++ rest = indent ++ (stretch ++ behind)) (ends : Ends line rest)
    (indented : '\n' ∉ indent) (past : line.length ≤ indent.length) :
    ((lines stretch).head?.getD []).length ≤ 1 ∧ ¬HalvesBreak stretch behind := by
  obtain ⟨gap, plain, broken⟩ : ∃ gap, '\n' ∉ gap ∧ rest = gap ++ (stretch ++ behind) := by
    rcases List.append_eq_append_iff.mp split with ⟨gap, rfl, same⟩ | ⟨gap, rfl, same⟩
    · exact ⟨gap, fun member => indented (List.mem_append_right _ member), same⟩
    · have none : gap = [] := by simpa using past
      exact ⟨[], List.not_mem_nil, by rw [same, none, List.nil_append, List.nil_append]⟩
  have cases : stretch = ['\r'] ∨ Ends [] stretch := by
    cases ends with
    | finish =>
      obtain ⟨-, rfl, -⟩ : gap = [] ∧ stretch = [] ∧ behind = [] := by simpa using broken
      exact .inr .finish
    | lf more =>
      cases gap with
      | nil => exact .inr (ends_of_lf broken)
      | cons c gap => simp_all
    | crlf more =>
      match gap with
      | [] => exact cr_or_ends_of_crlf broken
      | [c] => exact .inr (ends_of_lf (List.cons.inj broken).2)
      | c :: d :: gap => simp_all
  rcases cases with rfl | empty
  · exact ⟨Nat.le_refl 1, fun halves => absurd halves.two_le_length (by simp)⟩
  · obtain ⟨none, whole⟩ := head_lines_of_ends empty
    exact ⟨by simp [none], whole⟩

theorem length_first_within {more : List Char} (ends : Ends (stretch ++ more) rest) (single : '\n' ∉ stretch ++ more) :
    ¬HalvesBreak stretch (more ++ rest) ∧ ((lines stretch).head?.getD []).length ≤ stretch.length := by
  constructor
  · intro halves
    obtain ⟨front, later, rfl, same, -, -⟩ := halves
    cases more with
    | nil =>
      -- A line that an LF ends has no CR at its end.
      cases ends with
      | finish => cases same
      | lf rest plain => simp at plain
      | crlf => cases same
    | cons c more => simp_all
  · have plain : '\n' ∉ stretch := fun member => single (List.mem_append_left _ member)
    have first := head_lines plain .finish
    rw [List.append_nil] at first
    rw [first]

/-- Where a stretch has all that is left of a line and more, it has just that on its first line, unless it stops inside the line
break. -/
theorem length_first_across {c : Char} {more : List Char} (ends : Ends tail (c :: (more ++ behind))) (single : '\n' ∉ tail)
    (some : tail ≠ []) :
    HalvesBreak (tail ++ c :: more) behind ∧ ((lines (tail ++ c :: more)).head?.getD []).length = tail.length + 1 ∨
      ¬HalvesBreak (tail ++ c :: more) behind ∧ ((lines (tail ++ c :: more)).head?.getD []).length ≤ tail.length := by
  have whole (ends : Ends tail (c :: more)) (broken : '\n' ∈ c :: more) : ¬HalvesBreak (tail ++ c :: more) behind ∧
      ((lines (tail ++ c :: more)).head?.getD []).length ≤ tail.length :=
    ⟨fun halves => halves.single (List.mem_append_right _ broken), by rw [head_lines single ends]⟩
  generalize following : more ++ behind = later at ends
  cases ends with
  | lf _ plain => exact .inr (whole (.lf more plain) List.mem_cons_self)
  | crlf rest =>
    cases more with
    | nil =>
      have unbroken : '\n' ∉ tail ++ ['\r'] := by simp [single]
      have first := head_lines unbroken .finish
      rw [List.append_nil] at first
      exact .inl ⟨⟨tail, rest, rfl, following, some, single⟩, by rw [first, List.length_append, List.length_singleton]⟩
    | cons d more =>
      cases following
      exact .inr (whole (.crlf more) (by simp))

theorem length_first_inside (split : tail ++ rest = stretch ++ behind) (ends : Ends tail rest) (single : '\n' ∉ tail)
    (some : tail ≠ []) :
    HalvesBreak stretch behind ∧ ((lines stretch).head?.getD []).length = tail.length + 1 ∨
      ¬HalvesBreak stretch behind ∧ ((lines stretch).head?.getD []).length ≤ tail.length := by
  by_cases within : stretch.length ≤ tail.length
  · obtain ⟨more, rfl⟩ := List.prefix_of_prefix_length_le ⟨behind, split.symm⟩ ⟨rest, rfl⟩ within
    rw [List.append_assoc] at split
    obtain rfl := List.append_cancel_left split
    obtain ⟨whole, length⟩ := length_first_within ends single
    exact .inr ⟨whole, length.trans within⟩
  · obtain ⟨more, rfl⟩ := List.prefix_of_prefix_length_le ⟨rest, rfl⟩ ⟨behind, split.symm⟩ (Nat.le_of_not_le within)
    rw [List.append_assoc] at split
    obtain rfl := List.append_cancel_left split
    cases more with
    | nil => simp at within
    | cons c more => exact length_first_across ends single some

theorem LiesIn.length_first (lies : LiesIn (before ++ (stretch ++ behind)) before start indent line rest) :
    (line.length ≤ indent.length ∧ ¬HalvesBreak stretch behind ∧ ((lines stretch).head?.getD []).length ≤ 1) ∨
      indent.length < line.length ∧
        (HalvesBreak stretch behind ∧ indent.length + ((lines stretch).head?.getD []).length = line.length + 1 ∨
          ¬HalvesBreak stretch behind ∧ indent.length + ((lines stretch).head?.getD []).length ≤ line.length) := by
  have split := lies.split
  by_cases past : line.length ≤ indent.length
  · obtain ⟨first, whole⟩ := length_first_outside split lies.ends lies.indented past
    exact .inl ⟨past, whole, first⟩
  · obtain ⟨tail, rfl⟩ := List.prefix_of_prefix_length_le ⟨_, split.symm⟩ ⟨rest, rfl⟩ (Nat.le_of_not_le past)
    have some : tail ≠ [] := by
      rintro rfl
      simp at past
    have single : '\n' ∉ tail := fun member => lies.single (List.mem_append_right _ member)
    rw [List.append_assoc] at split
    have following : tail ++ rest = stretch ++ behind := List.append_cancel_left split
    refine .inr ⟨Nat.lt_of_not_le past, ?_⟩
    rw [List.length_append]
    rcases length_first_inside following lies.ends.of_append single some with ⟨halves, first⟩ | ⟨whole, first⟩
    · exact .inl ⟨halves, by omega⟩
    · exact .inr ⟨whole, by omega⟩

end Lines

end Text

namespace Report

/-- The report prints a source line and a line of carets below it, with the same width in front of both. -/
structure Marks (r : Report) (line blanks : List Char) (carets : Nat) : Prop where
  above : r.lines[3]? = some (r.lineNumber ++ " | " ++ String.ofList line)
  below : r.lines[4]? = some (r.gutter ++ " | " ++ String.ofList (blanks ++ List.replicate carets '^'))
  gutter : r.gutter.length = r.lineNumber.length
  blank : ∀ c ∈ blanks, c = ' ' ∨ c = '\t'
  some : 0 < carets

/-- The carets end with the line; a single one may stand just behind it for a range without characters of the line. -/
def Contained (line blanks : List Char) (carets : Nat) (covered : List Char) : Prop :=
  blanks.length + carets ≤ line.length ∨ carets = 1 ∧ blanks.length = line.length ∧ covered = []

variable {r : Report} {before stretch behind start indent line rest : List Char}

theorem marks (r : Report) : r.Marks r.sourceLine r.padding r.width where
  above := by
    rw [lines_eq]
    rfl
  below := by
    rw [lines_eq]
    rfl
  gutter := by rw [Report.gutter, String.length_ofList, List.length_replicate]
  blank := by
    intro c member
    obtain ⟨d, -, rfl⟩ := List.mem_map.mp member
    split
    · exact .inr rfl
    · exact .inl rfl
  some := Nat.lt_of_lt_of_le Nat.one_pos (Nat.le_max_right _ _)

variable {line' blanks blanks' : List Char} {carets carets' : Nat}

theorem Marks.uncareted (marks : r.Marks line blanks carets) : blanks.count '^' = 0 := by
  apply List.count_eq_zero_of_not_mem
  intro member
  rcases marks.blank '^' member with same | same <;> cases same

theorem Marks.unique (marks : r.Marks line blanks carets) (marks' : r.Marks line' blanks' carets') :
    line = line' ∧ blanks.length = blanks'.length ∧ carets = carets' := by
  have above := congrArg String.toList (Option.some.inj (marks.above.symm.trans marks'.above))
  have below := congrArg String.toList (Option.some.inj (marks.below.symm.trans marks'.below))
  simp only [String.toList_append, String.toList_ofList] at above below
  have row := List.append_cancel_left below
  have many := congrArg (List.count '^') row
  simp only [List.count_append, marks.uncareted, marks'.uncareted, List.count_replicate_self, Nat.zero_add] at many
  have wide := congrArg List.length row
  simp only [List.length_append, List.length_replicate] at wide
  exact ⟨List.append_cancel_left above, by omega, many⟩

theorem length_padding (column : indent.length = r.problem.span.start.column - 1) :
    r.padding.length = min indent.length r.sourceLine.length := by
  rw [padding, List.length_map, List.length_take, column]

theorem width_eq_max (cut : Text.cut r.source.toList r.problem.span.start.offset r.problem.span.stop = some stretch) :
    r.width = max ((Text.lines stretch).head?.getD []).length 1 := by
  rw [width, cut, Option.bind_some]

end Report

/-- Whatever stretch of a text a problem is about, the report has carets below the line where the stretch starts, and they stay
within that line; where the stretch halves the line break, there is one caret too many. -/
theorem carets_within_line {file text : String} {before stretch behind : List Char} {problem : Problem}
    (split : text.toList = before ++ (stretch ++ behind)) (covers : problem.span.Covers before stretch) :
    ∃ start indent line rest blanks carets, Text.LiesIn text.toList before start indent line rest ∧
      (Report.mk file text problem).Marks line blanks carets ∧
      (Text.HalvesBreak stretch behind → blanks.length + carets = line.length + 1) ∧
      (¬Text.HalvesBreak stretch behind →
        Report.Contained line blanks carets (Text.covered line indent.length stretch.length)) := by
  let r := Report.mk file text problem
  obtain ⟨start, indent, line, rest, lies, column⟩ := Text.exists_liesIn before (stretch ++ behind)
  have found := lies.length_first
  rw [← split] at lies
  have shown : r.sourceLine = line := by
    have isLine := lies.isLine
    rw [Report.sourceLine, covers.line, Nat.add_sub_cancel_left]
    exact isLine.eq
  have cut : Text.cut text.toList problem.span.start.offset problem.span.stop = some stretch := by
    rw [split, covers.start, covers.stop]
    exact Text.cut_append before stretch behind
  have width : r.width = _ := Report.width_eq_max cut
  have pad : r.padding.length = min indent.length line.length := by
    rw [← shown]
    apply Report.length_padding
    rw [covers.column, Nat.add_sub_cancel_left, column]
  have marks := r.marks
  rw [shown] at marks
  refine ⟨start, indent, line, rest, r.padding, r.width, lies, marks, ?_⟩
  rcases found with ⟨past, whole, first⟩ | ⟨within, ⟨halves, first⟩ | ⟨whole, first⟩⟩
  · refine ⟨fun halves => absurd halves whole, fun _ => .inr ⟨?_, ?_, ?_⟩⟩
    · rw [width, Nat.max_eq_right first]
    · rw [pad, Nat.min_eq_right past]
    · rw [Text.covered, List.drop_of_length_le past, List.take_nil]
  · refine ⟨fun _ => ?_, fun whole => absurd halves whole⟩
    omega
  · refine ⟨fun halves => absurd halves whole, fun _ => .inl ?_⟩
    omega

theorem carets_within_line_open :
    "(f\n x\r\n)".toList = "(f\n ".toList ++ ("x\r\n)".toList ++ []) ∧
      (Span.mk ⟨2, 2, 4⟩ 8).Covers "(f\n ".toList "x\r\n)".toList ∧ ¬Text.HalvesBreak "x\r\n)".toList [] ∧
      ∃ start indent line rest blanks carets, Text.LiesIn "(f\n x\r\n)".toList "(f\n ".toList start indent line rest ∧
        (Report.mk "f.lisp" "(f\n x\r\n)" (.nestedTooDeep ⟨⟨2, 2, 4⟩, 8⟩ 0)).Marks line blanks carets ∧
        Report.Contained line blanks carets (Text.covered line indent.length 4) := by
  have split : "(f\n x\r\n)".toList = "(f\n ".toList ++ ("x\r\n)".toList ++ []) := by decide
  have covers : (Span.mk ⟨2, 2, 4⟩ 8).Covers "(f\n ".toList "x\r\n)".toList := ⟨by decide, by decide, by decide, by decide⟩
  have whole : ¬Text.HalvesBreak "x\r\n)".toList [] := fun halves => halves.single (by decide)
  obtain ⟨start, indent, line, rest, blanks, carets, lies, marks, -, contained⟩ :=
    @carets_within_line "f.lisp" _ _ _ _ (.nestedTooDeep ⟨⟨2, 2, 4⟩, 8⟩ 0) split covers
  exact ⟨split, covers, whole, start, indent, line, rest, blanks, carets, lies, marks, contained whole⟩

/-- The CR of a CRLF is counted but not printed, so two carets stand below the last character of the line. -/
theorem carets_past_crlf : ¬∀ (file text : String) (before stretch behind : List Char) (problem : Problem),
    text.toList = before ++ (stretch ++ behind) → problem.span.Covers before stretch →
    ∃ start indent line rest blanks carets, Text.LiesIn text.toList before start indent line rest ∧
      (Report.mk file text problem).Marks line blanks carets ∧
      Report.Contained line blanks carets (Text.covered line indent.length stretch.length) := by
  intro always
  let r := Report.mk "f.lisp" "ab\r\ncd" (.strayCharacter ⟨⟨1, 2, 1⟩, 3⟩ 'b')
  have covers : (Span.mk ⟨1, 2, 1⟩ 3).Covers ['a'] ['b', '\r'] := ⟨by decide, by decide, by decide, by decide⟩
  obtain ⟨start, indent, line, rest, blanks, carets, -, marks, contained⟩ :=
    always r.file r.source ['a'] ['b', '\r'] ['\n', 'c', 'd'] r.problem (by decide) covers
  obtain ⟨rfl, blank, rfl⟩ := marks.unique r.marks
  have length : r.sourceLine.length = 2 := by decide +kernel
  have padding : r.padding.length = 1 := by decide +kernel
  have width : r.width = 2 := by decide +kernel
  rcases contained with short | ⟨single, -, -⟩ <;> omega

end DefunReader

import DefunReader.Proofs.Location
import DefunReader.Proofs.SourceLine
import DefunReader.Proofs.Wording

/-! Reports of the problems that scanning and parsing raise. The source line is the one that the token stands in, and the
carets are as many as its characters and stand below them. -/
namespace DefunReader

/-- Texts that are equally wide in print: as many characters, with tabs at the same places. -/
def Text.Aligned (s t : List Char) : Prop :=
  s.map (· == '\t') = t.map (· == '\t')

def Problem.AtFinish (problem : Problem) : Prop :=
  ∃ span expected within, problem = .unexpectedToken span expected .finish within

/-- The report has five lines, and one for the hint if there is one. The fourth has the line of the source that the token
stands in, the fifth has carets below the token. -/
structure Report.Underlines (r : Report) (indent token tail : List Char) : Prop where
  cut : Text.cut r.source.toList r.problem.span.start.offset r.problem.span.stop = some token
  stands : ∃ behind, r.problem.StandsAt token behind
  isLine : Text.IsLine r.source.toList (r.problem.span.start.line - 1) (indent ++ (token ++ tail))
  column : indent.length = r.problem.span.start.column - 1
  text_eq : r.text.toList = r.lines.flatMap fun line => line.toList ++ ['\n']
  single : ∀ line ∈ r.lines, '\n' ∉ line.toList
  length : r.lines.length = 5 + r.problem.help?.toList.length
  above : r.lines[3]? = some (toString r.problem.span.start.line ++ " | " ++ String.ofList (indent ++ (token ++ tail)))
  below : r.lines[4]? = some (String.ofList (List.replicate (toString r.problem.span.start.line).length ' ') ++ " | " ++
    String.ofList ((indent.map fun c => if c = '\t' then '\t' else ' ') ++ List.replicate (max token.length 1) '^'))
  help : r.lines.drop 5 = r.problem.help?.toList.map ("help: " ++ ·)
  aligned : ∃ lead pad, r.lines[3]?.map String.toList = some (lead ++ (token ++ tail)) ∧
    r.lines[4]?.map String.toList = some (pad ++ List.replicate (max token.length 1) '^') ∧ Text.Aligned lead pad
  covered : ¬r.problem.AtFinish → max token.length 1 = token.length

theorem Text.toList_unlines (lines : List String) :
    (Text.unlines lines).toList = lines.flatMap fun line => line.toList ++ ['\n'] := by
  have behind (text : String) : (lines.foldl (fun text line => text ++ line ++ "\n") text).toList =
      text.toList ++ lines.flatMap fun line => line.toList ++ ['\n'] := by
    induction lines generalizing text with
    | nil => simp
    | cons line lines ih => simp [ih]
  exact behind ""

/-- Tabs in place of tabs and blanks in place of the rest take up the same width. -/
theorem Text.aligned_blanks (text : List Char) : Aligned text (text.map fun c => if c = '\t' then '\t' else ' ') := by
  induction text with
  | nil => rfl
  | cons c text ih =>
    by_cases tab : c = '\t' <;> simp_all [Aligned]

theorem Text.aligned_of_length {s t : List Char} (length : s.length = t.length) (none : '\t' ∉ s) (none' : '\t' ∉ t) :
    Aligned s t := by
  have plain {u : List Char} (none : '\t' ∉ u) : u.map (· == '\t') = List.replicate u.length false := by
    rw [List.map_eq_replicate_iff]
    intro c member
    exact beq_eq_false_iff_ne.mpr (ne_of_mem_of_not_mem member none)
  rw [Aligned, plain none, plain none', length]

theorem Text.Aligned.append {s t s' t' : List Char} (first : Aligned s t) (second : Aligned s' t') :
    Aligned (s ++ s') (t ++ t') := by
  simp_all [Aligned]

section Token

variable {stretch behind : List Char} {problem : Problem}

theorem Problem.StandsAt.finish_or (stands : problem.StandsAt stretch behind) :
    stretch ≠ [] ∨ behind = [] ∧ problem.AtFinish := by
  cases problem with
  | strayCharacter span found => simp [stands.1]
  | numberTooLarge span text => exact .inl stands.2.ne_nil
  | nestedTooDeep span limit =>
    have paren : Token.leftParen.StandsAt stretch behind := stands
    exact .inl (paren.ne_nil (by decide))
  | unexpectedToken span expected found within =>
    obtain ⟨token, rfl, stands⟩ := stands
    by_cases finish : token = .finish
    · subst finish
      exact .inr ⟨stands.2, span, expected, within, rfl⟩
    · exact .inl (stands.ne_nil finish)

end Token

namespace Report

variable {r : Report} {before indent token tail behind : List Char}

theorem width_eq (cut : Text.cut r.source.toList r.problem.span.start.offset r.problem.span.stop = some token)
    (single : '\n' ∉ token) : r.width = max token.length 1 := by
  have first := Text.head_lines single .finish
  rw [List.append_nil] at first
  rw [width, cut, Option.bind_some, first]

theorem padding_eq (isLine : Text.IsLine r.source.toList (r.problem.span.start.line - 1) (indent ++ tail))
    (column : indent.length = r.problem.span.start.column - 1) :
    r.padding = indent.map fun c => if c = '\t' then '\t' else ' ' := by
  rw [padding, sourceLine, isLine.eq, ← column, List.take_left]

theorem lines_eq (r : Report) : r.lines =
    [ "error[" ++ r.problem.code ++ "]: " ++ r.problem.message,
      r.gutter ++ " --> " ++ r.file ++ ":" ++ r.problem.span.text,
      r.gutter ++ " |",
      r.lineNumber ++ " | " ++ String.ofList r.sourceLine,
      r.gutter ++ " | " ++ String.ofList (r.padding ++ List.replicate r.width '^') ] ++
    r.problem.help?.toList.map ("help: " ++ ·) := by
  unfold lines
  cases r.problem.help? <;> rfl

theorem aligned_gutter (r : Report) : Text.Aligned r.lineNumber.toList r.gutter.toList := by
  apply Text.aligned_of_length
  · rw [gutter, String.toList_ofList, List.length_replicate, String.length_toList]
  · rw [lineNumber, Nat.toString_eq_repr, Nat.toList_repr]
    exact Text.not_mem_toDigits rfl _
  · simp [gutter, List.mem_replicate]

theorem newline_not_mem_padding (r : Report) : '\n' ∉ r.padding := by
  intro member
  obtain ⟨c, -, padded⟩ := List.mem_map.mp member
  split at padded <;> cases padded

theorem newline_not_mem_lines (named : '\n' ∉ r.file.toList) (stands : r.problem.StandsAt token behind)
    (single : '\n' ∉ r.sourceLine) : ∀ line ∈ r.lines, '\n' ∉ line.toList := by
  have message := Problem.newline_not_mem_message stands
  have padding := r.newline_not_mem_padding
  have hint : ∀ help ∈ r.problem.help?, '\n' ∉ help.toList := fun _ => Problem.newline_not_mem_help
  rw [lines_eq, List.forall_mem_append]
  constructor
  · simp [named, message, single, padding, gutter, lineNumber, List.mem_replicate]
  · simpa using hint

theorem exists_underlines (named : '\n' ∉ r.file.toList) (shows : r.problem.span.Shows r.source before token behind)
    (stands : r.problem.StandsAt token behind) : ∃ indent tail, r.Underlines indent token tail := by
  have plain {c : Char} (blank : Text.isBlank c) : c ∉ token := by
    intro member
    rw [shows.not_blank c member] at blank
    cases blank
  have single : '\n' ∉ token := plain (by decide)
  have unbroken : token.getLast? ≠ some '\r' := fun last => plain (by decide) (List.mem_of_getLast? last)
  have finish : token = [] → behind = [] := by
    intro none
    rcases stands.finish_or with some | ⟨finish, -⟩
    · exact absurd none some
    · exact finish
  obtain ⟨indent, tail, isLine, length⟩ := Text.exists_isLine before single unbroken finish
  have number : r.problem.span.start.line - 1 = before.count '\n' := by
    rw [shows.covers.line, Nat.add_sub_cancel_left]
  have column : indent.length = r.problem.span.start.column - 1 := by
    rw [shows.covers.column, Nat.add_sub_cancel_left, length]
  rw [← number, ← shows.split] at isLine
  have cut : Text.cut r.source.toList r.problem.span.start.offset r.problem.span.stop = some token := by
    rw [shows.split, shows.covers.start, shows.covers.stop]
    exact Text.cut_append before token behind
  have shown : r.sourceLine = indent ++ (token ++ tail) := isLine.eq
  have carets : r.width = max token.length 1 := width_eq cut single
  have padded := padding_eq isLine column
  have above : r.lines[3]? =
      some (toString r.problem.span.start.line ++ " | " ++ String.ofList (indent ++ (token ++ tail))) := by
    rw [lines_eq, shown]
    rfl
  have below : r.lines[4]? = some (r.gutter ++ " | " ++ String.ofList
      ((indent.map fun c => if c = '\t' then '\t' else ' ') ++ List.replicate (max token.length 1) '^')) := by
    rw [lines_eq, carets, padded]
    rfl
  refine ⟨indent, tail, cut, ⟨behind, stands⟩, isLine, column, ?_, ?_, ?_, above, below, ?_, ?_, ?_⟩
  · exact Text.toList_unlines r.lines
  · apply newline_not_mem_lines named stands
    rw [shown]
    exact isLine.single
  · rw [lines_eq, List.length_append, List.length_map]
    rfl
  · rw [lines_eq]
    rfl
  · refine ⟨r.lineNumber.toList ++ (" | ".toList ++ indent), r.gutter.toList ++ (" | ".toList ++ _), ?_, ?_,
      r.aligned_gutter.append (Text.Aligned.append rfl (Text.aligned_blanks indent))⟩
    · simp [above, lineNumber]
    · simp [below]
  · intro proper
    rcases stands.finish_or with some | ⟨-, finish⟩
    · exact Nat.max_eq_left (List.length_pos_iff.mpr some)
    · exact absurd finish proper

end Report

/-- Whatever problem a text is refused with, its report has the line that the token stands in, and carets below the token. -/
theorem report_underlines {file text : String} {problem : Problem} (named : '\n' ∉ file.toList)
    (raised : tokenize text = .error problem ∨ ∃ limit, parse text limit = .error problem) :
    ∃ indent token tail, (Report.mk file text problem).Underlines indent token tail := by
  have located : Answer.Located text (.error problem) := by
    rcases raised with failed | ⟨limit, failed⟩
    · exact located_of_tokenize_error failed
    · exact located_of_parse_error failed
  obtain ⟨before, token, behind, shows, stands⟩ := located
  obtain ⟨indent, tail, underlines⟩ :=
    @Report.exists_underlines ⟨file, text, problem⟩ before token behind named shows stands
  exact ⟨indent, token, tail, underlines⟩

theorem report_underlines_tab :
    '\n' ∉ "tab.lisp".toList ∧
      tokenize "(defun f ()\n\t(g @))" = .error (.strayCharacter ⟨⟨2, 5, 16⟩, 17⟩ '@') ∧
      ∃ indent token tail, (Report.mk "tab.lisp" "(defun f ()\n\t(g @))" (.strayCharacter ⟨⟨2, 5, 16⟩, 17⟩ '@')).Underlines
        indent token tail := by
  have named : '\n' ∉ "tab.lisp".toList := by decide
  have raised : tokenize "(defun f ()\n\t(g @))" = .error (.strayCharacter ⟨⟨2, 5, 16⟩, 17⟩ '@') := by decide +kernel
  exact ⟨named, raised, report_underlines named (.inl raised)⟩

end DefunReader

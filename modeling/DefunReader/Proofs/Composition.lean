import DefunReader.Proofs.Interleaving
import DefunReader.Proofs.LexicalFailure

/-! Texts scanned one behind the other. What is read of a text does not change when a blank and more text follow it, and what
is read of the text that follows is what it holds by itself, at the places that it has behind the first. -/
namespace DefunReader

/-- The position in a text, counted from the start of another text before it. Columns move in the first line only. -/
def Position.behind (before : List Char) (p : Position) : Position where
  line := p.line + before.count '\n'
  column := if p.line = 1 then p.column + (before.reverse.takeWhile (· ≠ '\n')).length else p.column
  offset := p.offset + String.utf8Len before

def Span.behind (before : List Char) (span : Span) : Span :=
  ⟨span.start.behind before, span.stop + String.utf8Len before⟩

def Token.Placed.behind (before : List Char) (placed : Placed) : Placed :=
  { placed with span := placed.span.behind before }

def Problem.behind (before : List Char) : Problem → Problem
  | strayCharacter span found => strayCharacter (span.behind before) found
  | numberTooLarge span text => numberTooLarge (span.behind before) text
  | unexpectedToken span expected found within => unexpectedToken (span.behind before) expected found within
  | nestedTooDeep span limit => nestedTooDeep (span.behind before) limit

def Answer.behind (before : List Char) : Answer → Answer
  | .ok placed => .ok (placed.behind before)
  | .error problem => .error (problem.behind before)

def Cursor.behind (before : List Char) (c : Cursor) : Cursor :=
  ⟨c.position.behind before, c.unread⟩

section Behind

variable (before : List Char)

theorem Position.origin_behind : origin.behind before = origin.after before := by
  have line := line_after origin before
  have column := column_after before
  have offset := offset_after origin before
  rcases ended : origin.after before with ⟨l, c, o⟩
  rw [ended] at line column offset
  subst line column offset
  rfl

theorem Position.step_behind {p : Position} (numbered : 1 ≤ p.line) (c : Char) :
    (p.behind before).step c = (p.step c).behind before := by
  have later : p.line + 1 ≠ 1 := by omega
  unfold step
  by_cases newline : c = '\n'
  · simp only [newline, ↓reduceIte, behind, later]
    congr 1 <;> omega
  · simp only [newline, ↓reduceIte, behind]
    congr 1
    · split <;> omega
    · omega

theorem Position.after_behind {p : Position} (numbered : 1 ≤ p.line) (text : List Char) :
    (p.behind before).after text = (p.after text).behind before := by
  induction text generalizing p with
  | nil => rfl
  | cons c text ih =>
    have numbered' : 1 ≤ (p.step c).line := by
      have line := line_after p [c]
      rw [after_cons, after_nil] at line
      omega
    rw [after_cons, after_cons, step_behind before numbered, ih numbered']

theorem Answer.isFinal_behind (answer : Answer) : Scanner.isFinal (answer.behind before) = Scanner.isFinal answer := by
  cases answer <;> rfl

namespace Cursor

variable {c : Cursor}

theorem next_behind (numbered : 1 ≤ c.position.line) :
    (c.behind before).next = (Answer.behind before c.next.1, c.next.2.behind before) := by
  have front : (c.behind before).front = c.front.behind before := Position.after_behind before numbered _
  have numbered' : 1 ≤ c.front.line := by
    rw [Cursor.front, Position.line_after]
    omega
  cases found : Front.of (c.unread.dropWhile Text.isBlank) with
  | nothing =>
    have nothing := nil_of_front found
    rw [next_of_nothing nothing, next_of_nothing (c := c.behind before) nothing, front]
    rfl
  | token lexeme token rest =>
    rw [next_of_token found, next_of_token (c := c.behind before) found, front, Position.after_behind before numbered']
    rfl
  | tooLarge lexeme rest =>
    rw [next_of_tooLarge found, next_of_tooLarge (c := c.behind before) found, front, Position.after_behind before numbered']
    rfl
  | stray other =>
    rw [next_of_stray found, next_of_stray (c := c.behind before) found, front, Position.step_behind before numbered']
    congr 1
    exact congrArg (Cursor.mk · _) front

theorem numbered_next (numbered : 1 ≤ c.position.line) : 1 ≤ c.next.2.position.line := by
  obtain ⟨stretch, behind, scans⟩ := exists_scans c
  rw [scans.rest_eq]
  split
  · rw [Position.line_after, front, Position.line_after]
    omega
  · rw [skipBlanks, Position.line_after]
    omega

theorem drain_behind (numbered : 1 ≤ c.position.line) : (c.behind before).drain.1 = c.drain.1.map (Answer.behind before) := by
  induction c using drain_induction with
  | ends c ends =>
    have moved := next_behind before numbered
    rw [drain_of_ends ends, drain_of_ends (by rw [moved, Answer.isFinal_behind, ends]), moved]
    rfl
  | goes c goes ih =>
    have moved := next_behind before numbered
    rw [drain_of_goes goes, drain_of_goes (by rw [moved, Answer.isFinal_behind, goes]), moved, List.map_cons,
      ih (numbered_next numbered)]

end Cursor

end Behind

section Append

variable {more : List Char}

def Front.append (more : List Char) : Front → Front
  | nothing => nothing
  | token lexeme read rest => token lexeme read (rest ++ more)
  | tooLarge lexeme rest => tooLarge lexeme (rest ++ more)
  | stray found => stray found

def Cursor.append (more : List Char) (c : Cursor) : Cursor :=
  ⟨c.position, c.unread ++ more⟩

theorem run_append {class' : Char → Bool} (text : List Char)
    (stops : text.dropWhile class' = [] → ∀ next ∈ more.head?, ¬class' next) :
    (text ++ more).takeWhile class' = text.takeWhile class' ∧
      (text ++ more).dropWhile class' = text.dropWhile class' ++ more := by
  have stops' : ∀ next ∈ (text.dropWhile class' ++ more).head?, ¬class' next := by
    intro next member
    by_cases all : text.dropWhile class' = []
    · rw [all] at member
      exact stops all next member
    · rw [List.head?_append_of_ne_nil _ all] at member
      exact head?_dropWhile member
  have split := @split_run class' (text.takeWhile class') _ (fun _ => List.mem_takeWhile_imp) stops'
  rwa [← List.append_assoc, List.takeWhile_append_dropWhile] at split

namespace Front

variable (blank : ∀ next ∈ more.head?, Text.isBlank next)
include blank

theorem numeral_append (first : Char) (rest : List Char) :
    numeral first (rest ++ more) = (numeral first rest).append more := by
  have stops : ∀ next ∈ more.head?, ¬next.isDigit := by
    intro next member digit
    have := isBlank_range (blank next member)
    have := isDigit_range digit
    omega
  obtain ⟨taken, left⟩ := run_append rest fun _ => stops
  unfold numeral
  dsimp only
  rw [taken, left]
  cases Numeral.read? (first :: rest.takeWhile Char.isDigit) <;> rfl

theorem word_append (first : Char) (rest : List Char) : word first (rest ++ more) = (word first rest).append more := by
  have stops : ∀ next ∈ more.head?, ¬isSubsequent next := by
    intro next member subsequent
    exact absurd (blank next member) (Bool.eq_false_iff.mp (not_blank_of_isSubsequent subsequent))
  obtain ⟨taken, left⟩ := run_append rest fun _ => stops
  unfold word
  dsimp only
  rw [taken, left]
  rfl

theorem boolean_append (rest : List Char) : boolean (rest ++ more) = (boolean rest).append more := by
  cases rest with
  | cons c rest =>
    simp only [List.cons_append, boolean, apply_ite (append more)]
    rfl
  | nil =>
    cases more with
    | nil => rfl
    | cons next more =>
      have other {c : Char} (black : Text.isBlank c = false) : next ≠ c := by
        intro same
        subst same
        exact absurd (blank next rfl) (Bool.eq_false_iff.mp black)
      have yes := other (c := 't') rfl
      have no := other (c := 'f') rfl
      simp [boolean, yes, no, append]

theorem startsWithDigit_append (rest : List Char) : startsWithDigit (rest ++ more) = startsWithDigit rest := by
  cases rest with
  | cons => rfl
  | nil =>
    apply Bool.eq_false_iff.mpr
    intro starts
    obtain ⟨next, member, digit⟩ := startsWithDigit_iff.mp starts
    have := isBlank_range (blank next member)
    have := isDigit_range digit
    omega

theorem of_append {text : List Char} (some : text ≠ []) : of (text ++ more) = (of text).append more := by
  obtain ⟨c, rest, rfl⟩ := List.exists_cons_of_ne_nil some
  simp only [List.cons_append, of, boolean_append blank, startsWithDigit_append blank, numeral_append blank,
    word_append blank, apply_ite (append more)]
  rfl

end Front

namespace Cursor

variable {c : Cursor}

theorem skipBlanks_append (left : c.unread.dropWhile Text.isBlank ≠ []) :
    (c.append more).skipBlanks = c.skipBlanks.append more := by
  obtain ⟨taken, dropped⟩ := @run_append more _ c.unread fun none => absurd none left
  rw [append, skipBlanks, taken, dropped]
  rfl

/-- More text behind a blank does not change what is read while there is more than blanks before it. -/
theorem next_append (blank : ∀ next ∈ more.head?, Text.isBlank next) (left : c.unread.dropWhile Text.isBlank ≠ []) :
    (c.append more).next = (c.next.1, c.next.2.append more) := by
  have longer : Front.of (c.skipBlanks.append more).unread = (Front.of c.skipBlanks.unread).append more :=
    Front.of_append blank left
  unfold next
  dsimp only
  rw [skipBlanks_append left, longer]
  cases Front.of c.skipBlanks.unread <;> rfl

theorem skipBlanks_of_blank {gap rest : List Char} (blank : ∀ c ∈ gap, Text.isBlank c) (p : Position) :
    (Cursor.mk p (gap ++ rest)).skipBlanks = (Cursor.mk (p.after gap) rest).skipBlanks := by
  simp only [skipBlanks, List.takeWhile_append_of_pos blank, List.dropWhile_append_of_pos blank, Position.after_append]

theorem drain_of_next {d : Cursor} (same : c.next = d.next) : c.drain = d.drain := by
  rw [drain_eq, same, ← drain_eq]

theorem drain_of_blank {gap rest : List Char} (blank : ∀ c ∈ gap, Text.isBlank c) (p : Position) :
    (Cursor.mk p (gap ++ rest)).drain = (Cursor.mk (p.after gap) rest).drain := by
  apply drain_of_next
  rw [← next_skipBlanks, skipBlanks_of_blank blank, next_skipBlanks]

theorem exists_error_of_ends (left : c.unread.dropWhile Text.isBlank ≠ []) (ends : Scanner.isFinal c.next.1) :
    ∃ problem, c.next.1 = .error problem := by
  rcases found : c.next with ⟨answer, rest⟩
  cases answer with
  | error problem => exact ⟨problem, rfl⟩
  | ok placed =>
    rcases next_ok_cases found with ⟨nothing, -, -⟩ | ⟨lexeme, token, behind, front, rfl, -⟩
    · exact absurd nothing left
    · rw [found] at ends
      exact absurd (by simpa [Scanner.isFinal] using ends) (front_iff_longest.mp front).2.spelled.ne_finish

/-- What a text holds comes first, then what follows the blank behind it, if the text is read to its end. -/
theorem drain_append_cases {first gap read : List Char} (second : List Char) (blank : ∀ c ∈ gap, Text.isBlank c) (apart : gap ≠ [])
    (follows : c.Follows first read) :
    (∃ (before : List Token.Placed) (problem : Problem), c.drain.1 = before.map .ok ++ [.error problem] ∧
        (c.append (gap ++ second)).drain.1 = c.drain.1) ∨
      ∃ (before : List Token.Placed) (final : Token.Placed), final.token = .finish ∧
        c.drain.1 = before.map .ok ++ [.ok final] ∧ (c.append (gap ++ second)).drain.1 =
          before.map .ok ++ (Cursor.mk (Position.origin.after (first ++ gap)) second).drain.1 := by
  have blank' : ∀ next ∈ (gap ++ second).head?, Text.isBlank next := by
    intro next member
    rw [List.head?_append_of_ne_nil _ apart] at member
    exact blank next (List.mem_of_mem_head? member)
  -- `read` grows with the stream: the place behind the whole text is known from it where the stream ends.
  induction c using drain_induction generalizing read with
  | ends c ends =>
    rw [drain_of_ends ends]
    by_cases nothing : c.unread.dropWhile Text.isBlank = []
    · have all : ∀ d ∈ c.unread ++ gap, Text.isBlank d :=
        List.forall_mem_append.mpr ⟨List.dropWhile_eq_nil_iff.mp nothing, blank⟩
      refine .inr ⟨[], ⟨.finish, .between c.front c.front⟩, rfl, ?_, ?_⟩
      · rw [next_of_nothing nothing]
        rfl
      · rw [append, ← List.append_assoc, drain_of_blank all, follows.position_eq, ← Position.after_append,
          follows.text_eq, ← List.append_assoc]
        rfl
    · obtain ⟨problem, failed⟩ := exists_error_of_ends nothing ends
      have same := next_append blank' nothing
      refine .inl ⟨[], problem, by rw [failed]; rfl, ?_⟩
      rw [drain_of_ends (by rw [same]; exact ends), same]
  | goes c goes ih =>
    have left : c.unread.dropWhile Text.isBlank ≠ [] := by
      intro nothing
      rw [next_of_nothing nothing] at goes
      cases goes
    have same := next_append blank' left
    obtain ⟨stretch, behind, scans⟩ := exists_scans c
    obtain ⟨placed, taken⟩ : ∃ placed, c.next.1 = .ok placed := by
      cases answer : c.next.1 with
      | error => rw [answer] at goes; cases goes
      | ok placed => exact ⟨placed, rfl⟩
    have append : (c.append (gap ++ second)).drain.1 = .ok placed :: (c.next.2.append (gap ++ second)).drain.1 := by
      rw [drain_of_goes (by rw [same]; exact goes), same, taken]
    rw [drain_of_goes goes, append, taken]
    rcases ih (follows.next scans) with ⟨before, problem, drained, longer⟩ | ⟨before, final, ended, drained, longer⟩
    · exact .inl ⟨placed :: before, problem, by rw [drained]; rfl, by rw [longer]⟩
    · exact .inr ⟨placed :: before, final, ended, by rw [drained]; rfl, by rw [longer]; rfl⟩

end Cursor

end Append

theorem collect_behind (before : List Char) (answers : List Answer) : collect (answers.map (Answer.behind before)) =
    ((collect answers).map (List.map (Token.Placed.behind before))).mapError (Problem.behind before) := by
  induction answers with
  | nil => rfl
  | cons answer answers ih =>
    cases answer with
    | error => rfl
    | ok placed =>
      rw [List.map_cons, Answer.behind, collect, ih, collect]
      cases collect answers <;> rfl

section Start

variable (text : String)

theorem start_behind (before : List Char) (rest : String) :
    (Cursor.start rest).behind before = ⟨Position.origin.after before, rest.toList⟩ :=
  congrArg (Cursor.mk · _) (Position.origin_behind before)

theorem start_append (gap more : String) :
    Cursor.start (text ++ gap ++ more) = (Cursor.start text).append (gap.toList ++ more.toList) := by
  simp only [Cursor.start, Cursor.append, String.toList_append, List.append_assoc]

theorem drain_start_behind (before : List Char) :
    (Cursor.mk (Position.origin.after before) text.toList).drain.1 = (Cursor.start text).drain.1.map (Answer.behind before) := by
  rw [← start_behind]
  exact Cursor.drain_behind before (Nat.le_refl 1)

theorem cuts_of_split {read rest : List Char} (split : text.toList = read ++ rest) :
    Text.cut text.toList 0 (String.utf8Len read) = some read ∧
      Text.cut text.toList (String.utf8Len read) text.utf8ByteSize = some rest := by
  rw [← utf8Len_toList, split]
  have last := Text.cut_append read rest []
  rw [List.append_nil] at last
  exact ⟨Text.cut_append [] read rest, last⟩

theorem tokenize_append_cases {gap : String} (more : String) (some : gap ≠ "") (blank : ∀ c ∈ gap.toList, Text.isBlank c) :
    (∃ problem, tokenize text = .error problem ∧ tokenize (text ++ gap ++ more) = .error problem) ∨
      ∃ before final, tokenize text = .ok (before ++ [final]) ∧ final.token = .finish ∧
        tokenize (text ++ gap ++ more) =
          (((tokenize more).map (List.map (Token.Placed.behind (text ++ gap).toList))).mapError
            (Problem.behind (text ++ gap).toList)).map (before ++ ·) := by
  have apart : gap.toList ≠ [] := by simpa using some
  rcases Cursor.drain_append_cases more.toList blank apart (.start text) with
    ⟨before, problem, drained, longer⟩ | ⟨before, final, ended, drained, longer⟩
  · have failed := tokenize_eq_error_iff.mpr ⟨before, drained⟩
    refine .inl ⟨problem, failed, ?_⟩
    rw [tokenize, start_append, longer, ← tokenize, failed]
  · refine .inr ⟨before, final, ?_, ended, ?_⟩
    · rw [tokenize_eq_ok_iff, drained, List.map_append]
      rfl
    · rw [tokenize, start_append, longer, ← String.toList_append, drain_start_behind, collect_append, collect_behind,
        tokenize]

theorem pull_reached {read : List Char} {calls : List Call} (follows : (reached text calls).cursor.Follows text.toList read) :
    (reached text calls).pull.1 =
      Answer.behind read (Scanner.start (String.ofList (reached text calls).cursor.unread)).pull.1 := by
  have resumed : (reached text calls).cursor = (Cursor.start (String.ofList (reached text calls).cursor.unread)).behind read := by
    rw [start_behind, ← follows.position_eq, String.toList_ofList]
  have moved := Cursor.next_behind read (c := Cursor.start (String.ofList (reached text calls).cursor.unread)) (Nat.le_refl 1)
  rw [← resumed] at moved
  exact congrArg Prod.fst moved

end Start

/-- Scanning is compositional. A text and another one behind it, with blanks between, hold what each of them holds, at the
places that the second has behind the first; a problem of the first hides the second. And whatever a scanner has answered, it
goes on like one that starts with what is left of the text. -/
theorem scanning_composes (text : String) :
    (∀ gap more : String, gap ≠ "" → (∀ c ∈ gap.toList, Text.isBlank c) →
      (∀ problem, tokenize text = .error problem → tokenize (text ++ gap ++ more) = .error problem) ∧
      ∀ tokens, tokenize text = .ok tokens → ∃ before final, tokens = before ++ [final] ∧ final.token = .finish ∧
        tokenize (text ++ gap ++ more) =
          (((tokenize more).map (List.map (Token.Placed.behind (text ++ gap).toList))).mapError
            (Problem.behind (text ++ gap).toList)).map (before ++ ·)) ∧
    ∀ calls, ∃ read rest, Text.cut text.toList 0 (reached text calls).cursor.position.offset = some read ∧
      Text.cut text.toList (reached text calls).cursor.position.offset text.utf8ByteSize = some rest ∧
      (reached text calls).pull.1 = Answer.behind read (Scanner.start (String.ofList rest)).pull.1 := by
  refine ⟨?_, ?_⟩
  · intro gap more some blank
    rcases tokenize_append_cases text more some blank with ⟨problem, failed, longer⟩ | ⟨before, final, read, ended, longer⟩
    · constructor
      · intro other failed'
        cases failed.symm.trans failed'
        exact longer
      · intro tokens read
        cases failed.symm.trans read
    · constructor
      · intro problem failed
        cases failed.symm.trans read
      · intro tokens read'
        cases read.symm.trans read'
        exact ⟨before, final, rfl, ended, longer⟩
  · intro calls
    obtain ⟨read, follows⟩ := reached_follows text calls
    have cuts := cuts_of_split text follows.text_eq
    rw [follows.position_eq, Position.offset_after_origin]
    exact ⟨read, _, cuts.1, cuts.2, pull_reached text follows⟩

end DefunReader

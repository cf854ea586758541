import DefunReader.Proofs.Resumption

/-! What the hints say to change is what helps. A text that is broken off before an unexpected token is read as before up to
there, and can be gone on with whatever meets the expectation. -/
namespace DefunReader

open Grammar (Viable Meets Refuses)

theorem Grammar.viable_of_refuses {limit : Nat} {before item : List Token.Placed} {goal : Goal} {rest : Agenda}
    {placed : Token.Placed} {expected : Expectation} {problem : Problem}
    (refuses : Refuses limit before goal rest placed expected problem) (meets : Meets 0 expected item) :
    Viable limit (before ++ item) :=
  program_of_meets refuses.taken refuses.roomy refuses.among (meets.mono (Nat.zero_le _))

theorem Token.finish_of_kind {token : Token} (last : token.kind = .finish) : token = .finish := by
  cases token <;> first | rfl | cases last

theorem Cursor.drain_nil (p : Position) : (Cursor.mk p []).drain.1 = [.ok ⟨.finish, .between p p⟩] := by
  have found : (Cursor.mk p []).next = (.ok ⟨.finish, .between p p⟩, ⟨p, []⟩) := next_of_nothing rfl
  rw [drain_of_ends (by rw [found]; rfl), found]

/-- A text that is refused, broken off before the token that is unexpected. -/
structure Broken (text : String) (limit : Nat) (span : Span) (expected : Expectation) (found : Token.Kind)
    (before : List Token.Placed) (read rest : List Char) : Prop where
  reaches : (Cursor.start text).Reaches before read rest
  start_eq : span.start = Position.origin.after read
  ended : found = .finish → rest = []
  viable : ∀ item, Meets 0 expected item → Viable limit (before ++ item)

section Hints

variable {text : String} {limit : Nat} {span : Span} {expected : Expectation} {found : Token.Kind} {within : List Node.Kind}
  {before : List Token.Placed} {read rest : List Char}

theorem exists_broken (failed : parse text limit = .error (.unexpectedToken span expected found within)) :
    ∃ before read rest, Broken text limit span expected found before read rest := by
  obtain ⟨before, placed, more, goal, agenda, drained, rfl, rfl, refuses⟩ := refuses_of_unexpected failed
  obtain ⟨read, rest, reaches⟩ := Cursor.exists_reaches drained
  refine ⟨before, read, rest, reaches, (reaches.answers drained).2, ?_, ?_⟩
  · intro last
    exact reaches.rest_eq drained (Token.finish_of_kind last)
  · intro item meets
    exact Grammar.viable_of_refuses refuses meets

theorem Broken.viable_of_kind {kind : Token.Kind} {placed : Token.Placed}
    (broken : Broken text limit span (.token kind) found before read rest) (same : placed.token.kind = kind) :
    Viable limit (before ++ [placed]) :=
  broken.viable _ (same ▸ .token)

theorem Broken.drain (broken : Broken text limit span expected found before read rest) (item : List Token.Placed)
    {edited : String} {other : List Char} {answers : List Answer} (edit : edited.toList = read ++ other) (breaks : Breaks other)
    (drained : (Cursor.mk (Position.origin.after read) other).drain.1 = item.map .ok ++ answers) :
    (Cursor.start edited).drain.1 = (before ++ item).map .ok ++ answers := by
  rw [List.map_append, List.append_assoc, ← drained, Cursor.start, edit]
  exact broken.reaches.resumes other breaks

/-- A problem behind tokens that a program can start with stands where one of the answers behind them does. -/
theorem exists_answer_of_failure {tokens : List Token.Placed} {answers : List Answer} {problem : Problem}
    (viable : Viable limit tokens) (drained : (Cursor.start text).drain.1 = tokens.map .ok ++ answers)
    (failed : parse text limit = .error problem) :
    ∃ (before : List Token.Placed) (answer : Answer) (more : List Answer),
      answers = before.map .ok ++ answer :: more ∧ Answer.span answer = problem.span := by
  rcases failure_behind viable drained failed with ⟨before, more, split⟩ |
    ⟨before, placed, more, expected, split, blames, -⟩ | ⟨before, opening, placed, more, split, rfl, -⟩
  · exact ⟨before, _, more, split, rfl⟩
  · obtain ⟨within, rfl⟩ := blames
    exact ⟨before, _, more, split, rfl⟩
  · rw [List.map_append, List.append_assoc] at split
    exact ⟨before, _, _, split, rfl⟩

theorem early_of_failure {tokens : List Token.Placed} {ending : Span} {problem : Problem} (viable : Viable limit tokens)
    (drained : (Cursor.start text).drain.1 = tokens.map .ok ++ [.ok ⟨.finish, ending⟩])
    (failed : parse text limit = .error problem) :
    ∃ expected within, problem = .unexpectedToken ending expected .finish within := by
  rcases failure_behind viable drained failed with ⟨before, more, split⟩ |
    ⟨before, placed, more, expected, split, blames, -⟩ | ⟨before, opening, placed, more, split, -⟩
  · cases before <;> simp at split
  · cases before with
    | nil =>
      cases split
      obtain ⟨within, rfl⟩ := blames
      exact ⟨expected, within, rfl⟩
    | cons => simp at split
  · cases before <;> simp at split

theorem Broken.cuts (broken : Broken text limit span expected found before read rest) :
    Text.cut text.toList 0 span.start.offset = some read ∧
      Text.cut text.toList span.start.offset text.utf8ByteSize = some rest := by
  rw [broken.start_eq, Position.offset_after_origin]
  exact cuts_of_split text broken.reaches.text_eq

theorem Broken.closed (broken : Broken text limit span (.token .rightParen) .finish before read rest) :
    (∃ tree, parse (text ++ ")") limit = .ok tree) ∨
      ∃ ending expected within, parse (text ++ ")") limit = .error (.unexpectedToken ending expected .finish within) ∧
        ending.start.offset = (text ++ ")").utf8ByteSize := by
  obtain rfl := broken.ended rfl
  have whole : text.toList = read ++ [] := broken.reaches.text_eq
  have edit : (text ++ ")").toList = read ++ [')'] := by
    rw [String.toList_append, whole, List.append_nil]
    rfl
  have longest : Longest [')'] .rightParen [] := ⟨.rightParen, nofun⟩
  have behind := Cursor.drain_of_lead (List.forall_mem_nil _) longest (Position.origin.after read)
  rw [Cursor.drain_nil, Position.after_nil, ← Position.after_append, ← edit] at behind
  have breaks : Breaks [')'] := by
    intro next member
    cases member
    rfl
  have drained := broken.drain [_] edit breaks behind
  cases parsed : parse (text ++ ")") limit with
  | ok tree => exact .inl ⟨tree, rfl⟩
  | error problem =>
    obtain ⟨expected, within, rfl⟩ := early_of_failure (broken.viable_of_kind rfl) drained parsed
    refine .inr ⟨_, expected, within, rfl, ?_⟩
    rw [Span.between, Position.offset_after_origin, utf8Len_toList]

theorem Broken.trimmed (broken : Broken text limit span (.token .finish) found before read rest) :
    ∃ tree, parse (String.ofList read) limit = .ok tree := by
  have edit : (String.ofList read).toList = read ++ [] := by rw [String.toList_ofList, List.append_nil]
  have drained := broken.drain [_] edit nofun (Cursor.drain_nil _)
  cases parsed : parse (String.ofList read) limit with
  | ok tree => exact ⟨tree, rfl⟩
  | error problem =>
    obtain ⟨earlier, answer, more, split, -⟩ := exists_answer_of_failure (broken.viable_of_kind rfl) drained parsed
    cases earlier <;> cases split

theorem Broken.filled (broken : Broken text limit span .expression found before read rest) {left name right : String}
    (named : Lexeme name.toList (.identifier name)) (blank : ∀ c ∈ left.toList, Text.isBlank c) (apart : left ≠ "")
    (blank' : ∀ c ∈ right.toList, Text.isBlank c) (apart' : right ≠ "") {problem : Problem}
    (failed : parse (String.ofList read ++ left ++ name ++ right ++ String.ofList rest) limit = .error problem) :
    span.start.offset + left.utf8ByteSize + name.utf8ByteSize + right.utf8ByteSize ≤ problem.span.start.offset := by
  have edit : (String.ofList read ++ left ++ name ++ right ++ String.ofList rest).toList =
      read ++ (left.toList ++ (name.toList ++ (right.toList ++ rest))) := by
    simp only [String.toList_append, String.toList_ofList, List.append_assoc]
  have breaks : Breaks (left.toList ++ (name.toList ++ (right.toList ++ rest))) :=
    breaks_of_blank _ blank (by simpa using apart)
  have longest : Longest name.toList (.identifier name) (right.toList ++ rest) := by
    refine ⟨named, fun next member => isBlank_not_merges ?_⟩
    rw [List.head?_append_of_ne_nil _ (by simpa using apart')] at member
    exact blank' next (List.mem_of_mem_head? member)
  have behind := Cursor.drain_of_lead blank longest (Position.origin.after read)
  rw [Cursor.drain_of_blank blank'] at behind
  have drained := broken.drain [_] edit breaks behind
  obtain ⟨earlier, answer, more, split, same⟩ :=
    exists_answer_of_failure (broken.viable _ (.expression (.identifier (by simp)))) drained failed
  have later := (Cursor.start_le_of_drain split).1
  simp only [Cursor.front, Position.offset_after, utf8Len_toList, same] at later
  rw [broken.start_eq, Position.offset_after]
  omega

end Hints

/-- The three hints about tokens are good advice. Where it is said that a parenthesis is missing, it can be added, and at most more
is missing at the new end; where trailing input is to be removed, the text without it is a program; and where an expression is
said to be missing, any name in its place leaves only what is wrong from there on. -/
theorem help_is_sound (text : String) (limit : Nat) (span : Span) (within : List Node.Kind) :
    (parse text limit = .error (.unexpectedToken span (.token .rightParen) .finish within) →
      (Problem.unexpectedToken span (.token .rightParen) .finish within).help? =
        some "the input ends before this form is closed; add ')'" ∧
      ((∃ tree, parse (text ++ ")") limit = .ok tree) ∨
        ∃ ending expected around, parse (text ++ ")") limit = .error (.unexpectedToken ending expected .finish around) ∧
          ending.start.offset = (text ++ ")").utf8ByteSize)) ∧
    (∀ found, parse text limit = .error (.unexpectedToken span (.token .finish) found within) →
      (Problem.unexpectedToken span (.token .finish) found within).help? =
        some "a program is a single defun form; remove the trailing input" ∧
      ∃ kept tree, Text.cut text.toList 0 span.start.offset = some kept ∧ parse (String.ofList kept) limit = .ok tree) ∧
    (parse text limit = .error (.unexpectedToken span .expression .rightParen within) →
      (Problem.unexpectedToken span .expression .rightParen within).help? =
        some "this form is missing an expression before ')'" ∧
      ∃ kept rest, Text.cut text.toList 0 span.start.offset = some kept ∧
        Text.cut text.toList span.start.offset text.utf8ByteSize = some rest ∧
        ∀ left name right : String, Lexeme name.toList (.identifier name) →
          left ≠ "" → (∀ c ∈ left.toList, Text.isBlank c) → right ≠ "" → (∀ c ∈ right.toList, Text.isBlank c) →
          ∀ problem, parse (String.ofList kept ++ left ++ name ++ right ++ String.ofList rest) limit = .error problem →
            span.start.offset + left.utf8ByteSize + name.utf8ByteSize + right.utf8ByteSize ≤ problem.span.start.offset) := by
  refine ⟨?_, ?_, ?_⟩
  · intro failed
    obtain ⟨before, read, rest, broken⟩ := exists_broken failed
    exact ⟨rfl, broken.closed⟩
  · intro found failed
    obtain ⟨before, read, rest, broken⟩ := exists_broken failed
    obtain ⟨tree, parsed⟩ := broken.trimmed
    exact ⟨rfl, read, tree, broken.cuts.1, parsed⟩
  · intro failed
    obtain ⟨before, read, rest, broken⟩ := exists_broken failed
    refine ⟨rfl, read, rest, broken.cuts.1, broken.cuts.2, ?_⟩
    intro left name right named apart blank apart' blank' problem failed'
    exact broken.filled named blank apart blank' apart' failed'

/-- Each of the hints is given. -/
example : (parse "(defun f () (g x" 3 = .error (.unexpectedToken ⟨⟨1, 17, 16⟩, 16⟩ (.token .rightParen) .finish
      [.application, .defun 0, .program])) ∧
    (parse "(defun f ()) x" 3 = .error (.unexpectedToken ⟨⟨1, 14, 13⟩, 14⟩ (.token .finish) .identifier [.program])) ∧
    parse "(defun f () ())" 3 = .error (.unexpectedToken ⟨⟨1, 14, 13⟩, 14⟩ .expression .rightParen
      [.application, .defun 0, .program]) := by
  decide +kernel

end DefunReader

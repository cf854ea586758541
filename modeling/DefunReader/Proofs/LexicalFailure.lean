import DefunReader.Proofs.Viability

/-! Where a text has a lexical problem: parsing reports that problem, or one that comes strictly before it. What is nested
too deep comes before it only if the token behind the parenthesis does. -/
namespace DefunReader

open Grammar (Agenda Misplaced Overflows)
open Grammar.Agenda (steps step problem?)

/-- The problem that parsing reports where these tokens stand before a lexical problem. -/
structure Prevails (limit : Nat) (before : List Token.Placed) (lexical problem : Problem) : Prop where
  earlier : problem = lexical ∨ (problem.code = "E_SYNTAX" ∨ problem.code = "E_DEPTH") ∧
    problem.span.start.offset < lexical.span.start.offset
  syntactic : problem.code = "E_SYNTAX" ↔ ∃ first placed second, before = first ++ placed :: second ∧
    Misplaced limit first placed
  misplaced : ∀ first placed second, before = first ++ placed :: second → Misplaced limit first placed →
    ∃ expected within, problem = .unexpectedToken placed.span expected placed.token.kind within
  deep : problem.code = "E_DEPTH" ↔ ∃ first opening next second, before = first ++ opening :: next :: second ∧
    Overflows limit first opening
  overflows : ∀ first opening next second, before = first ++ opening :: next :: second → Overflows limit first opening →
    opening.token = .leftParen ∧ problem = .nestedTooDeep opening.span limit
  /-- The depth is checked with the token behind the parenthesis, which is none here. -/
  unread : ∀ first opening, before = first ++ [opening] → Overflows limit first opening → problem = lexical

section Break

variable {limit : Nat} {goals : Agenda} {before first second : List Token.Placed} {placed opening next : Token.Placed}
  {lexical problem : Problem}

theorem problem?_of_break (found : problem? limit goals (before.map .ok ++ [.error lexical]) = some problem) :
    problem = lexical ∨ ∃ first placed second next, before = first ++ placed :: second ∧
      steps limit goals first = .ok next ∧ step limit next placed = .error problem := by
  induction before generalizing goals with
  | nil =>
    cases found
    exact .inl rfl
  | cons placed before ih =>
    cases taken : step limit goals placed with
    | error other =>
      rw [List.map_cons, List.cons_append, Agenda.problem?_refused taken] at found
      cases found
      exact .inr ⟨[], placed, before, goals, rfl, rfl, taken⟩
    | ok middle =>
      rw [List.map_cons, List.cons_append, Agenda.problem?_cons taken] at found
      rcases ih found with same | ⟨first, other, second, next, rfl, taken', refused⟩
      · exact .inl same
      · exact .inr ⟨placed :: first, other, second, next, rfl, (Agenda.steps_cons taken).trans taken', refused⟩

theorem problem?_of_refused {more : List Answer} {after : Agenda} (taken : steps limit goals first = .ok after)
    (refused : step limit after placed = .error problem) :
    problem? limit goals ((first ++ placed :: second).map .ok ++ more) = some problem := by
  rw [List.map_append, List.append_assoc, Agenda.problem?_append taken]
  exact Agenda.problem?_refused refused

theorem break_cases (found : problem? limit Agenda.start (before.map .ok ++ [.error lexical]) = some problem) :
    problem = lexical ∨ (∃ first placed second, before = first ++ placed :: second ∧ Misplaced limit first placed) ∨
      ∃ first opening next second, before = first ++ opening :: next :: second ∧ Overflows limit first opening := by
  rcases problem?_of_break found with same | ⟨first, placed, second, goals, split, taken, refused⟩
  · exact .inl same
  · rcases Grammar.misplaced_or_overflows taken refused with ⟨expected, -, wrong⟩ | ⟨earlier, opening, rfl, -, wrong⟩
    · exact .inr (.inl ⟨first, placed, second, split, wrong⟩)
    · rw [← List.append_cons] at split
      exact .inr (.inr ⟨earlier, opening, placed, second, split, wrong⟩)

theorem problem_of_misplaced (wrong : Misplaced limit first placed)
    (found : problem? limit Agenda.start ((first ++ placed :: second).map .ok ++ [.error lexical]) = some problem) :
    ∃ expected within, problem = .unexpectedToken placed.span expected placed.token.kind within := by
  obtain ⟨goals, other, expected, taken, refused, within, rfl⟩ := Grammar.refused_of_misplaced wrong
  rw [problem?_of_refused taken refused] at found
  cases found
  exact ⟨expected, within, rfl⟩

theorem problem_of_overflows (wrong : Overflows limit first opening)
    (found : problem? limit Agenda.start ((first ++ opening :: next :: second).map .ok ++ [.error lexical]) = some problem) :
    problem = .nestedTooDeep opening.span limit := by
  obtain ⟨goals, taken, deep⟩ := Grammar.steps_of_overflows wrong
  rw [List.append_cons first, problem?_of_refused taken (deep next)] at found
  cases found
  rfl

/-- What overflows is not reported where no token is read behind it. -/
theorem lexical_of_overflows (wrong : Overflows limit first opening)
    (found : problem? limit Agenda.start ((first ++ [opening]).map .ok ++ [.error lexical]) = some problem) :
    problem = lexical := by
  obtain ⟨goals, taken, -⟩ := Grammar.steps_of_overflows wrong
  rw [Agenda.problem?_append taken] at found
  cases found
  rfl

theorem prevails_of_problem {text : String} (drained : (Cursor.start text).drain.1 = before.map .ok ++ [.error lexical])
    (found : problem? limit Agenda.start (before.map .ok ++ [.error lexical]) = some problem) :
    Prevails limit before lexical problem := by
  have lexically : lexical.code = "E_LEX" ∨ lexical.code = "E_NUMBER" := Cursor.lexical_of_drain drained
  have order := (Cursor.start_le_of_drain drained).2
  refine ⟨?_, ⟨?_, ?_⟩, ?_, ⟨?_, ?_⟩, ?_, ?_⟩
  · rcases break_cases found with same | ⟨first, placed, second, rfl, wrong⟩ | ⟨first, opening, next, second, rfl, wrong⟩
    · exact .inl same
    · obtain ⟨expected, within, rfl⟩ := problem_of_misplaced wrong found
      exact .inr ⟨.inl rfl, order placed (by simp)⟩
    · cases problem_of_overflows wrong found
      exact .inr ⟨.inr rfl, order opening (by simp)⟩
  · intro code
    rcases break_cases found with rfl | misplaced | ⟨first, opening, next, second, rfl, wrong⟩
    · simp [code] at lexically
    · exact misplaced
    · simp [problem_of_overflows wrong found, Problem.code] at code
  · intro misplaced
    obtain ⟨first, placed, second, rfl, wrong⟩ := misplaced
    obtain ⟨expected, within, rfl⟩ := problem_of_misplaced wrong found
    rfl
  · intro first placed second split wrong
    subst split
    exact problem_of_misplaced wrong found
  · intro code
    rcases break_cases found with rfl | ⟨first, placed, second, rfl, wrong⟩ | overflows
    · simp [code] at lexically
    · obtain ⟨expected, within, rfl⟩ := problem_of_misplaced wrong found
      simp [Problem.code] at code
    · exact overflows
  · intro overflows
    obtain ⟨first, opening, next, second, rfl, wrong⟩ := overflows
    rw [problem_of_overflows wrong found]
    rfl
  · intro first opening next second split wrong
    subst split
    exact ⟨wrong.paren, problem_of_overflows wrong found⟩
  · intro first opening split wrong
    subst split
    exact lexical_of_overflows wrong found

end Break

/-- Parsing and scanning agree on lexical problems: what is parsed is scanned; a lexical problem that parsing reports is
the one that scanning reports; and where scanning reports one, parsing reports it or what is wrong before it. -/
theorem parse_lexical (text : String) (limit : Nat) :
    (∀ tree, parse text limit = .ok tree → ∃ tokens, tokenize text = .ok tokens) ∧
    (∀ problem, problem.code = "E_LEX" ∨ problem.code = "E_NUMBER" → parse text limit = .error problem →
      tokenize text = .error problem) ∧
    ∀ lexical, tokenize text = .error lexical → ∃ before problem,
      (Cursor.start text).drain.1 = before.map .ok ++ [.error lexical] ∧ parse text limit = .error problem ∧
        Prevails limit before lexical problem := by
  refine ⟨?_, ?_, ?_⟩
  · intro tree parsed
    obtain ⟨tokens, shape, read, -⟩ := program_of_parse parsed
    exact ⟨tokens, read⟩
  · intro problem code parsed
    rcases failure_cases parsed with ⟨before, drained⟩ | ⟨_, _, _, _, -, ⟨_, rfl⟩, -⟩ | ⟨_, _, _, _, -, rfl, -⟩
    · exact tokenize_eq_error_iff.mpr ⟨before, drained⟩
    · simp [Problem.code] at code
    · simp [Problem.code] at code
  · intro lexical failed
    obtain ⟨before, drained⟩ := tokenize_eq_error_iff.mp failed
    cases parsed : parse text limit with
    | ok tree =>
      obtain ⟨tokens, shape, read, -⟩ := program_of_parse parsed
      cases failed.symm.trans read
    | error problem =>
      have found := problem_of_parse parsed
      rw [drained] at found
      exact ⟨before, problem, drained, rfl, prevails_of_problem drained found⟩

-- The token behind the parenthesis is read before the depth is checked.
example : parse "(defun f () (%" 0 = .error (.strayCharacter ⟨⟨1, 14, 13⟩, 14⟩ '%') := by
  decide +kernel

example : parse "(defun f () (g %" 0 = .error (.nestedTooDeep ⟨⟨1, 13, 12⟩, 13⟩ 0) := by
  decide +kernel

end DefunReader

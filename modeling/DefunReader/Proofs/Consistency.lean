import DefunReader.Command.Outcome
import DefunReader.Proofs.LexicalFailure
import DefunReader.Proofs.Underline

/-! What the tasks come to for one text. Each prints its answer or the report of one problem, never both; the tasks that
parse under one limit stop alike, and none goes further than the tokens do. -/
namespace DefunReader

namespace Task

def limit? : Task → Option Nat
  | parse _ limit | check limit => some limit
  | tokens => none

def Stops (source : String) (problem : Problem) : Task → Prop
  | parse _ limit | check limit => DefunReader.parse source limit = .error problem
  | tokens => tokenize source = .error problem

end Task

/-- The status tells whether the answer of the task is printed or the report of its problem. -/
structure Outcome.Settles (outcome : Outcome) (task : Task) (name source : String) : Prop where
  silent : outcome.status = 0 ↔ outcome.stderr = ""
  answered : outcome.status = 0 ↔ outcome.stdout ≠ ""
  reported : outcome.status ≠ 0 → outcome.status = 1 ∧ outcome.stdout = "" ∧
    ∃ problem, task.Stops source problem ∧ outcome.stderr = (Report.mk name source problem).text
  stopped : ∀ problem, task.Stops source problem → outcome = ⟨"", (Report.mk name source problem).text, 1⟩

section Printing

theorem Text.unlines_ne_empty {lines : List String} (some : lines ≠ []) : unlines lines ≠ "" := by
  obtain ⟨line, others, rfl⟩ := List.exists_cons_of_ne_nil some
  intro none
  have characters := toList_unlines (line :: others)
  simp [none] at characters

theorem Report.text_ne_empty (r : Report) : r.text ≠ "" := by
  apply Text.unlines_ne_empty
  simp [lines_eq]

theorem Tree.outline_ne_empty (t : Tree) : t.outline ≠ "" := by
  apply Text.unlines_ne_empty
  cases t.shape root t.root_lt_size
  simp [Shape.outline]

theorem Tree.print_ne_empty (t : Tree) (format : Format) : t.print format ≠ "" := by
  cases format with
  | tree => exact t.outline_ne_empty
  | sexp | debug => simp [print]

theorem listing_ne_empty {source : String} {tokens : List Token.Placed} (read : tokenize source = .ok tokens) :
    Listing.text tokens ≠ "" := by
  apply Text.unlines_ne_empty
  intro none
  have nothing := List.map_eq_nil_iff.mp none
  have drained := tokenize_eq_ok_iff.mp read
  rw [nothing] at drained
  exact Cursor.drain_ne_nil _ drained

end Printing

namespace Task

variable {task : Task} {name source stdout : String} {problem : Problem} {limit : Nat}

theorem exists_of_map_ok {α : Type} {read : Except Problem α} {print : α → String} (printed : read.map print = .ok stdout) :
    ∃ answer, read = .ok answer ∧ print answer = stdout := by
  cases read with
  | error => cases printed
  | ok answer => exact ⟨answer, rfl, Except.ok.inj printed⟩

theorem map_eq_error_iff {α : Type} {read : Except Problem α} {print : α → String} :
    read.map print = .error problem ↔ read = .error problem := by
  cases read <;> simp [Except.map]

theorem answer_ne_empty (answered : task.answer source = .ok stdout) : stdout ≠ "" := by
  cases task with
  | parse format limit =>
    obtain ⟨tree, -, rfl⟩ := exists_of_map_ok answered
    exact tree.print_ne_empty format
  | tokens =>
    obtain ⟨tokens, read, rfl⟩ := exists_of_map_ok answered
    exact listing_ne_empty read
  | check limit =>
    obtain ⟨_, -, rfl⟩ := exists_of_map_ok answered
    decide

theorem answer_eq_error_iff : task.answer source = .error problem ↔ task.Stops source problem := by
  cases task <;> exact map_eq_error_iff

theorem run_cases (task : Task) (name source : String) :
    (∃ stdout, stdout ≠ "" ∧ task.run name source = ⟨stdout, "", 0⟩) ∨
      ∃ problem, task.Stops source problem ∧ task.run name source = ⟨"", (Report.mk name source problem).text, 1⟩ := by
  cases answered : task.answer source with
  | ok stdout => exact .inl ⟨stdout, answer_ne_empty answered, by rw [run, answered]⟩
  | error problem => exact .inr ⟨problem, answer_eq_error_iff.mp answered, by rw [run, answered]⟩

theorem run_of_stops (name : String) (stops : task.Stops source problem) :
    task.run name source = ⟨"", (Report.mk name source problem).text, 1⟩ := by
  rw [run, answer_eq_error_iff.mpr stops]

theorem status_of_stops (name : String) (stops : task.Stops source problem) : (task.run name source).status = 1 := by
  rw [run_of_stops name stops]

theorem stderr_of_stops (name : String) (stops : task.Stops source problem) :
    (task.run name source).stderr = (Report.mk name source problem).text := by
  rw [run_of_stops name stops]

theorem settles (task : Task) (name source : String) : (task.run name source).Settles task name source := by
  have stopped (problem : Problem) (stops : task.Stops source problem) := run_of_stops name stops
  rcases task.run_cases name source with ⟨stdout, some, ran⟩ | ⟨problem, stops, ran⟩
  · exact ⟨by simp [ran], by simp [ran, some], by simp [ran], stopped⟩
  · have reported := Report.text_ne_empty ⟨name, source, problem⟩
    refine ⟨by simp [ran, reported], by simp [ran], ?_, stopped⟩
    intro _
    exact ⟨by rw [ran], by rw [ran], problem, stops, by rw [ran]⟩

theorem status_eq_zero_iff : (task.run name source).status = 0 ↔ ∀ problem, ¬task.Stops source problem := by
  constructor
  · intro done problem stops
    cases done.symm.trans (status_of_stops name stops)
  · intro never
    rcases task.run_cases name source with ⟨stdout, -, ran⟩ | ⟨problem, stops, -⟩
    · rw [ran]
    · exact absurd stops (never problem)

theorem stops_iff (parses : task.limit? = some limit) :
    task.Stops source problem ↔ DefunReader.parse source limit = .error problem := by
  cases task <;> cases parses <;> rfl

theorem tokens_of_parse (parses : task.limit? = some limit) (done : (task.run name source).status = 0) :
    (tokens.run name source).status = 0 := by
  rw [status_eq_zero_iff] at done ⊢
  intro lexical stops
  cases parsed : DefunReader.parse source limit with
  | error problem => exact done problem ((stops_iff parses).mpr parsed)
  | ok tree =>
    obtain ⟨tokens, shape, read, -⟩ := program_of_parse parsed
    cases Eq.trans read.symm stops

theorem exists_stops {lexical : Problem} (breaks : tokens.Stops source lexical) (parses : task.limit? = some limit) :
    ∃ problem, task.Stops source problem ∧
      (problem = lexical ∨ problem.span.start.offset < lexical.span.start.offset) := by
  obtain ⟨before, drained⟩ := tokenize_eq_error_iff.mp breaks
  cases parsed : DefunReader.parse source limit with
  | ok tree =>
    obtain ⟨tokens, shape, read, -⟩ := program_of_parse parsed
    cases Eq.trans read.symm breaks
  | error problem =>
    have found := problem_of_parse parsed
    rw [drained] at found
    refine ⟨problem, (stops_iff parses).mpr parsed, ?_⟩
    rcases (prevails_of_problem drained found).earlier with same | ⟨-, earlier⟩
    · exact .inl same
    · exact .inr earlier

end Task

end DefunReader

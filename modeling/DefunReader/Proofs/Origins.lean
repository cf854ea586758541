import DefunReader.Command.Outcome
import DefunReader.Proofs.Arguments

/-! Where the text of a command comes from. The outcome of a task for a text is the same whether the text stands in the
arguments, comes from the standard input or is in a file; only reports have the name of the text in their second line.
Where no text can be read, nothing is printed but an error. -/
namespace DefunReader

/-- Lines with the name behind the arrow of the second and nowhere else. -/
def NamesOnce (text : String → String) : Prop :=
  ∃ header gutter place rest, ∀ name, text name = Text.unlines (header :: (gutter ++ " --> " ++ name ++ ":" ++ place) :: rest)

/-- Success reports nothing under any name, and failure reports the name once. -/
def ReportsAs (status : Nat) (report : String → String) : Prop :=
  (status = 0 ∧ ∀ name, report name = "") ∨ (status = 1 ∧ NamesOnce report)

/-- The bytes of no text, or an error in their place. -/
def Unreadable (content : Except SystemError ByteArray) : Prop :=
  ∀ text : String, content ≠ .ok text.toUTF8

def Outcome.Fails (outcome : Outcome) : Prop :=
  outcome.status = 1 ∧ outcome.stdout = ""

theorem decode_toUTF8 (text : String) : decode text.toUTF8 = .ok text := by
  simp only [decode, String.fromUTF8?, String.toUTF8_eq_toByteArray, dif_pos text.isValidUTF8]
  rfl

theorem eq_of_decode {bytes : ByteArray} {text : String} (decoded : decode bytes = .ok text) : bytes = text.toUTF8 := by
  unfold decode String.fromUTF8? at decoded
  split at decoded
  · rename_i found
    split at found
    · cases found
      cases decoded
      rfl
    · cases found
  · cases decoded

section Load

variable {surroundings : Surroundings} {path text : String} {content : Except SystemError ByteArray}

theorem load_content (readable : content = .ok text.toUTF8) : (content.mapError .system).bind decode = .ok text := by
  rw [readable]
  exact decode_toUTF8 text

theorem load_unreadable (unreadable : Unreadable content) :
    ∃ failure, (content.mapError LoadFailure.system).bind decode = .error failure := by
  cases content with
  | error e => exact ⟨.system e, rfl⟩
  | ok bytes =>
    cases decoded : decode bytes with
    | error failure => exact ⟨failure, decoded⟩
    | ok text => exact absurd (congrArg Except.ok (eq_of_decode decoded)) (unreadable text)

end Load

theorem Report.namesOnce (source : String) (problem : Problem) : NamesOnce fun name => (Report.mk name source problem).text := by
  let nameless := Report.mk "" source problem
  refine ⟨"error[" ++ problem.code ++ "]: " ++ problem.message, nameless.gutter, problem.span.text,
    nameless.lines.drop 2, ?_⟩
  intro name
  have lines : (Report.mk name source problem).lines = ("error[" ++ problem.code ++ "]: " ++ problem.message) ::
      (nameless.gutter ++ " --> " ++ name ++ ":" ++ problem.span.text) :: nameless.lines.drop 2 := rfl
  exact congrArg Text.unlines lines

theorem Task.exists_run (task : Task) (source : String) : ∃ stdout report status, ReportsAs status report ∧
    ∀ name, task.run name source = ⟨stdout, report name, status⟩ := by
  cases answered : task.answer source with
  | ok stdout =>
    refine ⟨stdout, fun _ => "", 0, .inl ⟨rfl, fun _ => rfl⟩, ?_⟩
    intro name
    rw [run, answered]
  | error problem =>
    refine ⟨"", _, 1, .inr ⟨rfl, Report.namesOnce source problem⟩, ?_⟩
    intro name
    rw [run, answered]

namespace Command

variable {origin : Origin} {surroundings : Surroundings} {text : String}

theorem outcome_of_load (task : Task) (loaded : origin.load surroundings = .ok text) :
    (Command.mk task origin).outcome surroundings = task.run origin.name text := by
  rw [outcome, loaded]

theorem fails_of_load {failure : LoadFailure} (task : Task) (failed : origin.load surroundings = .error failure) :
    ((Command.mk task origin).outcome surroundings).Fails := by
  simp only [Outcome.Fails, outcome, failed, and_self]

end Command

/-- Where the program accepts a text in its arguments, it accepts the same text from the standard input or from a file in its
place, and comes to the same for it but for the name in the report. Where it can read no text, it fails and its standard output
stays empty. -/
theorem origin_independent {s : Subcommand} {before behind : List String} {task : Task} {given : String}
    (accepted : Command.ofArguments (s.name :: (before ++ ("--source=" ++ given) :: behind)) = .ok ⟨task, .inline given⟩) :
    (∀ text, Command.ofArguments (s.name :: (before ++ ("--source=" ++ text) :: behind)) = .ok ⟨task, .inline text⟩) ∧
    Command.ofArguments (s.name :: (before ++ "-" :: behind)) = .ok ⟨task, .stdin⟩ ∧
    (∀ path : String, path.toList.head? ≠ some '-' →
      Command.ofArguments (s.name :: (before ++ path :: behind)) = .ok ⟨task, .file path⟩) ∧
    (behind = [] → ∀ path ≠ "-", Command.ofArguments (s.name :: (before ++ ["--", path])) = .ok ⟨task, .file path⟩) ∧
    (∀ text : String, ∃ stdout report status, ReportsAs status report ∧ ∀ surroundings : Surroundings,
      (Command.mk task (.inline text)).outcome surroundings = ⟨stdout, report "<source>", status⟩ ∧
      (surroundings.stdin = .ok text.toUTF8 →
        (Command.mk task .stdin).outcome surroundings = ⟨stdout, report "<stdin>", status⟩) ∧
      ∀ path, surroundings.file path = .ok text.toUTF8 →
        (Command.mk task (.file path)).outcome surroundings = ⟨stdout, report path, status⟩) ∧
    ∀ surroundings : Surroundings,
      (Unreadable surroundings.stdin → ((Command.mk task .stdin).outcome surroundings).Fails) ∧
      ∀ path, Unreadable (surroundings.file path) → ((Command.mk task (.file path)).outcome surroundings).Fails := by
  obtain ⟨inline, stdin, file, separated⟩ := Command.ofArguments_around accepted
  refine ⟨inline, stdin, file, separated, ?_, ?_⟩
  · intro text
    obtain ⟨stdout, report, status, reports, run⟩ := task.exists_run text
    refine ⟨stdout, report, status, reports, ?_⟩
    intro surroundings
    refine ⟨(Command.outcome_of_load task rfl).trans (run _), ?_, ?_⟩
    · intro readable
      have loaded : Origin.stdin.load surroundings = .ok text := load_content readable
      exact (Command.outcome_of_load task loaded).trans (run _)
    · intro path readable
      have loaded : (Origin.file path).load surroundings = .ok text := load_content readable
      exact (Command.outcome_of_load task loaded).trans (run path)
  · intro surroundings
    constructor
    · intro unreadable
      obtain ⟨failure, failed⟩ := load_unreadable unreadable
      exact Command.fails_of_load task failed
    · intro path unreadable
      obtain ⟨failure, failed⟩ := load_unreadable unreadable
      exact Command.fails_of_load task failed

theorem origin_independent_options :
    Command.ofArguments ["parse", "-f", "sexp", "--source=" ++ "(f", "--max-depth=7"] = .ok ⟨.parse .sexp 7, .inline "(f"⟩ ∧
    Command.ofArguments ["parse", "-f", "sexp", "-", "--max-depth=7"] = .ok ⟨.parse .sexp 7, .stdin⟩ ∧
    ∀ path : String, path.toList.head? ≠ some '-' →
      Command.ofArguments ["parse", "-f", "sexp", path, "--max-depth=7"] = .ok ⟨.parse .sexp 7, .file path⟩ := by
  have accepted : Command.ofArguments (Subcommand.parse.name ::
      (["-f", "sexp"] ++ ("--source=" ++ "(f") :: ["--max-depth=7"])) = .ok ⟨.parse .sexp 7, .inline "(f"⟩ := rfl
  obtain ⟨-, stdin, file, -⟩ := origin_independent accepted
  exact ⟨accepted, stdin, file⟩

end DefunReader

import DefunReader.Command.Arguments

/-! Argument lists that are accepted, argument by argument. Before the text is given every argument gives an option or its
value, so another argument for the text can stand in the same place, and nothing else that is asked for changes. -/
namespace DefunReader

namespace Argument

theorem of_plain {argument : String} (plain : argument = "-" ∨ argument.toList.head? ≠ some '-') : of argument = .plain := by
  rcases plain with rfl | plain
  · rfl
  · unfold of
    split <;> simp_all

theorem eq_of_separator {argument : String} (separates : of argument = .separator) : argument = "--" := by
  unfold of at separates
  split at separates
  · rename_i characters
    exact String.toList_injective characters
  · cases separates
  · cases separates
  · cases separates

theorem of_source (text : String) : of ("--source=" ++ text) = .long "source" (some text) := by
  simp [of, ofLong]

variable (s : Subcommand)

theorem meaning_plain {argument : String} (plain : argument = "-" ∨ argument.toList.head? ≠ some '-') :
    meaning s argument = .plain := by
  rw [meaning, of_plain plain]

theorem eq_of_meaning_separator {argument : String} (separates : meaning s argument = .separator) : argument = "--" := by
  unfold meaning at separates
  split at separates
  · exact eq_of_separator ‹_›
  all_goals repeat' split at separates
  all_goals cases separates

theorem meaning_source (text : String) : meaning s ("--source=" ++ text) = .named .source (some text) := by
  cases s <;> simp [meaning, of_source, Subcommand.options, OptionName.long]

end Argument

namespace Given

open Argument (meaning)

/-- One argument that gives an option or the value that an option waits for. -/
inductive Step (s : Subcommand) (argument : String) : Pending → List Given → Pending → Prop
  | attached {pending option value} (means : meaning s argument = .named option (some value)) :
      Step s argument pending (settle pending ++ [.named option (some value)]) none
  | named {pending option} (means : meaning s argument = .named option none) :
      Step s argument pending (settle pending) (some (option, none))
  | value {option} (means : meaning s argument = .plain) :
      Step s argument (some (option, none)) [] (some (option, some argument))

inductive Options (s : Subcommand) : List String → Pending → List Given → Pending → Prop
  | nil {pending} : Options s [] pending [] pending
  | cons {argument rest pending givens next later last} (step : Step s argument pending givens next)
      (others : Options s rest next later last) : Options s (argument :: rest) pending (givens ++ later) last

/-- Nothing is refused, no input is given, and no option is left without a value. -/
structure Collected.Settled (c : Collected) : Prop where
  refusal : c.refusal = none
  uninput : ∀ text, .input text ∉ c.givens
  valued : ∀ option, .named option none ∉ c.givens

variable {s : Subcommand} {argument : String} {rest before behind : List String} {pending next last : Pending}
  {givens : List Given} {c : Collected} {seen : Bool}

@[simp] theorem Collected.after_givens : (c.after givens).givens = givens ++ c.givens := rfl

@[simp] theorem Collected.after_nil : c.after [] = c := rfl

@[simp] theorem Collected.after_after {more : List Given} : (c.after more).after givens = c.after (givens ++ more) := by
  simp [Collected.after]

theorem Collected.Settled.of_after (settled : (c.after givens).Settled) : c.Settled where
  refusal := settled.refusal
  uninput text member := settled.uninput text (List.mem_append_right _ member)
  valued option member := settled.valued option (List.mem_append_right _ member)

theorem Step.read (step : Step s argument pending givens next) (rest : List String) (seen : Bool) :
    read s (argument :: rest) seen pending = .after givens (Given.read s rest seen next) := by
  cases step <;> simp [Given.read, *]

theorem Options.read (options : Options s before pending givens last) (more : List String) (seen : Bool) :
    read s (before ++ more) seen pending = .after givens (Given.read s more seen last) := by
  induction options with
  | nil => rfl
  | cons step others ih => rw [List.cons_append, step.read, ih, Collected.after_after]

theorem Collected.not_settled_of_input (text : String) (given : .input text ∈ c.givens) : ¬c.Settled :=
  fun settled => settled.uninput text given

/-- Where the end is settled, an argument gives an option or its value; only a separator at the end does not. -/
theorem exists_step (settled : (read s (argument :: rest) false pending).Settled) :
    (argument = "--" ∧ rest = []) ∨ ∃ givens next, Step s argument pending givens next := by
  cases means : meaning s argument with
  | separator =>
    refine .inl ⟨Argument.eq_of_meaning_separator s means, ?_⟩
    cases rest with
    | nil => rfl
    | cons input rest =>
      simp only [read, means, inputs] at settled
      exact absurd settled (Collected.not_settled_of_input input (by simp))
  | help | unknown | unneededValue =>
    simp only [read, means] at settled
    cases settled.refusal
  | named option value =>
    cases value with
    | some value => exact .inr ⟨_, _, .attached means⟩
    | none => exact .inr ⟨_, _, .named means⟩
  | plain =>
    cases pending with
    | none =>
      simp only [read, means] at settled
      exact absurd settled (Collected.not_settled_of_input argument (by simp))
    | some waiting =>
      obtain ⟨option, value⟩ := waiting
      cases value with
      | none => exact .inr ⟨_, _, .value means⟩
      | some value =>
        simp only [read, means] at settled
        exact absurd settled (Collected.not_settled_of_input argument (by simp))

theorem exists_options_before (settled : (read s (before ++ argument :: behind) false pending).Settled) :
    ∃ givens last, Options s before pending givens last ∧ (read s (argument :: behind) false last).Settled := by
  induction before generalizing pending with
  | nil => exact ⟨[], pending, .nil, settled⟩
  | cons first before ih =>
    rcases exists_step settled with ⟨-, none⟩ | ⟨givens, next, step⟩
    · cases List.append_ne_nil_of_right_ne_nil before (List.cons_ne_nil argument behind) none
    · rw [List.cons_append, step.read] at settled
      obtain ⟨later, last, options, remains⟩ := ih settled.of_after
      exact ⟨_, _, .cons step options, remains⟩

/-- What follows is read alike whether or not the input is given, since it gives none. -/
theorem read_seen (settled : (read s rest false pending).Settled) : read s rest seen pending = read s rest false pending := by
  induction rest generalizing pending with
  | nil => rfl
  | cons argument rest ih =>
    rcases exists_step settled with ⟨rfl, rfl⟩ | ⟨givens, next, step⟩
    · rfl
    · rw [step.read] at settled
      rw [step.read, step.read, ih settled.of_after]

theorem read_source (text : String) (rest : List String) (seen : Bool) (pending : Pending) :
    read s (("--source=" ++ text) :: rest) seen pending =
      .after (settle pending ++ [.named .source (some text)]) (read s rest seen none) :=
  (Step.attached (Argument.meaning_source s text)).read rest seen

theorem read_input {input : String} (plain : input = "-" ∨ input.toList.head? ≠ some '-')
    (valued : ∀ option, pending ≠ some (option, none)) :
    read s (input :: rest) false pending = .after (settle pending ++ [.input input]) (read s rest true none) := by
  have means := Argument.meaning_plain s plain
  cases pending with
  | none => simp only [read, means]
  | some waiting =>
    obtain ⟨option, value⟩ := waiting
    cases value with
    | none => exact absurd rfl (valued option)
    | some value => simp only [read, means]

theorem read_separated (input : String) : read s ["--", input] false pending = ⟨settle pending ++ [.input input], none⟩ := by
  have means : meaning s "--" = .separator := rfl
  simp [read, means, inputs, Collected.after, settle]

/-- Where an option gives the text, another text can stand there, or an input, also behind a separator at the end. -/
theorem exists_around {text : String} (settled : (read s (before ++ ("--source=" ++ text) :: behind) false none).Settled) :
    ∃ first second, (∀ text, .input text ∉ second) ∧
      (∀ text, read s (before ++ ("--source=" ++ text) :: behind) false none =
        ⟨first ++ .named .source (some text) :: second, none⟩) ∧
      (∀ input : String, input = "-" ∨ input.toList.head? ≠ some '-' → read s (before ++ input :: behind) false none =
        ⟨first ++ .input input :: second, none⟩) ∧
      (behind = [] → ∀ input, read s (before ++ ["--", input]) false none = ⟨first ++ .input input :: second, none⟩) := by
  obtain ⟨first, last, options, here⟩ := exists_options_before settled
  rw [read_source] at here
  have remains := here.of_after
  have behind_eq (seen) : read s behind seen none = ⟨(read s behind false none).givens, none⟩ := by
    rw [read_seen remains, ← remains.refusal]
  have valued (option) : last ≠ some (option, none) := by
    rintro rfl
    exact here.valued option (by simp [settle])
  refine ⟨first ++ settle last, (read s behind false none).givens, remains.uninput, ?_, ?_, ?_⟩
  · intro text
    rw [options.read, read_source, behind_eq]
    simp [Collected.after]
  · intro input plain
    rw [options.read, read_input plain valued, behind_eq]
    simp [Collected.after]
  · rintro rfl input
    rw [options.read, read_separated]
    simp [Collected.after, read, settle]

end Given

namespace Input

variable {i : Input}

/-- What the check lets through is the text of an option or an input, never both and never neither. -/
theorem cases_of_check (alone : i.check = .ok ()) : (∃ text, i = ⟨none, some text⟩) ∨ ∃ path, i = ⟨some path, none⟩ := by
  obtain ⟨input, source⟩ := i
  cases input with
  | none =>
    cases source with
    | none => cases alone
    | some text => exact .inl ⟨text, rfl⟩
  | some path =>
    cases source with
    | none => exact .inr ⟨path, rfl⟩
    | some text => cases alone

theorem eq_of_origin_inline {text : String} (alone : i.check = .ok ()) (inline : i.origin = .inline text) :
    i.input = none ∧ i.source = some text := by
  rcases cases_of_check alone with ⟨other, rfl⟩ | ⟨path, rfl⟩
  · cases inline
    exact ⟨rfl, rfl⟩
  · simp only [origin] at inline
    split at inline <;> cases inline

/-- The standard input is not read for want of a text. -/
theorem eq_of_origin_stdin (alone : i.check = .ok ()) (stdin : i.origin = .stdin) : i.input = some "-" ∧ i.source = none := by
  rcases cases_of_check alone with ⟨text, rfl⟩ | ⟨path, rfl⟩
  · cases stdin
  · simp only [origin] at stdin
    split at stdin
    · rename_i minus
      exact ⟨congrArg some minus, rfl⟩
    · cases stdin

end Input

namespace Settings

variable {settings next result : Settings} {given : Given} {givens : List Given}

def retext (settings : Settings) (input source : Option String) : Settings :=
  { settings with input, source }

theorem exists_of_addAll_cons (added : settings.addAll (given :: givens) = .ok result) :
    ∃ next, settings.add given = .ok next ∧ next.addAll givens = .ok result := by
  rw [addAll] at added
  split at added
  · exact ⟨_, ‹_›, added⟩
  · cases added

theorem addAll_cons (step : settings.add given = .ok next) : settings.addAll (given :: givens) = next.addAll givens := by
  rw [addAll, step]

theorem exists_of_addAll_append {more : List Given} (added : settings.addAll (givens ++ more) = .ok result) :
    ∃ middle, settings.addAll givens = .ok middle ∧ middle.addAll more = .ok result := by
  induction givens generalizing settings with
  | nil => exact ⟨settings, rfl, added⟩
  | cons given givens ih =>
    obtain ⟨next, step, behind⟩ := exists_of_addAll_cons added
    rw [addAll_cons step]
    exact ih behind

theorem addAll_append {more : List Given} (first : settings.addAll givens = .ok next) :
    settings.addAll (givens ++ more) = next.addAll more := by
  induction givens generalizing settings with
  | nil =>
    cases first
    rfl
  | cons given givens ih =>
    obtain ⟨middle, step, behind⟩ := exists_of_addAll_cons first
    rw [List.cons_append, addAll_cons step, ih behind]

theorem add_retext (input source : Option String) (some : settings.source.isSome) (other : ∀ text, given ≠ .input text)
    (added : settings.add given = .ok next) : (settings.retext input source).add given = .ok (next.retext input source) ∧
      next.input = settings.input ∧ next.source = settings.source := by
  cases given with
  | input text => exact absurd rfl (other text)
  | named option value =>
    cases value with
    | none => cases added
    | some value =>
      cases option with
      | source => simp [add, some] at added
      | format =>
        simp only [add, retext] at added ⊢
        repeat' split at added
        all_goals cases added
        simp [*]
      | maxDepth =>
        simp only [add, retext] at added ⊢
        repeat' split at added
        all_goals cases added
        simp [*]

theorem addAll_retext (input source : Option String) (some : settings.source.isSome) (uninput : ∀ text, .input text ∉ givens)
    (added : settings.addAll givens = .ok result) :
    (settings.retext input source).addAll givens = .ok (result.retext input source) ∧
      result.input = settings.input ∧ result.source = settings.source := by
  induction givens generalizing settings with
  | nil =>
    cases added
    exact ⟨rfl, rfl, rfl⟩
  | cons given givens ih =>
    obtain ⟨next, step, behind⟩ := exists_of_addAll_cons added
    have other (text) : given ≠ .input text := fun same => uninput text (same ▸ List.mem_cons_self)
    obtain ⟨step', input_eq, source_eq⟩ := add_retext input source some other step
    obtain ⟨rest, input_eq', source_eq'⟩ := ih (source_eq ▸ some) (fun text member => uninput text (.tail _ member)) behind
    rw [addAll_cons step']
    exact ⟨rest, input_eq'.trans input_eq, source_eq'.trans source_eq⟩

theorem input_isSome_of_add (some : settings.input.isSome) (added : settings.add given = .ok next) : next.input.isSome := by
  cases given with
  | input text =>
    cases added
    rfl
  | named option value =>
    cases value with
    | none => cases added
    | some value =>
      cases option <;> simp only [add] at added
      all_goals repeat' split at added
      all_goals cases added
      all_goals exact some

theorem input_isSome_of_addAll (some : settings.input.isSome) (added : settings.addAll givens = .ok result) :
    result.input.isSome := by
  induction givens generalizing settings with
  | nil =>
    cases added
    exact some
  | cons given givens ih =>
    obtain ⟨next, step, behind⟩ := exists_of_addAll_cons added
    exact ih (input_isSome_of_add some step) behind

theorem not_mem_of_input_eq_none (added : settings.addAll givens = .ok result) (uninput : result.input = .none) (text : String) :
    .input text ∉ givens := by
  intro member
  obtain ⟨before, behind, rfl⟩ := List.append_of_mem member
  obtain ⟨middle, -, added⟩ := exists_of_addAll_append added
  obtain ⟨next, step, added⟩ := exists_of_addAll_cons added
  cases step
  have given := input_isSome_of_addAll rfl added
  simp [uninput] at given

theorem valued_of_addAll (added : settings.addAll givens = .ok result) (option : OptionName) : .named option .none ∉ givens := by
  intro member
  obtain ⟨before, behind, rfl⟩ := List.append_of_mem member
  obtain ⟨middle, -, added⟩ := exists_of_addAll_append added
  obtain ⟨next, step, -⟩ := exists_of_addAll_cons added
  cases step

theorem addAll_around {first second : List Given} {text : String} (uninput : ∀ text, .input text ∉ second)
    (added : none.addAll (first ++ .named .source (some text) :: second) = .ok settings)
    (alone : settings.check = .ok ()) (inline : settings.origin = .inline text) :
    (∀ text, none.addAll (first ++ .named .source (some text) :: second) = .ok (settings.retext .none (some text))) ∧
    ∀ input, none.addAll (first ++ .input input :: second) = .ok (settings.retext (some input) .none) := by
  obtain ⟨middle, before, behind⟩ := exists_of_addAll_append added
  obtain ⟨next, step, behind⟩ := exists_of_addAll_cons behind
  have sourceless : middle.source = .none := by
    cases source : middle.source with
    | none => rfl
    | some other => simp [add, source] at step
  have next_eq : next = { middle with source := some text } := by
    simpa [add, sourceless] using step.symm
  have given : next.source.isSome := by
    rw [next_eq]
    rfl
  have inputless : middle.input = .none := by
    have kept := (addAll_retext .none .none given uninput behind).2.1
    rw [next_eq] at kept
    exact kept.symm.trans (Input.eq_of_origin_inline alone inline).1
  constructor
  · intro text
    have step' : middle.add (.named .source (some text)) = .ok (next.retext .none (some text)) := by
      simp [add, sourceless, next_eq, retext, inputless]
    rw [addAll_append before, addAll_cons step']
    exact (addAll_retext _ _ given uninput behind).1
  · intro input
    have step' : middle.add (.input input) = .ok (next.retext (some input) .none) := by
      simp [add, sourceless, next_eq, retext]
    rw [addAll_append before, addAll_cons step']
    exact (addAll_retext _ _ given uninput behind).1

end Settings

namespace Command

variable {s : Subcommand} {c : Given.Collected} {task : Task}

theorem ofArguments_name (s : Subcommand) (rest : List String) :
    ofArguments (s.name :: rest) = ofGiven s (Given.read s rest false none) := by
  cases s <;> rfl

theorem ofGiven_eq_ok {settings : Settings} {givens : List Given} (added : Settings.none.addAll givens = .ok settings)
    (alone : settings.check = .ok ()) : ofGiven s ⟨givens, none⟩ = .ok ⟨settings.task s, settings.origin⟩ := by
  simp only [ofGiven, added, alone, Except.map]

theorem exists_of_ofGiven {origin : Origin} (accepted : ofGiven s c = .ok ⟨task, origin⟩) :
    c.refusal = none ∧ ∃ settings, Settings.none.addAll c.givens = .ok settings ∧ settings.check = .ok () ∧
      settings.origin = origin ∧ settings.task s = task := by
  unfold ofGiven at accepted
  split at accepted
  · cases accepted
  · cases accepted
  · rename_i settings added refusal
    cases alone : settings.check with
    | error refusal =>
      rw [alone] at accepted
      cases accepted
    | ok =>
      rw [alone] at accepted
      cases accepted
      exact ⟨refusal, settings, added, alone, rfl, rfl⟩

/-- Where an option gives the text, the same task can be asked for with another text, with the standard input, or with a
file, whose name must stand behind a separator if it begins like an option. -/
theorem ofArguments_around {before behind : List String} {text : String}
    (accepted : ofArguments (s.name :: (before ++ ("--source=" ++ text) :: behind)) = .ok ⟨task, .inline text⟩) :
    (∀ text, ofArguments (s.name :: (before ++ ("--source=" ++ text) :: behind)) = .ok ⟨task, .inline text⟩) ∧
    ofArguments (s.name :: (before ++ "-" :: behind)) = .ok ⟨task, .stdin⟩ ∧
    (∀ path : String, path.toList.head? ≠ some '-' →
      ofArguments (s.name :: (before ++ path :: behind)) = .ok ⟨task, .file path⟩) ∧
    (behind = [] → ∀ path ≠ "-", ofArguments (s.name :: (before ++ ["--", path])) = .ok ⟨task, .file path⟩) := by
  rw [ofArguments_name] at accepted
  obtain ⟨refusal, settings, added, alone, inline, rfl⟩ := exists_of_ofGiven accepted
  have settled : (Given.read s (before ++ ("--source=" ++ text) :: behind) false none).Settled :=
    ⟨refusal, Settings.not_mem_of_input_eq_none added (Input.eq_of_origin_inline alone inline).1,
      Settings.valued_of_addAll added⟩
  obtain ⟨first, second, uninput, named, given, separated⟩ := Given.exists_around settled
  rw [named] at added
  obtain ⟨texts, inputs⟩ := Settings.addAll_around uninput added alone inline
  have file {path : String} (proper : path ≠ "-") :
      (settings.retext (some path) none).origin = .file path := by
    simp [Input.origin, Settings.retext, proper]
  refine ⟨?_, ?_, ?_, ?_⟩
  · intro text
    rw [ofArguments_name, named, ofGiven_eq_ok (texts text) rfl]
    rfl
  · rw [ofArguments_name, given "-" (.inl rfl), ofGiven_eq_ok (inputs "-") rfl]
    rfl
  · intro path plain
    have proper : path ≠ "-" := by
      rintro rfl
      exact plain rfl
    rw [ofArguments_name, given path (.inr plain), ofGiven_eq_ok (inputs path) rfl, file proper]
    rfl
  · intro last path proper
    rw [ofArguments_name, separated last, ofGiven_eq_ok (inputs path) rfl, file proper]
    rfl

end Command

end DefunReader

import DefunReader.Proofs.Arguments

/-! Argument lists as they are spelled. An option has its value attached or in the next argument, every other argument is an
input, and behind a separator all are. A list is accepted if its options can be set and exactly one text is given, and that
text is the one that the command reads. -/
namespace DefunReader

/-- An argument that looks like no option: a lone minus, or one that does not begin with a minus. -/
def Argument.Free (argument : String) : Prop :=
  argument = "-" ∨ argument.toList.head? ≠ some '-'

def Origin.ofInput (text : String) : Origin :=
  if text = "-" then .stdin else .file text

namespace OptionName

inductive Alone (option : OptionName) : String → Prop
  | long : Alone option ("--" ++ option.long)
  | short {flag} (known : option.short? = some flag) : Alone option (String.ofList ['-', flag])

inductive Attached (option : OptionName) (value : String) : String → Prop
  | long : Attached option value ("--" ++ option.long ++ "=" ++ value)
  | equals {flag} (known : option.short? = some flag) :
      Attached option value (String.ofList ('-' :: flag :: '=' :: value.toList))
  | short {flag} (known : option.short? = some flag) (proper : value ≠ "") (plain : value.toList.head? ≠ some '=') :
      Attached option value (String.ofList ('-' :: flag :: value.toList))

end OptionName

namespace Argument

variable {s : Subcommand} {argument name value : String} {rest : List Char} {flag : Char} {option : OptionName}

theorem free_of_plain (plain : of argument = .plain) : Free argument := by
  unfold of at plain
  split at plain
  · cases plain
  · cases plain
  · cases plain
  · rename_i other single
    by_cases minus : argument.toList.head? = some '-'
    · obtain ⟨more, characters⟩ := List.head?_eq_some_iff.mp minus
      cases more with
      | nil => exact .inl (String.toList_injective characters)
      | cons c more => exact absurd characters (single c more)
    · exact .inr minus

theorem eq_of_short (short : of argument = .short flag rest) : argument = String.ofList ('-' :: flag :: rest) := by
  unfold of at short
  split at short
  · cases short
  · cases short
  · rename_i characters
    cases short
    rw [← characters, String.ofList_toList]
  · cases short

theorem eq_of_long {value : Option String} (long : of argument = .long name value) :
    argument = "--" ++ name ++ value.elim "" ("=" ++ ·) := by
  unfold of at long
  split at long
  · cases long
  · rename_i body _ characters
    apply String.toList_injective
    rw [characters]
    have parts := List.takeWhile_append_dropWhile (p := (· != '=')) (l := body)
    have first := List.head?_dropWhile_not (· != '=') body
    simp only [ofLong] at long
    cases behind : body.dropWhile (· != '=') with
    | nil =>
      rw [behind] at long parts
      cases long
      simpa using parts.symm
    | cons c rest =>
      rw [behind] at long parts first
      cases long
      have equals : c = '=' := by simpa using first
      rw [equals] at parts
      simpa using parts.symm
  · cases long
  · cases long

theorem find_long_iff : (s.options.find? fun option => option.long == name) = some option ↔
    option ∈ s.options ∧ option.long = name := by
  constructor
  · intro found
    have same := List.find?_some found
    exact ⟨List.mem_of_find?_eq_some found, beq_iff_eq.mp same⟩
  · rintro ⟨member, rfl⟩
    cases s <;> cases option <;> first | rfl | simp [Subcommand.options] at member

theorem find_short_iff : (s.options.find? fun option => option.short? == some flag) = some option ↔
    option ∈ s.options ∧ option.short? = some flag := by
  constructor
  · intro found
    have same := List.find?_some found
    exact ⟨List.mem_of_find?_eq_some found, beq_iff_eq.mp same⟩
  · rintro ⟨member, known⟩
    cases option with
    | source | format =>
      cases known
      cases s <;> first | rfl | simp [Subcommand.options] at member
    | maxDepth => cases known

theorem attached_none_iff : attached rest = none ↔ rest = [] := by
  unfold attached
  split <;> simp_all

theorem attached_equals (value : String) : attached ('=' :: value.toList) = some value := by
  rw [attached, String.ofList_toList]

theorem attached_plain (proper : value ≠ "") (plain : value.toList.head? ≠ some '=') : attached value.toList = some value := by
  unfold attached
  split
  · rename_i characters
    exact absurd (String.toList_injective characters) proper
  · rename_i characters
    simp [characters] at plain
  · rw [String.ofList_toList]

theorem spelled_of_attached (known : option.short? = some flag) (found : attached rest = some value) :
    option.Attached value (String.ofList ('-' :: flag :: rest)) := by
  unfold attached at found
  split at found
  · cases found
  · rename_i characters
    cases found
    have spelled : option.Attached (String.ofList characters) _ := .equals known
    rwa [String.toList_ofList] at spelled
  · rename_i proper plain
    cases found
    have spelled : option.Attached (String.ofList rest) _ := .short known (by simpa using proper) (by
      intro first
      obtain ⟨more, characters⟩ := List.head?_eq_some_iff.mp first
      rw [String.toList_ofList] at characters
      exact plain more characters)
    rwa [String.toList_ofList] at spelled

theorem free_of_meaning (means : meaning s argument = .plain) : Free argument := by
  unfold meaning at means
  split at means
  · cases means
  · exact free_of_plain ‹_›
  all_goals repeat' split at means
  all_goals cases means

theorem alone_of_meaning (named : meaning s argument = .named option none) : option ∈ s.options ∧ option.Alone argument := by
  unfold meaning at named
  split at named
  · cases named
  · cases named
  · rename_i long
    split at named
    · rename_i found
      cases named
      obtain ⟨taken, rfl⟩ := find_long_iff.mp found
      have spelled := eq_of_long long
      rw [Option.elim_none, String.append_empty] at spelled
      exact ⟨taken, spelled ▸ .long⟩
    · repeat' split at named
      all_goals cases named
  · rename_i rest short
    split at named
    · rename_i found
      obtain ⟨rfl, nothing⟩ := Meaning.named.inj named
      obtain ⟨taken, known⟩ := find_short_iff.mp found
      have spelled := eq_of_short short
      rw [attached_none_iff.mp nothing] at spelled
      exact ⟨taken, spelled ▸ .short known⟩
    · split at named <;> cases named

theorem attached_of_meaning (named : meaning s argument = .named option (some value)) :
    option ∈ s.options ∧ option.Attached value argument := by
  unfold meaning at named
  split at named
  · cases named
  · cases named
  · rename_i long
    split at named
    · rename_i found
      cases named
      obtain ⟨taken, rfl⟩ := find_long_iff.mp found
      have spelled := eq_of_long long
      rw [Option.elim_some, ← String.append_assoc] at spelled
      exact ⟨taken, spelled ▸ .long⟩
    · repeat' split at named
      all_goals cases named
  · rename_i rest short
    split at named
    · rename_i found
      obtain ⟨rfl, some⟩ := Meaning.named.inj named
      obtain ⟨taken, known⟩ := find_short_iff.mp found
      exact ⟨taken, eq_of_short short ▸ spelled_of_attached known some⟩
    · split at named <;> cases named

theorem of_long (option : OptionName) : of ("--" ++ option.long) = .long option.long none := by
  cases option <;> rfl

theorem of_long_value (option : OptionName) (value : String) :
    of ("--" ++ option.long ++ "=" ++ value) = .long option.long (some value) := by
  cases option <;> simp [of, ofLong, OptionName.long]

theorem of_short (known : option.short? = some flag) (rest : List Char) :
    of (String.ofList ('-' :: flag :: rest)) = .short flag rest := by
  cases option <;> cases known <;> simp [of]

theorem meaning_long {value : Option String} (taken : option ∈ s.options) (long : of argument = .long option.long value) :
    meaning s argument = .named option value := by
  simp only [meaning, long, find_long_iff.mpr ⟨taken, rfl⟩]

theorem meaning_short (taken : option ∈ s.options) (known : option.short? = some flag) (rest : List Char) :
    meaning s (String.ofList ('-' :: flag :: rest)) = .named option (attached rest) := by
  simp only [meaning, of_short known, find_short_iff.mpr ⟨taken, known⟩]

theorem meaning_alone (taken : option ∈ s.options) (named : option.Alone argument) :
    meaning s argument = .named option none := by
  cases named with
  | long => exact meaning_long taken (of_long option)
  | short known => exact meaning_short taken known []

theorem meaning_attached (taken : option ∈ s.options) (named : option.Attached value argument) :
    meaning s argument = .named option (some value) := by
  cases named with
  | long => exact meaning_long taken (of_long_value option value)
  | equals known => rw [meaning_short taken known, attached_equals]
  | short known proper plain => rw [meaning_short taken known, attached_plain proper plain]

end Argument

namespace Given

open Argument (meaning Free)

/-- What an argument list spells, argument by argument. -/
inductive Spells (s : Subcommand) : List String → List Given → Prop
  | nil : Spells s [] []
  | attached {option value argument rest givens} (taken : option ∈ s.options) (named : option.Attached value argument)
      (others : Spells s rest givens) : Spells s (argument :: rest) (.named option (some value) :: givens)
  | apart {option value argument rest givens} (taken : option ∈ s.options) (named : option.Alone argument) (free : Free value)
      (others : Spells s rest givens) : Spells s (argument :: value :: rest) (.named option (some value) :: givens)
  | input {text rest givens} (free : Free text) (others : Spells s rest givens) : Spells s (text :: rest) (.input text :: givens)
  | separated (texts : List String) : Spells s ("--" :: texts) (texts.map .input)

def input? : Given → Option String
  | input text => some text
  | named _ _ => none

def Pending.Valued (pending : Pending) : Prop :=
  ∀ option, pending ≠ some (option, none)

/-- The inputs, with the one that is given already if there is one. -/
def count (givens : List Given) (seen : Bool) : Nat :=
  (givens.filterMap input?).length + seen.toNat

variable {s : Subcommand} {argument value : String} {arguments rest texts : List String} {pending : Pending}
  {givens : List Given} {option : OptionName} {seen : Bool}

theorem valued_none : Pending.Valued none := by simp [Pending.Valued]

theorem valued_some : Pending.Valued (some (option, some value)) := by simp [Pending.Valued]

@[simp] theorem count_named {value : Option String} : count (.named option value :: givens) seen = count givens seen := rfl

theorem count_input {text : String} : count (.input text :: givens) seen = count givens seen + 1 := by
  simp only [count, List.filterMap_cons, input?, List.length_cons]
  omega

theorem count_true : count givens true = count givens false + 1 := rfl

theorem count_inputs (texts : List String) : count (texts.map .input) seen = texts.length + seen.toNat := by
  induction texts with
  | nil => rfl
  | cons text texts ih =>
    rw [List.map_cons, count_input, ih, List.length_cons]
    omega

theorem inputs_eq (once : texts.length + seen.toNat ≤ 1) :
    inputs texts seen pending = ⟨settle pending ++ texts.map .input, none⟩ := by
  match texts, seen with
  | [], _ => simp [inputs]
  | [text], false => simp [inputs, Collected.after, settle]
  | [_], true => simp at once
  | _ :: _ :: _, _ =>
    simp only [List.length_cons] at once
    omega

theorem read_apart (taken : option ∈ s.options) (named : option.Alone argument) (free : Free value) (rest : List String) :
    read s (argument :: value :: rest) seen pending =
      .after (settle pending) (read s rest seen (some (option, some value))) := by
  rw [(Step.named (Argument.meaning_alone taken named)).read, (Step.value (Argument.meaning_plain s free)).read]
  rfl

theorem Spells.read (spells : Spells s arguments givens) (valued : pending.Valued) (once : count givens seen ≤ 1) :
    Given.read s arguments seen pending = ⟨settle pending ++ givens, none⟩ := by
  induction spells generalizing pending seen with
  | nil => simp [Given.read]
  | attached taken named others ih =>
    rw [(Step.attached (Argument.meaning_attached taken named)).read, ih valued_none once]
    simp [Collected.after, settle]
  | apart taken named free others ih =>
    rw [read_apart taken named free, ih valued_some once]
    simp [Collected.after, settle]
  | input free others ih =>
    rw [count_input] at once
    cases seen with
    | true =>
      rw [count_true] at once
      omega
    | false =>
      rw [← count_true] at once
      rw [read_input free valued, ih valued_none once]
      simp [Collected.after, settle]
  | separated texts =>
    have means : meaning s "--" = .separator := rfl
    simp only [Given.read, means]
    exact inputs_eq (count_inputs texts ▸ once)

/-- What is given behind a pending option: the next argument is the value that it waits for, if it does. -/
def Continues (s : Subcommand) (arguments : List String) (seen : Bool) : Pending → List Given → Prop
  | some (option, none), givens => ∃ value rest later, arguments = value :: rest ∧ Free value ∧
      givens = .named option (some value) :: later ∧ Spells s rest later ∧ count later seen ≤ 1
  | pending, givens => ∃ later, givens = settle pending ++ later ∧ Spells s arguments later ∧ count later seen ≤ 1

theorem continues_iff (valued : pending.Valued) : Continues s arguments seen pending givens ↔
    ∃ later, givens = settle pending ++ later ∧ Spells s arguments later ∧ count later seen ≤ 1 := by
  match pending with
  | none => rfl
  | some (option, some value) => rfl
  | some (option, none) => exact absurd rfl (valued option)

theorem Continues.attached (taken : option ∈ s.options) (named : option.Attached value argument) (valued : pending.Valued)
    (behind : Continues s rest seen none givens) :
    Continues s (argument :: rest) seen pending (settle pending ++ [.named option (some value)] ++ givens) := by
  obtain ⟨later, rfl, spells, once⟩ := (continues_iff valued_none).mp behind
  exact (continues_iff valued).mpr ⟨_, List.append_assoc .., .attached taken named spells, once⟩

theorem Continues.apart (taken : option ∈ s.options) (named : option.Alone argument) (valued : pending.Valued)
    (behind : Continues s rest seen (some (option, none)) givens) :
    Continues s (argument :: rest) seen pending (settle pending ++ givens) := by
  obtain ⟨value, more, later, rfl, free, rfl, spells, once⟩ := behind
  exact (continues_iff valued).mpr ⟨_, rfl, .apart taken named free spells, once⟩

theorem Continues.waited (free : Free value) (behind : Continues s rest seen (some (option, some value)) givens) :
    Continues s (value :: rest) seen (some (option, none)) givens := by
  obtain ⟨later, rfl, spells, once⟩ := (continues_iff valued_some).mp behind
  exact ⟨value, rest, later, rfl, free, rfl, spells, once⟩

theorem Continues.input (free : Free argument) (valued : pending.Valued) (behind : Continues s rest true none givens) :
    Continues s (argument :: rest) false pending (settle pending ++ [.input argument] ++ givens) := by
  obtain ⟨later, rfl, spells, once⟩ := (continues_iff valued_none).mp behind
  refine (continues_iff valued).mpr ⟨.input argument :: givens, List.append_assoc .., .input free spells, ?_⟩
  rwa [count_input, ← count_true]

structure Collected.Complete (c : Collected) : Prop where
  refusal : c.refusal = none
  valued : ∀ option, .named option none ∉ c.givens

theorem Collected.Complete.of_after {c : Collected} (complete : (c.after givens).Complete) : c.Complete where
  refusal := complete.refusal
  valued option member := complete.valued option (List.mem_append_right _ member)

theorem valued_of_complete {c : Collected} {more : List Given} (complete : c.Complete)
    (given : c.givens = settle pending ++ more) : pending.Valued := by
  rintro option rfl
  apply complete.valued option
  rw [given]
  exact List.mem_cons_self

theorem spells_of_inputs (complete : (inputs texts seen pending).Complete) :
    pending.Valued ∧ texts.length + seen.toNat ≤ 1 := by
  match texts, seen with
  | [], seen => exact ⟨valued_of_complete complete (List.append_nil _).symm, by cases seen <;> decide⟩
  | [text], false => exact ⟨valued_of_complete complete (List.append_assoc ..), Nat.le_refl 1⟩
  | _ :: _, true => cases complete.refusal
  | _ :: _ :: _, false => cases complete.refusal

theorem read_input_again (means : meaning s argument = .plain) (valued : pending.Valued) :
    read s (argument :: rest) true pending = ⟨[], some (.unknownArgument argument)⟩ := by
  match pending with
  | none => simp only [read, means]
  | some (option, some value) => simp only [read, means]
  | some (option, none) => exact absurd rfl (valued option)

theorem continues_of_read (complete : (read s arguments seen pending).Complete) :
    Continues s arguments seen pending (read s arguments seen pending).givens := by
  -- A list that is read whole is so from every argument on, with whatever option waits there.
  induction arguments generalizing seen pending with
  | nil =>
    have valued : pending.Valued := valued_of_complete complete (List.append_nil _).symm
    refine (continues_iff valued).mpr ⟨[], (List.append_nil _).symm, .nil, ?_⟩
    cases seen <;> decide
  | cons argument rest ih =>
    cases means : meaning s argument with
    | separator =>
      simp only [read, means] at complete ⊢
      obtain ⟨valued, once⟩ := spells_of_inputs complete
      obtain rfl := Argument.eq_of_meaning_separator s means
      rw [inputs_eq once]
      exact (continues_iff valued).mpr ⟨_, rfl, .separated rest, count_inputs rest ▸ once⟩
    | help | unknown | unneededValue =>
      simp only [read, means] at complete
      cases complete.refusal
    | named option value =>
      cases value with
      | some value =>
        obtain ⟨taken, named⟩ := Argument.attached_of_meaning means
        rw [(Step.attached means).read] at complete ⊢
        have valued : pending.Valued := valued_of_complete complete (List.append_assoc ..)
        exact .attached taken named valued (ih complete.of_after)
      | none =>
        obtain ⟨taken, named⟩ := Argument.alone_of_meaning means
        rw [(Step.named means).read] at complete ⊢
        have valued : pending.Valued := valued_of_complete complete rfl
        exact .apart taken named valued (ih complete.of_after)
    | plain =>
      have free := Argument.free_of_meaning means
      by_cases waits : ∃ option, pending = some (option, none)
      · obtain ⟨option, rfl⟩ := waits
        rw [(Step.value means).read] at complete ⊢
        exact .waited free (ih complete.of_after)
      · have valued : pending.Valued := fun option same => waits ⟨option, same⟩
        cases seen with
        | true =>
          rw [read_input_again means valued] at complete
          cases complete.refusal
        | false =>
          rw [read_input free valued] at complete ⊢
          exact .input free valued (ih complete.of_after)

theorem spells_of_read {c : Collected} (found : read s arguments false none = c) (complete : c.Complete) :
    Spells s arguments c.givens ∧ count c.givens false ≤ 1 := by
  subst found
  obtain ⟨givens, same, spells, once⟩ := (continues_iff valued_none).mp (continues_of_read complete)
  rw [same]
  exact ⟨spells, once⟩

def source? : Given → Option String
  | named .source value => value
  | _ => none

def origin? (given : Given) : Option Origin :=
  (given.source?.map .inline).or (given.input?.map .ofInput)

theorem origin?_eq_inline_iff {given : Given} {text : String} :
    given.origin? = some (.inline text) ↔ given = .named .source (some text) := by
  cases given with
  | input text =>
    by_cases minus : text = "-" <;> simp [origin?, source?, input?, Origin.ofInput, minus]
  | named option value =>
    cases option <;> simp [origin?, source?, input?]

theorem origin?_eq_stdin_iff {given : Given} : given.origin? = some .stdin ↔ given = .input "-" := by
  cases given with
  | input text =>
    by_cases minus : text = "-" <;> simp [origin?, source?, input?, Origin.ofInput, minus]
  | named option value =>
    cases option <;> simp [origin?, source?, input?]

theorem origin?_eq_file_iff {given : Given} {path : String} :
    given.origin? = some (.file path) ↔ given = .input path ∧ path ≠ "-" := by
  cases given with
  | input text =>
    by_cases minus : text = "-" <;> simp [origin?, source?, input?, Origin.ofInput, minus]
    · rintro rfl
      rfl
    · rintro rfl
      exact minus
  | named option value =>
    cases option <;> simp [origin?, source?, input?]

theorem origins_perm (givens : List Given) : (givens.filterMap origin?).Perm
    ((givens.filterMap source?).map .inline ++ (givens.filterMap input?).map .ofInput) := by
  induction givens with
  | nil => rfl
  | cons given givens ih =>
    cases given with
    | input text => exact (ih.cons _).trans List.perm_middle.symm
    | named option value =>
      cases option with
      | source =>
        cases value with
        | none => exact ih
        | some text => exact ih.cons _
      | format | maxDepth => exact ih

end Given

namespace Input

variable {i : Input}

theorem check_eq_ok_iff : i.check = .ok () ↔ i.input.isSome ≠ i.source.isSome := by
  obtain ⟨input, source⟩ := i
  cases input <;> cases source <;> simp [check]

theorem designates_iff {origin : Origin} : i.check = .ok () ∧ i.origin = origin ↔
    i.source.toList.map .inline ++ i.input.toList.map .ofInput = [origin] := by
  obtain ⟨input, source⟩ := i
  cases input <;> cases source <;> simp [check, Input.origin, Origin.ofInput]

end Input

namespace Settings

variable {settings next result : Settings} {given : Given} {givens : List Given}

theorem texts_of_add (added : settings.add given = .ok next) :
    next.source.toList = settings.source.toList ++ given.source?.toList ∧
      next.input = given.input?.or settings.input := by
  cases given with
  | input text =>
    cases added
    simp [Given.source?, Given.input?]
  | named option value =>
    cases value with
    | none => cases added
    | some value =>
      cases option <;> simp only [add] at added
      all_goals repeat' split at added
      all_goals cases added
      all_goals simp_all [Given.source?, Given.input?]

/-- An option cannot be given twice; of several inputs the last would stay. -/
theorem texts_of_addAll (added : settings.addAll givens = .ok result) :
    result.source.toList = settings.source.toList ++ givens.filterMap Given.source? ∧
      result.input = (givens.filterMap Given.input?).getLast?.or settings.input := by
  induction givens generalizing settings with
  | nil =>
    cases added
    simp
  | cons given givens ih =>
    obtain ⟨next, step, behind⟩ := exists_of_addAll_cons added
    obtain ⟨source, input⟩ := texts_of_add step
    obtain ⟨sources, inputs⟩ := ih behind
    rw [source] at sources
    rw [input] at inputs
    constructor
    · rw [sources]
      cases found : given.source? <;> simp [found]
    · rw [inputs]
      cases found : given.input? with
      | none => simp [found]
      | some text =>
        rw [List.filterMap_cons_some found, List.getLast?_cons]
        cases (givens.filterMap Given.input?).getLast? <;> rfl

theorem texts_of_none (added : none.addAll givens = .ok settings) (once : Given.count givens false ≤ 1) :
    settings.source.toList = givens.filterMap Given.source? ∧ settings.input.toList = givens.filterMap Given.input? := by
  obtain ⟨source, input⟩ := texts_of_addAll added
  refine ⟨source, ?_⟩
  have length : (givens.filterMap Given.input?).length ≤ 1 := once
  rw [input]
  cases inputs : givens.filterMap Given.input? with
  | nil => rfl
  | cons text more =>
    have single : more = [] := by simpa [inputs] using length
    rw [single]
    rfl

theorem origin_iff_designated {origin : Origin} (added : none.addAll givens = .ok settings) (once : Given.count givens false ≤ 1) :
    settings.check = .ok () ∧ settings.origin = origin ↔ givens.filterMap Given.origin? = [origin] := by
  obtain ⟨source, input⟩ := texts_of_none added once
  have texts := Given.origins_perm givens
  rw [Input.designates_iff, source, input, ← List.perm_singleton, ← List.perm_singleton]
  exact ⟨texts.trans, texts.symm.trans⟩

end Settings

namespace Command

/-- The arguments spell a subcommand and what is given to it: options that can be set, and one text. -/
structure Asks (arguments : List String) (s : Subcommand) (givens : List Given) (settings : Settings) (command : Command) :
    Prop where
  spells : ∃ rest, arguments = s.name :: rest ∧ Given.Spells s rest givens
  added : Settings.none.addAll givens = .ok settings
  designated : givens.filterMap Given.origin? = [command.origin]
  task : settings.task s = command.task

variable {arguments : List String} {s : Subcommand} {givens : List Given} {settings : Settings} {command : Command}

theorem Asks.count_le (asks : Asks arguments s givens settings command) : Given.count givens false ≤ 1 := by
  have length := (Given.origins_perm givens).length_eq
  rw [asks.designated] at length
  simp only [List.length_singleton, List.length_append, List.length_map] at length
  simp only [Given.count, Bool.toNat_false]
  omega

theorem Asks.origin (asks : Asks arguments s givens settings command) :
    settings.check = .ok () ∧ settings.origin = command.origin :=
  (Settings.origin_iff_designated asks.added asks.count_le).mpr asks.designated

theorem exists_subcommand (accepted : ofArguments arguments = .ok command) :
    ∃ s rest, arguments = Subcommand.name s :: rest ∧ ofGiven s (Given.read s rest false none) = .ok command := by
  unfold ofArguments at accepted
  split at accepted
  · cases accepted
  · split at accepted
    · rename_i found
      have same := List.find?_some found
      exact ⟨_, _, congrArg (· :: _) (beq_iff_eq.mp same).symm, accepted⟩
    · cases accepted

theorem exists_asks (accepted : ofArguments arguments = .ok command) :
    ∃ s givens settings, Asks arguments s givens settings command := by
  obtain ⟨s, rest, rfl, given⟩ := exists_subcommand accepted
  obtain ⟨task, origin⟩ := command
  obtain ⟨refusal, settings, added, alone, origin, task⟩ := exists_of_ofGiven given
  obtain ⟨spells, once⟩ := Given.spells_of_read rfl ⟨refusal, Settings.valued_of_addAll added⟩
  exact ⟨s, _, settings, ⟨rest, rfl, spells⟩, added, (Settings.origin_iff_designated added once).mp ⟨alone, origin⟩,
    task⟩

theorem Asks.accepted (asks : Asks arguments s givens settings command) : ofArguments arguments = .ok command := by
  obtain ⟨rest, rfl, spells⟩ := asks.spells
  have read := spells.read Given.valued_none asks.count_le
  rw [ofArguments_name, read]
  obtain ⟨alone, origin⟩ := asks.origin
  have accepted : ofGiven s ⟨givens, none⟩ = .ok ⟨settings.task s, settings.origin⟩ := ofGiven_eq_ok asks.added alone
  rwa [asks.task, origin] at accepted

end Command

/-- An argument list is accepted if it spells a subcommand with options that can be set and exactly one text, and then that
text is the one designated: the value of the option word for word, the standard input for a lone minus and for nothing else, and
a file for every other input. -/
theorem one_text_designated (arguments : List String) (command : Command) :
    (Command.ofArguments arguments = .ok command ↔ ∃ s givens settings, Command.Asks arguments s givens settings command) ∧
    ∀ s givens settings, Command.Asks arguments s givens settings command →
      settings.input.isSome ≠ settings.source.isSome ∧ settings.check = .ok () ∧ settings.origin = command.origin ∧
      (∀ text, command.origin = .inline text ↔ .named .source (some text) ∈ givens) ∧
      (command.origin = .stdin ↔ .input "-" ∈ givens) ∧
      (command.origin = .stdin → settings.input = some "-" ∧ settings.source = none) ∧
      ∀ path, command.origin = .file path ↔ .input path ∈ givens ∧ path ≠ "-" := by
  constructor
  · exact ⟨Command.exists_asks, fun ⟨_, _, _, asks⟩ => asks.accepted⟩
  · intro s givens settings asks
    have among (origin : Origin) : command.origin = origin ↔ ∃ given ∈ givens, given.origin? = some origin := by
      rw [← List.mem_filterMap, asks.designated, List.mem_singleton, eq_comm]
    obtain ⟨alone, origin⟩ := asks.origin
    refine ⟨Input.check_eq_ok_iff.mp alone, alone, origin, fun text => ?_, ?_, ?_, fun path => ?_⟩
    · simp [among, Given.origin?_eq_inline_iff]
    · simp [among, Given.origin?_eq_stdin_iff]
    · intro stdin
      exact Input.eq_of_origin_stdin alone (origin.trans stdin)
    · simp only [among, Given.origin?_eq_file_iff]
      constructor
      · rintro ⟨given, member, rfl, proper⟩
        exact ⟨member, proper⟩
      · rintro ⟨member, proper⟩
        exact ⟨_, member, rfl, proper⟩

example : Command.ofArguments ["check", "-s", "-"] = .ok ⟨.check 256, .inline "-"⟩ := by rfl

example : Command.ofArguments ["tokens", "--", "--source=x"] = .ok ⟨.tokens, .file "--source=x"⟩ := by rfl

end DefunReader

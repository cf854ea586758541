import DefunReader.Command.Refusal

/-! Argument lists. The value of an option is attached to it or stands behind it; a separate value must
not look like an option. Behind `--` every argument is an input. -/
namespace DefunReader

inductive Argument where
  | separator
  | long (name : String) (value : Option String)
  | short (flag : Char) (rest : List Char)
  | plain

namespace Argument

def ofLong (body : List Char) : Argument :=
  let value := match body.dropWhile (· != '=') with
    | [] => none
    | _ :: value => some (String.ofList value)
  .long (String.ofList (body.takeWhile (· != '='))) value

/-- A lone minus is no option. -/
def of (argument : String) : Argument :=
  match argument.toList with
  | ['-', '-'] => .separator
  | '-' :: '-' :: body => ofLong body
  | '-' :: flag :: rest => .short flag rest
  | _ => .plain

def attached : List Char → Option String
  | [] => none
  | '=' :: value => some (String.ofList value)
  | value => some (String.ofList value)

inductive Meaning where
  | separator
  | plain
  | help
  | named (option : OptionName) (value : Option String)
  | unknown
  | unneededValue

def meaning (s : Subcommand) (argument : String) : Meaning :=
  match of argument with
  | .separator => .separator
  | .plain => .plain
  | .long name value =>
    match s.options.find? fun option => option.long == name with
    | some option => .named option value
    | none => if name == "help" then (if value.isSome then .unneededValue else .help) else .unknown
  | .short flag rest =>
    match s.options.find? fun option => option.short? == some flag with
    | some option => .named option (attached rest)
    | none => if flag == 'h' then .help else .unknown

end Argument

/-- What an argument list gives: an option with its value, if it has one, or the input. -/
inductive Given where
  | named (option : OptionName) (value : Option String)
  | input (text : String)
deriving DecidableEq

namespace Given

/-- An option that still waits for its value, or whose separate value is not settled yet. -/
abbrev Pending := Option (OptionName × Option String)

def settle : Pending → List Given
  | none => []
  | some (option, value) => [.named option value]

/-- What is given up to the end of the list or up to an argument that is refused. -/
structure Collected where
  givens : List Given
  refusal : Option Refusal

def Collected.after (givens : List Given) (c : Collected) : Collected :=
  { c with givens := givens ++ c.givens }

/-- Behind the separator. Only the first input is taken. -/
def inputs : List String → Bool → Pending → Collected
  | [], _, pending => ⟨settle pending, none⟩
  | argument :: _, true, _ => ⟨[], some (.unknownArgument argument)⟩
  | argument :: rest, false, pending => .after (settle pending ++ [.input argument]) (inputs rest true none)

/-- Reads the arguments of a subcommand; `seen` says whether the input is given already. An argument
that is unknown is refused before the option in front of it is settled. -/
def read (s : Subcommand) : List String → Bool → Pending → Collected
  | [], _, pending => ⟨settle pending, none⟩
  | argument :: rest, seen, pending =>
    match Argument.meaning s argument with
    | .separator => inputs rest seen pending
    | .help => ⟨settle pending, some .help⟩
    | .unknown => ⟨[], some (.unknownArgument argument)⟩
    | .unneededValue => ⟨[], some (.unneededValue argument)⟩
    | .named option (some value) => .after (settle pending ++ [.named option (some value)]) (read s rest seen none)
    | .named option none => .after (settle pending) (read s rest seen (some (option, none)))
    | .plain =>
      match pending, seen with
      | some (option, none), _ => read s rest seen (some (option, some argument))
      | _, true => ⟨[], some (.unknownArgument argument)⟩
      | _, false => .after (settle pending ++ [.input argument]) (read s rest true none)

end Given

structure Input where
  input : Option String
  source : Option String
deriving DecidableEq

namespace Input

/-- Exactly one text has to be given. -/
def check (i : Input) : Except Refusal Unit :=
  match i.input, i.source with
  | none, none => .error .noText
  | some _, some _ => .error .twoTexts
  | none, some _ | some _, none => .ok ()

/-- Only a checked input designates its text. The standard input is also what is left where none is given. -/
def origin (i : Input) : Origin :=
  match i.source, i.input with
  | some text, _ => .inline text
  | none, some path => if path = "-" then .stdin else .file path
  | none, none => .stdin

end Input

structure Settings extends Input where
  format : Option Format
  limit : Option Nat
deriving DecidableEq

namespace Settings

def none : Settings := ⟨⟨.none, .none⟩, .none, .none⟩

/-- A limit is decimal, below 2^64, and may have a plus before it. -/
def readLimit? (text : String) : Option Nat :=
  let digits := match text.toList with
    | '+' :: digits => digits
    | digits => digits
  let n := Nat.ofDigitChars 10 digits 0
  if !digits.isEmpty && digits.all Char.isDigit && n < UInt64.size then some n else .none

/-- An option that is given twice is refused before its value is looked at. -/
def add (s : Settings) : Given → Except Refusal Settings
  | .input text => .ok { s with input := some text }
  | .named option .none => .error (.missingValue option)
  | .named .source (some text) =>
    if s.source.isSome then .error (.repeated .source) else .ok { s with source := some text }
  | .named .format (some text) =>
    if s.format.isSome then .error (.repeated .format)
    else match Format.ofName? text with
      | some format => .ok { s with format := some format }
      | .none => .error (.badFormat text)
  | .named .maxDepth (some text) =>
    if s.limit.isSome then .error (.repeated .maxDepth)
    else match readLimit? text with
      | some limit => .ok { s with limit := some limit }
      | .none => .error (.badLimit text)

def addAll (s : Settings) : List Given → Except Refusal Settings
  | [] => .ok s
  | given :: rest =>
    match s.add given with
    | .ok s => s.addAll rest
    | .error refusal => .error refusal

def task (s : Settings) : Subcommand → Task
  | .parse => .parse (s.format.getD .tree) (s.limit.getD defaultLimit)
  | .tokens => .tokens
  | .check => .check (s.limit.getD defaultLimit)

end Settings

namespace Command

/-- A refusal of what was given comes before that of a later argument, and that before a text is missed. -/
def ofGiven (s : Subcommand) (c : Given.Collected) : Except Refusal Command :=
  match Settings.none.addAll c.givens, c.refusal with
  | .error refusal, _ => .error refusal
  | .ok _, some refusal => .error refusal
  | .ok settings, none => settings.check.map fun _ => ⟨settings.task s, settings.origin⟩

def isSubcommand (name : String) : Bool :=
  (Subcommand.ofName? name).isSome || name == "help"

/-- The subcommand for help takes at most the name of one subcommand. -/
def helpOn : List String → Refusal
  | [] => .help
  | name :: rest =>
    if isSubcommand name then
      match rest with
      | [] => .help
      | other :: _ => .unknownSubcommand other
    else .unknownSubcommand name

def refuse (argument : String) (rest : List String) : Refusal :=
  match Argument.of argument with
  | .separator =>
    match rest with
    | [] => .nothingAsked
    | name :: _ => if isSubcommand name then .unknownArgument name else .unknownSubcommand name
  | .plain => .unknownSubcommand argument
  | .long name value =>
    if name == "help" then (if value.isSome then .unneededValue argument else .help)
    else if name == "version" then (if value.isSome then .unneededValue argument else .version)
    else .unknownArgument argument
  | .short flag _ => if flag == 'h' then .help else if flag == 'V' then .version else .unknownArgument argument

def ofArguments : List String → Except Refusal Command
  | [] => .error .nothingAsked
  | argument :: rest =>
    match Subcommand.ofName? argument with
    | some s => ofGiven s (Given.read s rest false none)
    | none => .error (if argument == "help" then helpOn rest else refuse argument rest)

end Command

end DefunReader

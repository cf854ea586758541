import DefunReader.Command

/-! Why an argument list asks for no command. A refusal is told by its kind and an exit status; how it is
worded is left out. -/
namespace DefunReader

inductive Subcommand where
  | parse
  | tokens
  | check
deriving DecidableEq

namespace Subcommand

def name : Subcommand → String
  | parse => "parse"
  | tokens => "tokens"
  | check => "check"

def ofName? (name : String) : Option Subcommand :=
  [parse, tokens, check].find? fun subcommand => subcommand.name == name

end Subcommand

inductive OptionName where
  | source
  | format
  | maxDepth
deriving DecidableEq

namespace OptionName

def long : OptionName → String
  | source => "source"
  | format => "format"
  | maxDepth => "max-depth"

def short? : OptionName → Option Char
  | source => some 's'
  | format => some 'f'
  | maxDepth => none

end OptionName

def Subcommand.options : Subcommand → List OptionName
  | parse => [.source, .format, .maxDepth]
  | tokens => [.source]
  | check => [.source, .maxDepth]

inductive Refusal where
  | nothingAsked
  | help
  | version
  | unknownSubcommand (name : String)
  | unknownArgument (argument : String)
  | missingValue (option : OptionName)
  | unneededValue (argument : String)
  | badFormat (text : String)
  | badLimit (text : String)
  | repeated (option : OptionName)
  | twoTexts
  | noText
deriving DecidableEq

namespace Refusal

/-- Asking for help or for the version is no failure. -/
def status : Refusal → Nat
  | help | version => 0
  | _ => 2

end Refusal

end DefunReader

import DefunReader.Node
import DefunReader.Text.Shown

/-! What can be wrong with a program text, where, and how it is worded. -/
namespace DefunReader

inductive Expectation where
  | token (kind : Token.Kind)
  | expression
  | datum
deriving DecidableEq

def Expectation.text : Expectation → String
  | token kind => kind.name
  | expression => "expression"
  | datum => "datum"

inductive Problem where
  | strayCharacter (span : Span) (found : Char)
  /-- A numeral beyond 64 bits. -/
  | numberTooLarge (span : Span) (text : String)
  /-- A token that cannot stand where it does; `within` has the kinds of the open nodes, innermost first. -/
  | unexpectedToken (span : Span) (expected : Expectation) (found : Token.Kind) (within : List Node.Kind)
  | nestedTooDeep (span : Span) (limit : Nat)
deriving DecidableEq

namespace Problem

def span : Problem → Span
  | strayCharacter span _ | numberTooLarge span _ | unexpectedToken span _ _ _ | nestedTooDeep span _ => span

def trailText (within : List Node.Kind) : String :=
  if within.isEmpty then "" else " (" ++ ", ".intercalate (within.map fun kind => "in " ++ kind.name) ++ ")"

def message : Problem → String
  | strayCharacter span found =>
    "Lexical error at " ++ span.text ++ ": unexpected character " ++ Text.shown found
  | numberTooLarge span text =>
    "Lexical error at " ++ span.text ++ ": number literal " ++ text ++ " does not fit in 64 bits"
  | unexpectedToken span expected found within =>
    "Syntax error at " ++ span.text ++ ": expected " ++ expected.text ++ ", found " ++ found.name ++ trailText within
  | nestedTooDeep span limit =>
    "Syntax error at " ++ span.text ++ ": forms nested deeper than " ++ toString limit

def code : Problem → String
  | strayCharacter .. => "E_LEX"
  | numberTooLarge .. => "E_NUMBER"
  | unexpectedToken .. => "E_SYNTAX"
  | nestedTooDeep .. => "E_DEPTH"

def help? : Problem → Option String
  | unexpectedToken _ (.token .rightParen) .finish _ => some "the input ends before this form is closed; add ')'"
  | unexpectedToken _ (.token .finish) _ _ => some "a program is a single defun form; remove the trailing input"
  | unexpectedToken _ .expression .rightParen _ => some "this form is missing an expression before ')'"
  | strayCharacter _ found => if found = '#' then some "booleans are written #t or #f" else none
  | _ => none

end Problem

end DefunReader

import DefunReader.Numeral
import DefunReader.Position

/-! Tokens, their kinds, and tokens at their place in a text. -/
namespace DefunReader

inductive Token where
  | leftParen
  | rightParen
  | number (value : Int64)
  | boolean (value : Bool)
  | identifier (name : String)
  | ifWord
  | defunWord
  /-- The tick when `abbreviated`, else the word `quote`. -/
  | quote (abbreviated : Bool)
  | finish
deriving DecidableEq

namespace Token

inductive Kind where
  | leftParen
  | rightParen
  | number
  | boolean
  | identifier
  | ifWord
  | defunWord
  | quote
  | finish
deriving DecidableEq

def Kind.name : Kind → String
  | leftParen => "LPAREN"
  | rightParen => "RPAREN"
  | number => "NUMBER"
  | boolean => "BOOLEAN"
  | identifier => "IDENTIFIER"
  | ifWord => "IF"
  | defunWord => "DEFUN"
  | quote => "QUOTE"
  | finish => "END"

def kind : Token → Kind
  | leftParen => .leftParen
  | rightParen => .rightParen
  | number _ => .number
  | boolean _ => .boolean
  | identifier _ => .identifier
  | ifWord => .ifWord
  | defunWord => .defunWord
  | quote _ => .quote
  | finish => .finish

def booleanText (b : Bool) : String :=
  if b then "#t" else "#f"

def text : Token → String
  | number n => "NUMBER(" ++ Numeral.text n ++ ")"
  | boolean b => "BOOLEAN(" ++ booleanText b ++ ")"
  | identifier name => "IDENTIFIER(" ++ name ++ ")"
  | quote true => "QUOTE(')"
  | token => token.kind.name

structure Placed where
  token : Token
  span : Span
deriving DecidableEq

end Token

end DefunReader

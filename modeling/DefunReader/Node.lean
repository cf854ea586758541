import DefunReader.Position
import DefunReader.Token

/-! Nodes of a program tree. Nodes are known by number; a node lists its children and its parent. -/
namespace DefunReader

namespace Node

inductive Kind where
  | program
  /-- A function definition; `arity` parameters follow its name. -/
  | defun (arity : Nat)
  | identifier
  | constant
  | ifForm
  | quote
  | application
  | list
deriving DecidableEq

def Kind.name : Kind → String
  | program => "PROGRAM"
  | defun _ => "DEFUN"
  | identifier => "IDENTIFIER"
  | constant => "CONSTANT"
  | ifForm => "IF"
  | quote => "QUOTE"
  | application => "APPLICATION"
  | list => "LIST"

inductive Value where
  | number (value : Int64)
  | boolean (value : Bool)
  | name (name : String)
deriving DecidableEq

def Value.text : Value → String
  | number n => Numeral.text n
  | boolean b => Token.booleanText b
  | name s => s

end Node

structure Node where
  kind : Node.Kind
  value : Option Node.Value
  children : List Nat
  parent : Option Nat
  span : Span
deriving DecidableEq

end DefunReader

import DefunReader.Proofs.Erasure
import DefunReader.Proofs.Spelling

/-! Programs as they are written, apart from any text: what the grammar allows, with a spelling chosen at every quote.
Each has its tokens, how deep their forms nest, and the branch that it stands for, which does not show the spellings. -/
namespace DefunReader.Source

structure Name where
  text : String
  spelled : (Token.identifier text).Spelled

inductive Datum where
  | number (n : Int64)
  | boolean (b : Bool)
  | list (items : List Datum)

inductive Expression where
  | number (n : Int64)
  | boolean (b : Bool)
  | identifier (name : Name)
  /-- With a tick when `abbreviated`, else as a form with the word `quote`. -/
  | quote (abbreviated : Bool) (datum : Datum)
  | ifThen (condition branch : Expression)
  | ifElse (condition branch other : Expression)
  | application (operator : Expression) (operands : List Expression)

structure Program where
  name : Name
  parameters : List Name
  body : List Expression

def Name.token (name : Name) : Token := .identifier name.text

def Name.shape (name : Name) : Shape := .node .identifier (some (.name name.text)) default []

namespace Datum

mutual

def tokens : Datum → List Token
  | number n => [.number n]
  | boolean b => [.boolean b]
  | list items => .leftParen :: (allTokens items ++ [.rightParen])

def allTokens : List Datum → List Token
  | [] => []
  | datum :: data => datum.tokens ++ allTokens data

end

mutual

def nesting : Datum → Nat
  | number _ | boolean _ => 0
  | list items => maxNesting items + 1

def maxNesting : List Datum → Nat
  | [] => 0
  | datum :: data => max datum.nesting (maxNesting data)

end

mutual

def shape : Datum → Shape
  | number n => .node .constant (some (.number n)) default []
  | boolean b => .node .constant (some (.boolean b)) default []
  | list items => .node .list none default (shapes items)

def shapes : List Datum → List Shape
  | [] => []
  | datum :: data => datum.shape :: shapes data

end

end Datum

namespace Expression

mutual

def tokens : Expression → List Token
  | number n => [.number n]
  | boolean b => [.boolean b]
  | identifier name => [name.token]
  | quote true datum => .quote true :: datum.tokens
  | quote false datum => .leftParen :: .quote false :: (datum.tokens ++ [.rightParen])
  | ifThen condition branch =>
    .leftParen :: .ifWord :: (condition.tokens ++ (branch.tokens ++ [.rightParen]))
  | ifElse condition branch other =>
    .leftParen :: .ifWord :: (condition.tokens ++ (branch.tokens ++ (other.tokens ++ [.rightParen])))
  | application operator operands => .leftParen :: (operator.tokens ++ (allTokens operands ++ [.rightParen]))

def allTokens : List Expression → List Token
  | [] => []
  | expression :: expressions => expression.tokens ++ allTokens expressions

end

mutual

/-- The forms and quoted lists that stand around each other at most; a tick is no form. -/
def nesting : Expression → Nat
  | number _ | boolean _ | identifier _ => 0
  | quote true datum => datum.nesting
  | quote false datum => datum.nesting + 1
  | ifThen condition branch => max condition.nesting branch.nesting + 1
  | ifElse condition branch other => max condition.nesting (max branch.nesting other.nesting) + 1
  | application operator operands => max operator.nesting (maxNesting operands) + 1

def maxNesting : List Expression → Nat
  | [] => 0
  | expression :: expressions => max expression.nesting (maxNesting expressions)

end

mutual

def shape : Expression → Shape
  | number n => .node .constant (some (.number n)) default []
  | boolean b => .node .constant (some (.boolean b)) default []
  | identifier name => name.shape
  | quote _ datum => .node .quote none default [datum.shape]
  | ifThen condition branch => .node .ifForm none default [condition.shape, branch.shape]
  | ifElse condition branch other => .node .ifForm none default [condition.shape, branch.shape, other.shape]
  | application operator operands => .node .application none default (operator.shape :: shapes operands)

def shapes : List Expression → List Shape
  | [] => []
  | expression :: expressions => expression.shape :: shapes expressions

end

end Expression

namespace Program

def tokens (program : Program) : List Token :=
  .leftParen :: .defunWord :: program.name.token :: .leftParen ::
    (program.parameters.map Name.token ++
      .rightParen :: (Expression.allTokens program.body ++ [.rightParen]))

def nesting (program : Program) : Nat :=
  Expression.maxNesting program.body

def shape (program : Program) : Shape :=
  .node .program none default
    [.node (.defun program.parameters.length) none default
      (program.name.shape :: (program.parameters.map Name.shape ++ Expression.shapes program.body))]

end Program

end DefunReader.Source

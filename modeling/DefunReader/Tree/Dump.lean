import DefunReader.Text.Block
import DefunReader.Tree

/-! Program trees as a full dump: every node by number with all it holds. -/
namespace DefunReader

open Text

def Tree.idDump (id : Nat) : Block := .tuple "NodeId" [.nat id]

def Node.Kind.dump : Node.Kind → Block
  | program => .atom "Program"
  | defun arity => .record "Defun" [("arity", .nat arity)]
  | identifier => .atom "Identifier"
  | constant => .atom "Constant"
  | ifForm => .atom "If"
  | quote => .atom "Quote"
  | application => .atom "Application"
  | list => .atom "List"

/-- Names are quoted as they are: they hold no character that quoting would change. -/
def Node.Value.dump : Node.Value → Block
  | number n => .tuple "Number" [.atom (Numeral.text n)]
  | boolean b => .tuple "Boolean" [.atom (if b then "true" else "false")]
  | name s => .tuple "Text" [.atom ("\"" ++ s ++ "\"")]

def Span.dump (s : Span) : Block :=
  .record "Span"
    [("line", .nat s.start.line), ("column", .nat s.start.column), ("start", .nat s.start.offset),
      ("end", .nat s.stop)]

def Node.dump (n : Node) : Block :=
  .record "Node"
    [("kind", n.kind.dump), ("value", .option (n.value.map Value.dump)), ("children", .sequence (n.children.map Tree.idDump)),
      ("parent", .option (n.parent.map Tree.idDump)), ("span", n.span.dump)]

def Tree.dump (t : Tree) : String :=
  Block.text (.record "Ast" [("nodes", .sequence (t.nodes.toList.map Node.dump))])

end DefunReader

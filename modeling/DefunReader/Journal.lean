import DefunReader.Token

/-! What a reading notes down as it goes. The two lines that a task logs about its outcome are not among these records. -/
namespace DefunReader.Journal

inductive Record where
  | parsing (bytes limit : Nat)
  | lexed (placed : Token.Placed)
  | definitionRead (parameters : Nat)
  | programRead (nodes : Nat)
deriving DecidableEq

def Record.level : Record → String
  | lexed _ => "TRACE"
  | _ => "DEBUG"

def Record.message : Record → String
  | parsing bytes limit => "parsing " ++ toString bytes ++ " bytes with max depth " ++ toString limit
  | lexed placed => "lexed " ++ placed.token.text ++ " at " ++ placed.span.text
  | definitionRead parameters => "parsed defun with " ++ toString parameters ++ " parameter(s)"
  | programRead nodes => "parsed program into " ++ toString nodes ++ " nodes"

def Record.text (r : Record) : String :=
  r.level ++ " " ++ r.message

end DefunReader.Journal

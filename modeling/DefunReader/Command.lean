import DefunReader.Reading

/-! What a command line can ask for: a task, and where the program text comes from. -/
namespace DefunReader

inductive Format where
  | tree
  | sexp
  | debug
deriving DecidableEq

def Format.name : Format → String
  | tree => "tree"
  | sexp => "sexp"
  | debug => "debug"

def Format.ofName? (name : String) : Option Format :=
  [tree, sexp, debug].find? fun format => format.name == name

inductive Task where
  | parse (format : Format) (limit : Nat)
  | tokens
  | check (limit : Nat)
deriving DecidableEq

inductive Origin where
  | inline (text : String)
  | stdin
  | file (path : String)
deriving DecidableEq

def Origin.name : Origin → String
  | inline _ => "<source>"
  | stdin => "<stdin>"
  | file path => path

structure Command where
  task : Task
  origin : Origin
deriving DecidableEq

end DefunReader

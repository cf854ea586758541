import DefunReader.Journal
import DefunReader.Scanner
import DefunReader.Tree

/-! The state of a reading and its elementary steps. A reading stops at a problem of the text, or at a
defect, which is a broken promise of the reading itself; no reading of a text stops at a defect. -/
namespace DefunReader

inductive Defect where
  | unknownNode
  | unopenedForm
  | outOfFuel
deriving DecidableEq

inductive Stop where
  | problem (problem : Problem)
  | defect (defect : Defect)
deriving DecidableEq

namespace Reading

structure State where
  cursor : Cursor
  lookahead : Token.Placed
  tree : Tree
  /-- The number of forms and quoted lists that are open. -/
  depth : Nat
  journal : Array Journal.Record
deriving DecidableEq

end Reading

/-- An action on the state of a reading; the state outlives a stop. -/
abbrev Reading := EStateM Stop Reading.State

namespace Reading

def stop {α : Type} (s : Stop) : Reading α := throw s

def peek : Reading Token := do
  return (← get).lookahead.token

def note (record : Journal.Record) : Reading Unit :=
  modify fun s => { s with journal := s.journal.push record }

/-- The end of the text is no token to note. -/
def noteLexed (journal : Array Journal.Record) (placed : Token.Placed) : Array Journal.Record :=
  if placed.token = .finish then journal else journal.push (.lexed placed)

def advance : Reading Token.Placed := fun s =>
  match s.cursor.next with
  | (.error problem, cursor) => .error (.problem problem) { s with cursor }
  | (.ok placed, cursor) =>
    .ok s.lookahead { s with cursor, lookahead := placed, journal := noteLexed s.journal placed }

def unexpected {α : Type} (expected : Expectation) (context : Nat) : Reading α := fun s =>
  if h : context < s.tree.size then
    .error (.problem (.unexpectedToken s.lookahead.span expected s.lookahead.token.kind (s.tree.trail context h))) s
  else .error (.defect .unknownNode) s

def expect (kind : Token.Kind) (context : Nat) : Reading Token.Placed := do
  if (← peek).kind = kind then advance else unexpected (.token kind) context

def push (parent : Nat) (kind : Node.Kind) (value : Option Node.Value) (span : Span) : Reading Nat := fun s =>
  if h : parent < s.tree.size then .ok s.tree.size { s with tree := s.tree.addChild parent h kind value span }
  else .error (.defect .unknownNode) s

def setKind (id : Nat) (kind : Node.Kind) : Reading Unit := fun s =>
  if id < s.tree.size then .ok () { s with tree := s.tree.setKind id kind } else .error (.defect .unknownNode) s

/-- Opens a form or a quoted list, unless `limit` of them are open. -/
def enter (limit : Nat) (span : Span) : Reading Unit := fun s =>
  if s.depth < limit then .ok () { s with depth := s.depth + 1 } else .error (.problem (.nestedTooDeep span limit)) s

def leave : Reading Unit := fun s =>
  match s.depth with
  | 0 => .error (.defect .unopenedForm) s
  | depth + 1 => .ok () { s with depth }

/-- Whether a sequence goes on. At the end of the text its closing parenthesis is missing. -/
def beforeClose (context : Nat) : Reading Bool := do
  match ← peek with
  | .rightParen => return false
  | .finish => unexpected (.token .rightParen) context
  | _ => return true

/-- Reads items up to a closing parenthesis and counts them. -/
def untilClose (context : Nat) (item : Reading Nat) : Nat → Reading Nat
  | 0 => stop (.defect .outOfFuel)
  | fuel + 1 => do
    if ← beforeClose context then
      let _ ← item
      let count ← untilClose context item fuel
      return count + 1
    else return 0

end Reading

end DefunReader

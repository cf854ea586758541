import DefunReader.Problem
import DefunReader.Text.Blank
import DefunReader.Token.Front

/-! Scanning a text token by token. A cursor is the position reached and the text still unread; a
scanner also knows whether its stream has ended. -/
namespace DefunReader

abbrev Answer := Except Problem Token.Placed

structure Cursor where
  position : Position
  unread : List Char
deriving DecidableEq

namespace Cursor

def start (text : String) : Cursor := ⟨.origin, text.toList⟩

def skipBlanks (c : Cursor) : Cursor :=
  ⟨c.position.after (c.unread.takeWhile Text.isBlank), c.unread.dropWhile Text.isBlank⟩

/-- Reads one token. A stray character is left unread, a numeral that is too large is not. -/
def next (c : Cursor) : Answer × Cursor :=
  let front := c.skipBlanks
  match Front.of front.unread with
  | .nothing => (.ok ⟨.finish, .between front.position front.position⟩, front)
  | .token lexeme token rest =>
    let stop := front.position.after lexeme
    (.ok ⟨token, .between front.position stop⟩, ⟨stop, rest⟩)
  | .tooLarge lexeme rest =>
    let stop := front.position.after lexeme
    (.error (.numberTooLarge (.between front.position stop) (String.ofList lexeme)), ⟨stop, rest⟩)
  | .stray found =>
    (.error (.strayCharacter (.between front.position (front.position.step found)) found), front)

theorem skipBlanks_length_le (c : Cursor) : c.skipBlanks.unread.length ≤ c.unread.length :=
  (List.dropWhile_suffix Text.isBlank).length_le

theorem next_length_le (c : Cursor) : c.next.2.unread.length ≤ c.unread.length := by
  have shorter := c.skipBlanks_length_le
  unfold next
  dsimp only
  split
  · exact shorter
  · rename_i found
    have split := (Front.append_of_parts? (congrArg Front.parts? found)).2
    rw [← split, List.length_append] at shorter
    exact Nat.le_trans (Nat.le_add_left _ _) shorter
  · rename_i found
    have split := (Front.append_of_parts? (congrArg Front.parts? found)).2
    rw [← split, List.length_append] at shorter
    exact Nat.le_trans (Nat.le_add_left _ _) shorter
  · exact shorter

theorem next_length_lt {c rest : Cursor} {placed : Token.Placed} (h : c.next = (.ok placed, rest))
    (proper : placed.token ≠ .finish) : rest.unread.length < c.unread.length := by
  have shorter := c.skipBlanks_length_le
  unfold next at h
  dsimp only at h
  split at h
  · cases h
    exact absurd rfl proper
  · rename_i found
    cases h
    obtain ⟨lexeme, split⟩ := Front.append_of_parts? (congrArg Front.parts? found)
    have length := List.length_pos_iff.mpr lexeme
    rw [← split, List.length_append] at shorter
    dsimp only
    omega
  · cases h
  · cases h

/-- Everything from here to the end of the text or the first problem, and where that leaves the cursor. -/
def drain (c : Cursor) : List Answer × Cursor :=
  match h : c.next with
  | (.error problem, rest) => ([.error problem], rest)
  | (.ok placed, rest) =>
    if proper : placed.token = .finish then ([.ok placed], rest)
    else
      have := next_length_lt h proper
      let (answers, final) := rest.drain
      (.ok placed :: answers, final)
termination_by c.unread.length

end Cursor

structure Scanner where
  cursor : Cursor
  /-- Set once the stream has answered the end or a problem. -/
  finished : Bool
deriving DecidableEq

namespace Scanner

def start (text : String) : Scanner := ⟨.start text, false⟩

/-- Reads one token whether or not the stream has ended. -/
def pull (s : Scanner) : Answer × Scanner :=
  let (answer, cursor) := s.cursor.next
  (answer, { s with cursor })

def isFinal : Answer → Bool
  | .ok placed => placed.token == .finish
  | .error _ => true

/-- The next element of the stream, which the end of the text or a problem closes. -/
def next? (s : Scanner) : Option Answer × Scanner :=
  if s.finished then (none, s)
  else
    let (answer, cursor) := s.cursor.next
    (some answer, ⟨cursor, isFinal answer⟩)

def drain (s : Scanner) : List Answer × Scanner :=
  if s.finished then ([], s)
  else
    let (answers, cursor) := s.cursor.drain
    (answers, ⟨cursor, true⟩)

end Scanner

def collect : List Answer → Except Problem (List Token.Placed)
  | [] => .ok []
  | .error problem :: _ => .error problem
  | .ok placed :: rest => (collect rest).map (placed :: ·)

def tokenize (text : String) : Except Problem (List Token.Placed) :=
  collect (Cursor.start text).drain.1

end DefunReader

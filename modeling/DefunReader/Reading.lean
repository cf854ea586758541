import DefunReader.Reading.Progress

/-! Reading a program text into its tree. A transcript also has the journal of the reading. -/
namespace DefunReader

def defaultLimit : Nat := 256

namespace Reading

/-- The state in which the first token is read and nothing is consumed. -/
def start (text : String) : Except Problem State :=
  match (Cursor.start text).next with
  | (.error problem, _) => .error problem
  | (.ok placed, cursor) =>
    .ok { cursor, lookahead := placed, tree := .seed .program placed.span, depth := 0, journal := noteLexed #[] placed }

structure Transcript where
  journal : Array Journal.Record
  result : Except Problem Tree

/-- The fuel is above what the state has left, so a defect is impossible. -/
def complete (limit : Nat) (s : State) : Transcript :=
  match run : program limit (s.left + 1) s with
  | .ok _ rest => ⟨rest.journal, .ok rest.tree⟩
  | .error (.problem problem) rest => ⟨rest.journal, .error problem⟩
  | .error (.defect _) _ => absurd run (program_no_defect limit (Nat.lt_succ_self s.left))

def transcript (text : String) (limit : Nat) : Transcript :=
  match start text with
  | .error problem => ⟨#[], .error problem⟩
  | .ok s => complete limit s

def announced (text : String) (limit : Nat) : Transcript :=
  let t := transcript text limit
  { t with journal := #[.parsing text.utf8ByteSize limit] ++ t.journal }

end Reading

def parse (text : String) (limit : Nat) : Except Problem Tree :=
  (Reading.transcript text limit).result

end DefunReader

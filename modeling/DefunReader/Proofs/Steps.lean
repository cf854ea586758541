import DefunReader.Proofs.Agenda
import DefunReader.Proofs.Growth
import DefunReader.Proofs.Stream
import DefunReader.Reading

/-! What the elementary steps of a reading do beside its agenda: where one ends well, the agenda has taken the same
tokens; where it stops at a problem, the agenda runs into the same one. -/
namespace DefunReader.Reading

open Grammar (Agenda)
open Grammar.Agenda (step problem? refuse require unlessClosed)

/-- The answers that a state has ahead of it, its lookahead first. -/
def State.stream (s : State) : List Answer :=
  .ok s.lookahead :: if s.lookahead.token = .finish then [] else s.cursor.drain.1

/-- The problem that an agenda runs into from a state on. -/
def State.ahead (limit : Nat) (goals : Agenda) (s : State) : Option Problem :=
  problem? limit goals s.stream

/-- A reading ends as `post` says, or stops at the problem `ahead`. -/
def Ends {α : Type} (m : Reading α) (s : State) (post : α → State → Prop) (ahead : Option Problem) : Prop :=
  match m s with
  | .ok a rest => post a rest
  | .error (.problem problem) _ => ahead = some problem
  | .error (.defect _) _ => True

variable {α β : Type} {s rest : State} {limit parent : Nat} {goals next : Agenda} {trouble : Option Problem}
  {kind : Node.Kind} {value : Option Node.Value} {span : Span} {within : List Node.Kind}

theorem State.lookahead_eq {token : Token} (found : s.lookahead.token = token) :
    s.lookahead = ⟨token, s.lookahead.span⟩ := by
  subst found
  rfl

theorem State.ahead_of_stream (same : rest.stream = s.stream) : s.ahead limit goals = rest.ahead limit goals := by
  rw [State.ahead, State.ahead, same]

theorem State.ahead_congr (same : step limit goals s.lookahead = step limit next s.lookahead) :
    s.ahead limit goals = s.ahead limit next := by
  simp only [State.ahead, State.stream, problem?, same]

theorem Ends.bind {m : Reading α} {f : α → Reading β} {mid : α → State → Prop} {post : β → State → Prop}
    (first : Ends m s mid trouble) (then' : ∀ a rest, mid a rest → Ends (f a) rest post trouble) :
    Ends (m >>= f) s post trouble := by
  simp only [Ends, Bind.bind, EStateM.bind] at first ⊢
  cases run : m s with
  | ok a rest =>
    rw [run] at first
    exact then' a rest first
  | error e rest =>
    rw [run] at first
    cases e <;> exact first

theorem Ends.weaken {m : Reading α} {mid post : α → State → Prop} (first : Ends m s mid trouble)
    (weaker : ∀ a rest, mid a rest → post a rest) : Ends m s post trouble := by
  simp only [Ends] at first ⊢
  cases run : m s with
  | ok a rest =>
    rw [run] at first
    exact weaker a rest first
  | error e rest =>
    rw [run] at first
    cases e <;> exact first

theorem Ends.pure {a : α} {post : α → State → Prop} (h : post a s) : Ends (Pure.pure a) s post trouble := h

theorem peek_ends : Ends peek s (fun token rest => token = s.lookahead.token ∧ s = rest) trouble := ⟨rfl, rfl⟩

theorem get_ends : Ends get s (fun found rest => found = s ∧ s = rest) trouble := ⟨rfl, rfl⟩

theorem note_ends (record : Journal.Record) :
    Ends (note record) s (fun _ rest => rest = { s with journal := s.journal.push record }) trouble := rfl

/-- Behind the end of the text there is nothing. -/
def State.Settled (s : State) : Prop :=
  s.lookahead.token = .finish → s.cursor.unread = []

/-- The lookahead is taken, and nothing else changes. -/
structure Passes (s rest : State) : Prop where
  tree : rest.tree = s.tree
  depth : rest.depth = s.depth
  stream : s.stream = .ok s.lookahead :: rest.stream
  settled : rest.Settled

theorem Passes.ahead (passes : Passes s rest) (taken : step limit goals s.lookahead = .ok next) :
    s.ahead limit goals = rest.ahead limit next := by
  rw [State.ahead, passes.stream]
  exact Agenda.problem?_cons taken

theorem advance_ends (proper : s.lookahead.token ≠ .finish) (taken : step limit goals s.lookahead = .ok next) :
    Ends advance s (fun placed rest => placed = s.lookahead ∧ Passes s rest) (s.ahead limit goals) := by
  simp only [Ends, advance]
  rcases found : s.cursor.next with ⟨answer, cursor⟩
  cases answer with
  | error problem =>
    simp only [State.ahead, State.stream, if_neg proper, Cursor.drain_of_error found]
    exact Agenda.problem?_cons taken
  | ok placed =>
    refine ⟨rfl, rfl, rfl, ?_, Cursor.unread_of_finish found⟩
    simp only [State.stream, if_neg proper, Cursor.drain_of_ok found]

theorem unexpected_ends {expected : Expectation} {context : Nat} {post : α → State → Prop}
    (trails : s.tree.Trails context within) (refused : step limit goals s.lookahead = refuse expected within s.lookahead) :
    Ends (unexpected expected context) s post (s.ahead limit goals) := by
  obtain ⟨h, trail⟩ := trails
  simp only [Ends, unexpected, dif_pos h, trail]
  exact Agenda.problem?_refused refused

theorem expect_ends (token : Token) {context : Nat} (among : token ∈ [.leftParen, .rightParen, .defunWord, .finish])
    (proper : token ≠ .finish) (trails : s.tree.Trails context within)
    (same : step limit goals s.lookahead = require token.kind within next s.lookahead) :
    Ends (expect token.kind context) s
      (fun placed rest => placed = s.lookahead ∧ s.lookahead.token = token ∧ Passes s rest ∧
        s.ahead limit goals = rest.ahead limit next) (s.ahead limit goals) := by
  apply peek_ends.bind
  intro found rest same'
  obtain ⟨rfl, rfl⟩ := same'
  by_cases fits : s.lookahead.token.kind = token.kind
  · have bare := Token.eq_of_kind among fits
    rw [require, if_pos fits] at same
    rw [if_pos fits]
    apply (advance_ends (bare ▸ proper) same).weaken
    intro placed rest done
    obtain ⟨rfl, done⟩ := done
    exact ⟨rfl, bare, done, done.ahead same⟩
  · rw [require, if_neg fits] at same
    rw [if_neg fits]
    exact unexpected_ends trails same

theorem push_ends : Ends (push parent kind value span) s (fun id rest => id = s.tree.size ∧ rest.depth = s.depth ∧
    rest.lookahead = s.lookahead ∧ rest.stream = s.stream ∧ s.tree.Grows parent [.node kind value span []] rest.tree)
    trouble := by
  unfold Ends push
  split
  · rename_i found
    split at found
    · rename_i below
      cases found
      exact ⟨rfl, rfl, rfl, rfl, s.tree.grows_addChild below ..⟩
    · cases found
  · rename_i found
    split at found <;> cases found
  · trivial

theorem setKind_ends {id : Nat} : Ends (setKind id kind) s (fun _ rest => rest.tree = s.tree.setKind id kind ∧
    rest.depth = s.depth ∧ rest.lookahead = s.lookahead ∧ rest.stream = s.stream) trouble := by
  unfold Ends setKind
  by_cases h : id < s.tree.size
  · rw [if_pos h]
    exact ⟨rfl, rfl, rfl, rfl⟩
  · rw [if_neg h]
    trivial

theorem enter_ends (deep : ¬s.depth < limit → trouble = some (.nestedTooDeep span limit)) :
    Ends (enter limit span) s (fun _ rest => s.depth < limit ∧ rest.tree = s.tree ∧ rest.depth = s.depth + 1 ∧
      rest.lookahead = s.lookahead ∧ rest.stream = s.stream) trouble := by
  unfold Ends enter
  by_cases room : s.depth < limit
  · rw [if_pos room]
    exact ⟨room, rfl, rfl, rfl, rfl⟩
  · rw [if_neg room]
    exact deep room

theorem leave_ends : Ends leave s (fun _ rest => s.depth = rest.depth + 1 ∧ rest.tree = s.tree ∧ rest.stream = s.stream)
    trouble := by
  unfold Ends leave
  cases depth : s.depth with
  | zero => trivial
  | succ depth => exact ⟨rfl, rfl, rfl⟩

theorem beforeClose_ends {context : Nat} {closed : Agenda} {more : Except Problem Agenda}
    (trails : s.tree.Trails context within)
    (same : step limit goals s.lookahead = unlessClosed within closed more s.lookahead) :
    Ends (beforeClose context) s (fun open' rest => s = rest ∧
      (open' = true → step limit goals s.lookahead = more) ∧
      (open' = false → s.lookahead.token = .rightParen ∧ step limit goals s.lookahead = .ok closed))
      (s.ahead limit goals) := by
  apply peek_ends.bind
  intro token rest found
  obtain ⟨rfl, rfl⟩ := found
  cases found : s.lookahead.token with
  | rightParen =>
    rw [unlessClosed, found] at same
    exact Ends.pure ⟨rfl, nofun, fun _ => ⟨rfl, same⟩⟩
  | finish =>
    rw [unlessClosed, found] at same
    exact unexpected_ends trails same
  | _ =>
    rw [unlessClosed, found] at same
    exact Ends.pure ⟨rfl, fun _ => same, nofun⟩

end DefunReader.Reading

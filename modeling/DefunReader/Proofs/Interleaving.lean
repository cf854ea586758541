import DefunReader.Proofs.Place
import Mathlib.Data.List.ReduceOption
import Mathlib.Logic.Function.Iterate

/-! A scanner that is asked in several ways, in any order. All ways move one cursor, so what is answered is the stream that
pulls alone give; only the mark that the stream has ended tells them apart. -/
namespace DefunReader

inductive Call where
  | pull
  | next
  | drain
deriving DecidableEq

namespace Scanner

/-- What the scanner answers to a call; `none` says that its stream has ended. -/
def reply (s : Scanner) : Call → List (Option Answer) × Scanner
  | .pull => ([some s.pull.1], s.pull.2)
  | .next => ([s.next?.1], s.next?.2)
  | .drain => (s.drain.1.map some, s.drain.2)

def run (s : Scanner) : List Call → List (Option Answer) × Scanner
  | [] => ([], s)
  | call :: calls => ((s.reply call).1 ++ ((s.reply call).2.run calls).1, ((s.reply call).2.run calls).2)

def pulled (s : Scanner) (count : Nat) : Scanner := (fun s => s.pull.2)^[count] s

def Closes (s : Scanner) (call : Call) : Prop :=
  call ≠ .pull ∧ ∃ answer, some answer ∈ (s.reply call).1 ∧ isFinal answer

def Ended (s : Scanner) (calls : List Call) : Prop :=
  ∃ before call after, calls = before ++ call :: after ∧ (s.run before).2.Closes call

end Scanner

def stream (text : String) (i : Nat) : Answer := ((Scanner.start text).pulled i).pull.1

def answered (text : String) (calls : List Call) : List Answer := ((Scanner.start text).run calls).1.reduceOption

def reached (text : String) (calls : List Call) : Scanner := ((Scanner.start text).run calls).2

/-- All that the calls on a scanner of the text show. -/
structure OneStream (text : String) : Prop where
  answers : ∀ calls, answered text calls = (List.range (answered text calls).length).map (stream text)
  cursor : ∀ calls, (reached text calls).cursor = ((Scanner.start text).pulled (answered text calls).length).cursor
  silent : ∀ calls, (reached text calls).next?.1 = none ↔ (Scanner.start text).Ended calls
  still : ∀ calls, (reached text calls).next?.1 = none → (reached text calls).next?.2 = reached text calls
  /-- A pull does not see the mark, and does not set it. -/
  unmarked : ∀ calls, (reached text calls).pull.1 = stream text (answered text calls).length ∧
    (reached text calls).pull.2.finished = (reached text calls).finished
  forward : ∀ calls call,
    (reached text calls).cursor.position.offset ≤ ((reached text calls).reply call).2.cursor.position.offset
  inside : ∀ calls, (reached text calls).cursor.position.offset ≤ text.utf8ByteSize ∧
    String.Pos.Raw.IsValid text ⟨(reached text calls).cursor.position.offset⟩
  taken : ∀ i, Answer.takes (stream text i) →
    ((Scanner.start text).pulled (i + 1)).cursor.position.offset = (Answer.span (stream text i)).stop ∧
    ((Scanner.start text).pulled i).cursor.position.offset < ((Scanner.start text).pulled (i + 1)).cursor.position.offset
  repeated : ∀ i j, i ≤ j → Answer.takes (stream text i) = false → stream text j = stream text i ∧
    ((Scanner.start text).pulled (j + 1)).cursor = ((Scanner.start text).pulled (i + 1)).cursor
  /-- The cursor stays before a stray character. -/
  stray : ∀ i span found, stream text i = .error (.strayCharacter span found) →
    ((Scanner.start text).pulled (i + 1)).cursor.position = span.start ∧
    ∃ before behind, text.toList = before ++ found :: behind ∧ span.start.offset = String.utf8Len before
  /-- Draining is asking for the next element until there is none, once for each character left and once more at most. -/
  drained : ∀ calls, ((reached text calls).run (List.replicate (reached text calls).drain.1.length .next ++ [.next])) =
      ((reached text calls).drain.1.map some ++ [none], (reached text calls).drain.2) ∧
    ∃ read left, text.toList = read ++ left ∧ (reached text calls).cursor.position.offset = String.utf8Len read ∧
      (reached text calls).drain.1.length ≤ left.length + 1

namespace Cursor

def later (c : Cursor) (count : Nat) : Cursor := (fun c => c.next.2)^[count] c

def answer (c : Cursor) (i : Nat) : Answer := (c.later i).next.1

theorem later_succ (c : Cursor) (count : Nat) : c.later (count + 1) = c.next.2.later count :=
  Function.iterate_succ_apply _ _ _

theorem later_succ' (c : Cursor) (count : Nat) : c.later (count + 1) = (c.later count).next.2 :=
  Function.iterate_succ_apply' _ _ _

theorem later_add (c : Cursor) (count more : Nat) : c.later (count + more) = (c.later count).later more := by
  rw [Nat.add_comm]
  exact Function.iterate_add_apply _ _ _ _

theorem answers_add (c : Cursor) (count more : Nat) : (List.range (count + more)).map c.answer =
    (List.range count).map c.answer ++ (List.range more).map (c.later count).answer := by
  rw [List.range_add, List.map_append, List.map_map]
  congr 2
  funext i
  rw [Function.comp_apply, answer, answer, later_add]

theorem answers_succ (c : Cursor) (count : Nat) :
    (List.range (count + 1)).map c.answer = c.next.1 :: (List.range count).map c.next.2.answer := by
  rw [Nat.add_comm, answers_add]
  rfl

theorem offset_le_later (c : Cursor) (count : Nat) : c.position.offset ≤ (c.later count).position.offset := by
  induction count generalizing c with
  | zero => exact Nat.le_refl _
  | succ count ih =>
    rw [later_succ]
    exact Nat.le_trans c.offset_le_next (ih c.next.2)

theorem later_of_stays {c : Cursor} (stays : Answer.takes c.next.1 = false) (count : Nat) :
    (c.later count).next = c.next := by
  induction count generalizing c with
  | zero => rfl
  | succ count ih =>
    have again := next_of_stays stays
    have stays' : Answer.takes c.next.2.next.1 = false := by rw [again, stays]
    rw [later_succ, ih stays', again]

theorem Follows.later {c : Cursor} {text read : List Char} (follows : c.Follows text read) (count : Nat) :
    ∃ read, (c.later count).Follows text read := by
  induction count generalizing c read with
  | zero => exact ⟨read, follows⟩
  | succ count ih =>
    obtain ⟨stretch, behind, scans⟩ := exists_scans c
    rw [later_succ]
    exact ih (follows.next scans)

theorem next_length_lt_of_goes_on {c : Cursor} (goes : Scanner.isFinal c.next.1 = false) :
    c.next.2.unread.length < c.unread.length := by
  rcases found : c.next with ⟨answer, rest⟩
  rw [found] at goes
  cases answer with
  | error => cases goes
  | ok placed => exact next_length_lt found (by simpa [Scanner.isFinal] using goes)

/-- Draining ends: it goes on only where text is taken. -/
theorem drain_induction {P : Cursor → Prop} (ends : ∀ c, Scanner.isFinal c.next.1 → P c)
    (goes : ∀ c, Scanner.isFinal c.next.1 = false → P c.next.2 → P c) (c : Cursor) : P c := by
  induction size : c.unread.length using Nat.strongRecOn generalizing c with
  | ind size ih =>
    cases final : Scanner.isFinal c.next.1 with
    | true => exact ends c final
    | false => exact goes c final (ih _ (size ▸ next_length_lt_of_goes_on final) c.next.2 rfl)

theorem drain_of_ends {c : Cursor} (ends : Scanner.isFinal c.next.1) : c.drain = ([c.next.1], c.next.2) := by
  rw [drain_eq, if_pos ends]

theorem drain_of_goes {c : Cursor} (goes : Scanner.isFinal c.next.1 = false) :
    c.drain = (c.next.1 :: c.next.2.drain.1, c.next.2.drain.2) := by
  rw [drain_eq, goes, if_neg Bool.false_ne_true]

theorem drain_answers (c : Cursor) :
    c.drain.1 = (List.range c.drain.1.length).map c.answer ∧ c.drain.2 = c.later c.drain.1.length := by
  induction c using drain_induction with
  | ends c ends =>
    rw [drain_of_ends ends]
    exact ⟨rfl, rfl⟩
  | goes c goes ih =>
    rw [drain_of_goes goes, List.length_cons, answers_succ, later_succ, ← ih.1, ← ih.2]
    exact ⟨rfl, rfl⟩

/-- Every element of a stream but the last takes a character at least. -/
theorem length_drain_le (c : Cursor) : c.drain.1.length ≤ c.unread.length + 1 := by
  induction c using drain_induction with
  | ends c ends =>
    rw [drain_of_ends ends]
    exact Nat.le_add_left 1 _
  | goes c goes ih =>
    have shorter := next_length_lt_of_goes_on goes
    rw [drain_of_goes goes, List.length_cons]
    omega

theorem exists_final_of_drain (c : Cursor) : ∃ answer ∈ c.drain.1, Scanner.isFinal answer := by
  induction c using drain_induction with
  | ends c ends =>
    rw [drain_of_ends ends]
    exact ⟨_, List.mem_singleton_self _, ends⟩
  | goes c goes ih =>
    obtain ⟨answer, member, final⟩ := ih
    rw [drain_of_goes goes]
    exact ⟨answer, List.mem_cons_of_mem _ member, final⟩

end Cursor

namespace Scanner

theorem pulled_eq (s : Scanner) (count : Nat) : s.pulled count = { s with cursor := s.cursor.later count } := by
  induction count generalizing s with
  | zero => rfl
  | succ count ih =>
    have first : s.pulled (count + 1) = s.pull.2.pulled count := Function.iterate_succ_apply _ _ _
    rw [first, ih, Cursor.later_succ]
    rfl

theorem run_append (s : Scanner) (calls more : List Call) :
    s.run (calls ++ more) = ((s.run calls).1 ++ ((s.run calls).2.run more).1, ((s.run calls).2.run more).2) := by
  induction calls generalizing s with
  | nil => rfl
  | cons call calls ih => simp only [List.cons_append, run, ih, List.append_assoc]

theorem next?_of_finished {s : Scanner} (finished : s.finished) : s.next? = (none, s) := by
  rw [next?, if_pos finished]

theorem next?_of_unfinished {s : Scanner} (unfinished : s.finished = false) :
    s.next? = (some s.cursor.next.1, ⟨s.cursor.next.2, isFinal s.cursor.next.1⟩) := by
  rw [next?, unfinished]
  rfl

theorem drain_of_finished {s : Scanner} (finished : s.finished) : s.drain = ([], s) := by
  rw [drain, if_pos finished]

theorem drain_of_unfinished {s : Scanner} (unfinished : s.finished = false) :
    s.drain = (s.cursor.drain.1, ⟨s.cursor.drain.2, true⟩) := by
  rw [drain, unfinished]
  rfl

/-- A call answers the next part of the stream and moves the cursor behind it. -/
theorem reply_answers (s : Scanner) (call : Call) : ∃ count,
    (s.reply call).1.reduceOption = (List.range count).map s.cursor.answer ∧ (s.reply call).2.cursor = s.cursor.later count := by
  cases call with
  | pull => exact ⟨1, rfl, rfl⟩
  | next =>
    cases finished : s.finished with
    | true =>
      rw [reply, next?_of_finished finished]
      exact ⟨0, rfl, rfl⟩
    | false =>
      rw [reply, next?_of_unfinished finished]
      exact ⟨1, rfl, rfl⟩
  | drain =>
    cases finished : s.finished with
    | true =>
      rw [reply, drain_of_finished finished]
      exact ⟨0, rfl, rfl⟩
    | false =>
      obtain ⟨answers, moved⟩ := s.cursor.drain_answers
      rw [reply, drain_of_unfinished finished]
      refine ⟨s.cursor.drain.1.length, ?_, moved⟩
      rw [← answers]
      simp [List.reduceOption]

theorem run_answers (s : Scanner) (calls : List Call) :
    (s.run calls).1.reduceOption = (List.range (s.run calls).1.reduceOption.length).map s.cursor.answer ∧
      (s.run calls).2.cursor = s.cursor.later (s.run calls).1.reduceOption.length := by
  induction calls generalizing s with
  | nil => exact ⟨rfl, rfl⟩
  | cons call calls ih =>
    obtain ⟨count, first, moved⟩ := s.reply_answers call
    obtain ⟨others, further⟩ := ih (s.reply call).2
    rw [moved] at others further
    rw [run, List.reduceOption_append, List.length_append, first, List.length_map, List.length_range]
    constructor
    · rw [Cursor.answers_add, ← others]
    · rw [further, Cursor.later_add]

theorem finished_reply (s : Scanner) (call : Call) : (s.reply call).2.finished ↔ s.finished ∨ s.Closes call := by
  cases call with
  | pull => simp [reply, pull, Closes]
  | next =>
    cases finished : s.finished with
    | true => simp [Closes, reply, next?_of_finished, finished]
    | false => simp [Closes, reply, next?_of_unfinished, finished]
  | drain =>
    cases finished : s.finished with
    | true => simp [reply, drain_of_finished, finished]
    | false =>
      have ends := s.cursor.exists_final_of_drain
      simpa [Closes, reply, drain_of_unfinished, finished] using ends

theorem ended_cons (s : Scanner) (call : Call) (calls : List Call) :
    s.Ended (call :: calls) ↔ s.Closes call ∨ (s.reply call).2.Ended calls := by
  constructor
  · intro ended
    obtain ⟨before, closing, after, split, closes⟩ := ended
    cases before with
    | nil =>
      cases split
      exact .inl closes
    | cons first before =>
      cases split
      exact .inr ⟨before, closing, after, rfl, closes⟩
  · intro ended
    rcases ended with closes | ⟨before, closing, after, rfl, closes⟩
    · exact ⟨[], call, calls, rfl, closes⟩
    · exact ⟨call :: before, closing, after, rfl, closes⟩

theorem finished_run (s : Scanner) (calls : List Call) : (s.run calls).2.finished ↔ s.finished ∨ s.Ended calls := by
  induction calls generalizing s with
  | nil => simp [run, Ended]
  | cons call calls ih => rw [run, ih, finished_reply, ended_cons, or_assoc]

theorem run_next_of_unended (c : Cursor) :
    (Scanner.mk c false).run (List.replicate c.drain.1.length .next) = (c.drain.1.map some, ⟨c.drain.2, true⟩) := by
  induction c using Cursor.drain_induction with
  | ends c ends =>
    rw [Cursor.drain_of_ends ends]
    simp [run, reply, next?, ends]
  | goes c goes ih =>
    rw [Cursor.drain_of_goes goes]
    simp [run, List.replicate_succ, reply, next?, goes, ih]

theorem length_drain_le (s : Scanner) : s.drain.1.length ≤ s.cursor.unread.length + 1 := by
  cases finished : s.finished with
  | true =>
    rw [drain_of_finished finished]
    exact Nat.zero_le _
  | false =>
    rw [drain_of_unfinished finished]
    exact s.cursor.length_drain_le

theorem run_next (s : Scanner) :
    s.run (List.replicate s.drain.1.length .next ++ [.next]) = (s.drain.1.map some ++ [none], s.drain.2) := by
  cases finished : s.finished with
  | true => simp [drain_of_finished, finished, run, reply, next?_of_finished]
  | false =>
    obtain ⟨c, _⟩ := s
    cases finished
    rw [drain_of_unfinished rfl, run_append, run_next_of_unended]
    rfl

end Scanner

section Stream

variable (text : String)

theorem pulled_cursor (count : Nat) : ((Scanner.start text).pulled count).cursor = (Cursor.start text).later count :=
  congrArg Scanner.cursor (Scanner.pulled_eq _ count)

theorem stream_eq (i : Nat) : stream text i = (Cursor.start text).answer i := by
  rw [stream, Scanner.pulled_eq]
  rfl

theorem answered_eq (calls : List Call) :
    answered text calls = (List.range (answered text calls).length).map (stream text) := by
  have same : stream text = (Cursor.start text).answer := funext (stream_eq text)
  rw [same]
  exact (Scanner.run_answers _ calls).1

theorem reached_cursor (calls : List Call) :
    (reached text calls).cursor = (Cursor.start text).later (answered text calls).length :=
  (Scanner.run_answers _ calls).2

theorem reached_follows (calls : List Call) : ∃ read, (reached text calls).cursor.Follows text.toList read := by
  rw [reached_cursor]
  exact (Cursor.Follows.start text).later _

theorem next?_eq_none_iff (s : Scanner) : s.next?.1 = none ↔ s.finished := by
  cases finished : s.finished with
  | true => simp [Scanner.next?_of_finished, finished]
  | false => simp [Scanner.next?_of_unfinished, finished]

theorem stream_of_stays {i j : Nat} (le : i ≤ j) (stays : Answer.takes (stream text i) = false) :
    stream text j = stream text i ∧ (Cursor.start text).later (j + 1) = (Cursor.start text).later (i + 1) := by
  obtain ⟨more, rfl⟩ := Nat.exists_eq_add_of_le le
  rw [stream_eq, Cursor.answer] at stays
  have again := Cursor.later_of_stays stays more
  rw [stream_eq, stream_eq, Cursor.answer, Cursor.answer, Cursor.later_succ', Cursor.later_succ', Cursor.later_add, again]
  exact ⟨rfl, rfl⟩

end Stream

/-- However a scanner is asked, in whatever order, it answers one stream, at places that only move on. -/
theorem scanner_one_stream (text : String) : OneStream text where
  answers := answered_eq text
  cursor calls := by rw [reached_cursor, pulled_cursor]
  silent calls := by
    rw [next?_eq_none_iff, reached, Scanner.finished_run]
    simp [Scanner.start]
  still calls silent := by
    rw [next?_eq_none_iff] at silent
    rw [Scanner.next?_of_finished silent]
  unmarked calls := by
    refine ⟨?_, rfl⟩
    rw [Scanner.pull, reached_cursor, stream_eq]
    rfl
  forward calls call := by
    obtain ⟨count, -, moved⟩ := (reached text calls).reply_answers call
    rw [moved]
    exact Cursor.offset_le_later _ count
  inside calls := by
    obtain ⟨read, follows⟩ := reached_follows text calls
    rw [follows.position_eq, Position.offset_after_origin]
    exact ⟨utf8Len_le_of_split follows.text_eq, isValid_of_split follows.text_eq⟩
  taken i takes := by
    rw [stream_eq] at takes ⊢
    rw [pulled_cursor, pulled_cursor, Cursor.later_succ']
    exact Cursor.offset_of_takes takes
  repeated i j le stays := by
    rw [pulled_cursor, pulled_cursor]
    exact stream_of_stays text le stays
  stray i span found failed := by
    obtain ⟨read, follows⟩ := (Cursor.Follows.start text).later i
    obtain ⟨stretch, behind, scans⟩ := exists_scans ((Cursor.start text).later i)
    rw [stream_eq, Cursor.answer] at failed
    obtain ⟨split, covers⟩ := follows.covers scans
    have stands := scans.stands
    have stays := scans.rest_eq
    have start := congrArg Span.start scans.span
    rw [failed] at covers stands stays start
    obtain ⟨rfl, -⟩ := stands
    rw [pulled_cursor, Cursor.later_succ', stays]
    exact ⟨start.symm, _, behind, split, covers.start⟩
  drained calls := by
    obtain ⟨read, follows⟩ := reached_follows text calls
    refine ⟨Scanner.run_next _, read, (reached text calls).cursor.unread, follows.text_eq, ?_, ?_⟩
    · rw [follows.position_eq, Position.offset_after_origin]
    · exact Scanner.length_drain_le _

end DefunReader

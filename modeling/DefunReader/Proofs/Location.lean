import DefunReader.Proofs.Interleaving
import DefunReader.Proofs.Provenance
import DefunReader.Proofs.Viability

/-! Where tokens, problems and nodes are said to be, they are: each place is that of the stretch of text that its item stands
for, with the line and the column of where the stretch starts. -/
namespace DefunReader

/-- The span is the place of a stretch of the text. -/
structure Span.Shows (span : Span) (text : String) (before stretch behind : List Char) : Prop where
  split : text.toList = before ++ (stretch ++ behind)
  covers : span.Covers before stretch
  ordered : span.start.offset ≤ span.stop
  bounded : span.stop ≤ text.utf8ByteSize
  starts : String.Pos.Raw.IsValid text ⟨span.start.offset⟩
  stops : String.Pos.Raw.IsValid text ⟨span.stop⟩
  not_blank : ∀ c ∈ stretch, Text.isBlank c = false

def Answer.Located (text : String) (answer : Answer) : Prop :=
  ∃ before stretch behind, (Answer.span answer).Shows text before stretch behind ∧ Answer.StandsAt stretch behind answer

/-- The root stands for the first token, any other node for the token that it comes from. -/
def Tree.StandsFor (t : Tree) (id : Nat) (node : Node) (placed : Token.Placed) : Prop :=
  if id = root then node.span = placed.span ∧ placed.token = .leftParen else ∃ next, t.ComesFrom (placed, next) node

section Shows

variable {text : String} {span : Span} {before stretch behind : List Char}

theorem Span.Covers.shows (covers : span.Covers before stretch) (split : text.toList = before ++ (stretch ++ behind))
    (not_blank : ∀ c ∈ stretch, Text.isBlank c = false) : span.Shows text before stretch behind := by
  have whole : text.toList = (before ++ stretch) ++ behind := by rw [split, List.append_assoc]
  refine ⟨split, covers, ?_, ?_, ?_, ?_, not_blank⟩
  · rw [covers.start, covers.stop, String.utf8Len_append]
    exact Nat.le_add_right _ _
  · rw [covers.stop]
    exact utf8Len_le_of_split whole
  · rw [covers.start]
    exact isValid_of_split split
  · rw [covers.stop]
    exact isValid_of_split whole

end Shows

section Located

variable {text : String} {c : Cursor} {read : List Char} {answer : Answer} {placed : Token.Placed} {problem : Problem}

theorem located_of_follows (follows : c.Follows text.toList read) : Answer.Located text c.next.1 := by
  obtain ⟨stretch, behind, scans⟩ := exists_scans c
  obtain ⟨split, covers⟩ := follows.covers scans
  exact ⟨_, stretch, behind, covers.shows split scans.stands.not_blank, scans.stands⟩

theorem located_stream (text : String) (i : Nat) : Answer.Located text (stream text i) := by
  obtain ⟨read, follows⟩ := (Cursor.Follows.start text).later i
  rw [stream_eq]
  exact located_of_follows follows

theorem located_of_answered {calls : List Call} (member : answer ∈ answered text calls) : Answer.Located text answer := by
  rw [answered_eq] at member
  obtain ⟨i, -, rfl⟩ := List.mem_map.mp member
  exact located_stream text i

theorem located_of_drain (member : answer ∈ (Cursor.start text).drain.1) : Answer.Located text answer := by
  rw [(Cursor.start text).drain_answers.1] at member
  obtain ⟨i, -, rfl⟩ := List.mem_map.mp member
  rw [← stream_eq]
  exact located_stream text i

theorem located_of_tokenize_ok {tokens : List Token.Placed} (read : tokenize text = .ok tokens) (member : placed ∈ tokens) :
    Answer.Located text (.ok placed) := by
  apply located_of_drain
  rw [tokenize_eq_ok_iff.mp read]
  exact List.mem_map_of_mem member

theorem located_of_tokenize_error (failed : tokenize text = .error problem) : Answer.Located text (.error problem) := by
  obtain ⟨before, drained⟩ := tokenize_eq_error_iff.mp failed
  apply located_of_drain
  rw [drained]
  exact List.mem_append_right _ (List.mem_singleton_self _)

theorem located_of_parse_error {limit : Nat} (failed : parse text limit = .error problem) :
    Answer.Located text (.error problem) := by
  rcases failure_cases failed with ⟨before, drained⟩ | ⟨before, placed, more, expected, drained, ⟨within, rfl⟩, -⟩ |
    ⟨before, opening, placed, more, drained, rfl, overflows⟩
  · apply located_of_drain
    simp [drained]
  · have member : .ok placed ∈ (Cursor.start text).drain.1 := by simp [drained]
    obtain ⟨first, stretch, behind, shows, stands⟩ := located_of_drain member
    exact ⟨first, stretch, behind, shows, placed.token, rfl, stands⟩
  · have member : .ok opening ∈ (Cursor.start text).drain.1 := by simp [drained]
    obtain ⟨first, stretch, behind, shows, stands⟩ := located_of_drain member
    rw [Answer.StandsAt, overflows.paren] at stands
    exact ⟨first, stretch, behind, shows, stands⟩

end Located

theorem mem_of_mem_nodeTokens {tokens : List Token.Placed} {pair : Token.Placed × Token.Placed}
    (member : pair ∈ nodeTokens tokens) : pair.1 ∈ tokens := by
  have among := List.mem_of_mem_eraseIdx (List.mem_filter.mp member).1
  exact (List.of_mem_zip among).1

theorem standsFor_of_parse {text : String} {limit : Nat} {tree : Tree} (parsed : parse text limit = .ok tree) (id : Nat)
    (h : id < tree.size) : ∃ tokens, tokenize text = .ok tokens ∧ ∃ placed ∈ tokens, tree.StandsFor id (tree.node id h) placed := by
  obtain ⟨tokens, shape, read, derived, lists⟩ := program_of_parse parsed
  refine ⟨tokens, read, ?_⟩
  by_cases top : id = Tree.root
  · subst top
    cases derived with
    | intro named declared defined =>
      obtain ⟨_, found⟩ := lists.holds.node
      refine ⟨_, List.mem_cons_self, ?_⟩
      rw [Tree.StandsFor, if_pos rfl, found]
      exact ⟨rfl, rfl⟩
  · have traced := lists.traces derived
    obtain ⟨i, rfl⟩ := Nat.exists_eq_succ_of_ne_zero top
    have inside : i < tree.nodes.toList.tail.length := by
      rw [List.length_tail, Array.length_toList]
      exact Nat.lt_sub_of_add_lt h
    have inside' : i < (nodeTokens tokens).length := traced.length_eq ▸ inside
    have comes := traced.get inside' inside
    rw [List.get_eq_getElem, List.get_eq_getElem, List.getElem_tail, Array.getElem_toList] at comes
    refine ⟨(nodeTokens tokens)[i].1, mem_of_mem_nodeTokens (List.getElem_mem inside'), ?_⟩
    rw [Tree.StandsFor, if_neg top]
    exact ⟨_, comes⟩

section Order

variable (text : String)

theorem start_stream (i : Nat) : (Answer.span (stream text i)).start = ((Cursor.start text).later i).front := by
  obtain ⟨stretch, behind, scans⟩ := exists_scans ((Cursor.start text).later i)
  rw [stream_eq, Cursor.answer, scans.span]
  rfl

theorem stop_stream {i : Nat} (takes : Answer.takes (stream text i)) :
    (Answer.span (stream text i)).stop = ((Cursor.start text).later (i + 1)).position.offset := by
  rw [stream_eq] at takes ⊢
  rw [Cursor.later_succ']
  exact (Cursor.offset_of_takes takes).1.symm

theorem stop_le_start {i j : Nat} (takes : Answer.takes (stream text i)) (lt : i < j) :
    (Answer.span (stream text i)).stop ≤ (Answer.span (stream text j)).start.offset := by
  obtain ⟨more, rfl⟩ := Nat.exists_eq_add_of_le (Nat.succ_le_of_lt lt)
  rw [stop_stream text takes, start_stream]
  calc ((Cursor.start text).later (i + 1)).position.offset
    _ ≤ ((Cursor.start text).later (i + 1 + more)).position.offset := by
      rw [Cursor.later_add _ (i + 1) more]
      exact Cursor.offset_le_later _ more
    _ ≤ ((Cursor.start text).later (i + 1 + more)).front.offset := Position.offset_le_after _ _

theorem blank_between {i : Nat} (takes : Answer.takes (stream text i)) : ∃ gap,
    Text.cut text.toList (Answer.span (stream text i)).stop (Answer.span (stream text (i + 1))).start.offset = some gap ∧
      ∀ c ∈ gap, Text.isBlank c := by
  obtain ⟨read, follows⟩ := (Cursor.Follows.start text).later (i + 1)
  refine ⟨((Cursor.start text).later (i + 1)).unread.takeWhile Text.isBlank, ?_, fun _ => List.mem_takeWhile_imp⟩
  have front : ((Cursor.start text).later (i + 1)).front = _ := follows.skipBlanks.position_eq
  rw [stop_stream text takes, start_stream, front, follows.position_eq, Position.offset_after_origin,
    Position.offset_after_origin, follows.skipBlanks.text_eq, List.append_assoc]
  exact Text.cut_append read _ _

end Order

/-- Every token, problem and node that is reported for a text has the true place of what it stands for, and what a scanner
takes from the text lies in order, with only blanks between. -/
theorem reported_places (text : String) :
    (∀ calls, ∀ answer ∈ answered text calls, Answer.Located text answer) ∧
    (∀ limit problem, parse text limit = .error problem → Answer.Located text (.error problem)) ∧
    (∀ limit tree, parse text limit = .ok tree → ∀ id h, ∃ placed, tree.StandsFor id (tree.node id h) placed ∧
      Answer.Located text (.ok placed)) ∧
    ∀ i, Answer.takes (stream text i) →
      (∀ j, i < j → (Answer.span (stream text i)).stop ≤ (Answer.span (stream text j)).start.offset) ∧
      ∃ gap, Text.cut text.toList (Answer.span (stream text i)).stop (Answer.span (stream text (i + 1))).start.offset =
        some gap ∧ ∀ c ∈ gap, Text.isBlank c := by
  refine ⟨?_, ?_, ?_, ?_⟩
  · intro calls answer member
    exact located_of_answered member
  · intro limit problem failed
    exact located_of_parse_error failed
  · intro limit tree parsed id h
    obtain ⟨tokens, read, placed, member, standsFor⟩ := standsFor_of_parse parsed id h
    exact ⟨placed, standsFor, located_of_tokenize_ok read member⟩
  · intro i takes
    exact ⟨fun j lt => stop_le_start text takes lt, blank_between text takes⟩

end DefunReader

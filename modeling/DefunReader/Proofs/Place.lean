import DefunReader.Proofs.Scan
import DefunReader.Text.Cut
import Mathlib.Data.String.Basic

/-! The places of answers. Lines, columns and byte offsets are advanced one by one while a text is scanned; here they are
counted from the text itself. -/
namespace DefunReader

namespace Position

theorem offset_step (p : Position) (c : Char) : (p.step c).offset = p.offset + c.utf8Size := by
  unfold step
  split <;> rfl

theorem offset_after (p : Position) (text : List Char) : (p.after text).offset = p.offset + String.utf8Len text := by
  induction text generalizing p with
  | nil => rfl
  | cons c text ih =>
    rw [after_cons, ih, offset_step, String.utf8Len_cons]
    omega

theorem line_after (p : Position) (text : List Char) : (p.after text).line = p.line + text.count '\n' := by
  induction text generalizing p with
  | nil => rfl
  | cons c text ih =>
    rw [after_cons, ih, step, List.count_cons]
    by_cases newline : c = '\n'
    · simp only [newline, ↓reduceIte, beq_self_eq_true]
      omega
    · simp [newline]

theorem column_after (text : List Char) : (origin.after text).column = 1 + (text.reverse.takeWhile (· ≠ '\n')).length := by
  induction text using List.reverseRecOn with
  | nil => rfl
  | append_singleton text c ih =>
    rw [after_append, after_cons, after_nil, step, List.reverse_append]
    by_cases newline : c = '\n'
    · simp [newline]
    · have last : ([c].reverse ++ text.reverse).takeWhile (· ≠ '\n') = c :: text.reverse.takeWhile (· ≠ '\n') := by
        simp [newline]
      rw [if_neg newline, ih, last, List.length_cons, Nat.add_assoc]

theorem offset_after_origin (text : List Char) : (origin.after text).offset = String.utf8Len text := by
  rw [offset_after, origin, Nat.zero_add]

end Position

/-- The span is that of a stretch of the text: its bytes, and line and column of where it starts. -/
structure Span.Covers (span : Span) (before stretch : List Char) : Prop where
  start : span.start.offset = String.utf8Len before
  stop : span.stop = String.utf8Len (before ++ stretch)
  line : span.start.line = 1 + before.count '\n'
  column : span.start.column = 1 + (before.reverse.takeWhile (· ≠ '\n')).length

theorem Span.covers_between (before stretch : List Char) :
    (Span.between (Position.origin.after before) ((Position.origin.after before).after stretch)).Covers before stretch where
  start := Position.offset_after_origin before
  stop := by
    rw [between, ← Position.after_append]
    exact Position.offset_after_origin _
  line := Position.line_after _ before
  column := Position.column_after before

theorem Span.Covers.unique {span span' : Span} {before stretch : List Char} (covers : span.Covers before stretch)
    (covers' : span'.Covers before stretch) : span = span' := by
  rcases span with ⟨⟨line, column, offset⟩, stop⟩
  rcases span' with ⟨⟨line', column', offset'⟩, stop'⟩
  simp only [Span.mk.injEq, Position.mk.injEq]
  exact ⟨⟨covers.line.trans covers'.line.symm, covers.column.trans covers'.column.symm,
    covers.start.trans covers'.start.symm⟩, covers.stop.trans covers'.stop.symm⟩

section Boundaries

variable {text : String} {before behind : List Char}

theorem utf8Len_toList (text : String) : String.utf8Len text.toList = text.utf8ByteSize := by
  rw [← String.utf8ByteSize_ofList, String.ofList_toList]

theorem isValid_of_split (split : text.toList = before ++ behind) : String.Pos.Raw.IsValid text ⟨String.utf8Len before⟩ := by
  apply String.Pos.Raw.isValid_iff_exists_append.mpr
  refine ⟨String.ofList before, String.ofList behind, ?_, ?_⟩
  · rw [← String.ofList_append, ← split, String.ofList_toList]
  · rw [String.rawEndPos, String.utf8ByteSize_ofList]

theorem utf8Len_le_of_split (split : text.toList = before ++ behind) : String.utf8Len before ≤ text.utf8ByteSize := by
  rw [← utf8Len_toList, split, String.utf8Len_append]
  exact Nat.le_add_right _ _

end Boundaries

theorem exists_utf8Len_cons (c : Char) (text : List Char) : ∃ n, String.utf8Len (c :: text) = n + 1 ∧
    c.utf8Size ≤ n + 1 ∧ n + 1 - c.utf8Size = String.utf8Len text := by
  have positive := c.utf8Size_pos
  refine ⟨String.utf8Len text + c.utf8Size - 1, ?_⟩
  rw [String.utf8Len_cons]
  omega

theorem Text.dropBytes_append (before behind : List Char) :
    Text.dropBytes (String.utf8Len before) (before ++ behind) = some behind := by
  induction before with
  | nil => rw [String.utf8Len_nil, List.nil_append, dropBytes]
  | cons c before ih =>
    obtain ⟨n, length, fits, left⟩ := exists_utf8Len_cons c before
    rw [length, List.cons_append, dropBytes, if_pos fits, left, ih]

theorem Text.takeBytes_append (stretch behind : List Char) :
    Text.takeBytes (String.utf8Len stretch) (stretch ++ behind) = some stretch := by
  induction stretch with
  | nil => rw [String.utf8Len_nil, takeBytes]
  | cons c stretch ih =>
    obtain ⟨n, length, fits, left⟩ := exists_utf8Len_cons c stretch
    rw [length, List.cons_append, takeBytes, if_pos fits, left, ih]
    rfl

theorem Text.cut_append (before stretch behind : List Char) :
    Text.cut (before ++ (stretch ++ behind)) (String.utf8Len before) (String.utf8Len (before ++ stretch)) = some stretch := by
  rw [cut, String.utf8Len_append, if_pos (Nat.le_add_right _ _), dropBytes_append, Nat.add_sub_cancel_left]
  exact takeBytes_append stretch behind

theorem Text.split_unique {before behind before' behind' : List Char} (same : before ++ behind = before' ++ behind')
    (length : String.utf8Len before = String.utf8Len before') : before = before' ∧ behind = behind' := by
  have front := Text.cut_append [] before behind
  have front' := Text.cut_append [] before' behind'
  simp only [List.nil_append] at front front'
  rw [same, length] at front
  cases front.symm.trans front'
  exact ⟨rfl, List.append_cancel_left same⟩

/-- The cursor stands behind what was read of the text. -/
structure Cursor.Follows (c : Cursor) (text read : List Char) : Prop where
  text_eq : text = read ++ c.unread
  position_eq : c.position = Position.origin.after read

namespace Cursor.Follows

variable {c rest : Cursor} {text read stretch behind : List Char} {answer : Answer}

theorem start (text : String) : (Cursor.start text).Follows text.toList [] := ⟨rfl, rfl⟩

theorem skipBlanks (follows : c.Follows text read) :
    c.skipBlanks.Follows text (read ++ c.unread.takeWhile Text.isBlank) where
  text_eq := by
    rw [follows.text_eq, List.append_assoc, Cursor.skipBlanks, List.takeWhile_append_dropWhile]
  position_eq := by
    rw [Position.after_append, ← follows.position_eq, Cursor.skipBlanks]

/-- The span of an answer is that of its stretch, behind what was read and the blanks. -/
theorem covers (follows : c.Follows text read) (scans : Scans c answer rest stretch behind) :
    text = read ++ c.unread.takeWhile Text.isBlank ++ (stretch ++ behind) ∧
      (Answer.span answer).Covers (read ++ c.unread.takeWhile Text.isBlank) stretch := by
  constructor
  · rw [follows.skipBlanks.text_eq, scans.unread]
  · have front : c.front = Position.origin.after (read ++ c.unread.takeWhile Text.isBlank) := follows.skipBlanks.position_eq
    rw [scans.span, front]
    exact Span.covers_between _ stretch

theorem next (follows : c.Follows text read) (scans : Scans c answer rest stretch behind) :
    rest.Follows text (if Answer.takes answer then read ++ c.unread.takeWhile Text.isBlank ++ stretch
      else read ++ c.unread.takeWhile Text.isBlank) := by
  rw [scans.rest_eq]
  split
  · constructor
    · rw [follows.skipBlanks.text_eq, scans.unread, List.append_assoc _ stretch]
    · rw [Position.after_append, ← follows.skipBlanks.position_eq]
      rfl
  · exact follows.skipBlanks

end Cursor.Follows

end DefunReader

import DefunReader.Proofs.Stream
import Mathlib.Data.List.Chain

/-! A text as blanks and lexemes in turn. Scanning a text finds the one decomposition in which blanks stand wherever
two neighbours would be read as one. -/
namespace DefunReader

structure Piece where
  lexeme : List Char
  token : Token
  gap : List Char

namespace Piece

def text (p : Piece) : List Char :=
  p.lexeme ++ p.gap

/-- Whether the next lexeme would be read into this one. -/
def Runs (p q : Piece) : Prop :=
  ∃ next ∈ q.lexeme.head?, Merges p.lexeme p.token next

end Piece

structure Decomposition (text lead : List Char) (pieces : List Piece) : Prop where
  text_eq : text = lead ++ pieces.flatMap Piece.text
  lead_blank : ∀ c ∈ lead, Text.isBlank c
  gap_blank : ∀ p ∈ pieces, ∀ c ∈ p.gap, Text.isBlank c
  spelled : ∀ p ∈ pieces, Lexeme p.lexeme p.token
  apart : pieces.IsChain fun p q => p.Runs q → p.gap ≠ []

def place (p : Position) : List Piece → List Token.Placed
  | [] => [⟨.finish, .between p p⟩]
  | piece :: pieces =>
    let stop := p.after piece.lexeme
    ⟨piece.token, .between p stop⟩ :: place (stop.after piece.gap) pieces

theorem map_token_place (p : Position) (pieces : List Piece) :
    (place p pieces).map Token.Placed.token = pieces.map Piece.token ++ [.finish] := by
  induction pieces generalizing p with
  | nil => rfl
  | cons piece pieces ih => simp only [place, List.map_cons, ih, List.cons_append]

theorem not_blank_of_isSubsequent {c : Char} (subsequent : isSubsequent c) : Text.isBlank c = false := by
  apply Bool.eq_false_iff.mpr
  intro blank
  have := isSubsequent_range subsequent
  have := isBlank_range blank
  omega

theorem Lexeme.not_blank {lexeme : List Char} {token : Token} (spelled : Lexeme lexeme token) :
    ∃ first tail, lexeme = first :: tail ∧ Text.isBlank first = false := by
  cases spelled with
  | natural some decimal =>
    obtain ⟨first, tail, rfl⟩ := List.exists_cons_of_ne_nil some
    exact ⟨first, tail, rfl, not_blank_of_isSubsequent (by simp [isSubsequent, decimal first List.mem_cons_self])⟩
  | sign signs => exact ⟨_, _, rfl, by rcases signs with rfl | rfl <;> rfl⟩
  | identifier initial => exact ⟨_, _, rfl, not_blank_of_isSubsequent (by simp [isSubsequent, initial])⟩
  | _ => exact ⟨_, _, rfl, rfl⟩

theorem isBlank_not_merges {lexeme : List Char} {token : Token} {next : Char} (blank : Text.isBlank next) :
    ¬Merges lexeme token next := by
  have outside := isBlank_range blank
  intro merges
  rcases merges with ⟨-, more⟩ | ⟨-, digit⟩
  · have := isSubsequent_range more
    omega
  · have := isDigit_range digit
    omega

namespace Decomposition

variable {text lead : List Char} {piece : Piece} {pieces : List Piece}

theorem tail (d : Decomposition text lead (piece :: pieces)) :
    Decomposition (piece.gap ++ pieces.flatMap Piece.text) piece.gap pieces where
  text_eq := rfl
  lead_blank := d.gap_blank piece List.mem_cons_self
  gap_blank p member := d.gap_blank p (.tail _ member)
  spelled p member := d.spelled p (.tail _ member)
  apart := d.apart.tail

theorem stops (d : Decomposition text lead (piece :: pieces)) :
    ∀ next ∈ (piece.gap ++ pieces.flatMap Piece.text).head?, ¬Merges piece.lexeme piece.token next := by
  intro next member
  cases gap : piece.gap with
  | cons blank gap' =>
    rw [gap] at member
    cases member
    exact isBlank_not_merges (d.gap_blank piece List.mem_cons_self _ (by simp [gap]))
  | nil =>
    cases pieces with
    | nil => simp [gap] at member
    | cons second pieces =>
      intro merges
      obtain ⟨first, tail, spelled, -⟩ := (d.spelled second (by simp)).not_blank
      refine (List.isChain_cons_cons.mp d.apart).1 ⟨next, ?_, merges⟩ gap
      simpa [gap, Piece.text, spelled] using member

theorem cons {behind lexeme gap : List Char} {token : Token} (d : Decomposition behind gap pieces)
    (longest : Longest lexeme token behind) (lead_blank : ∀ c ∈ lead, Text.isBlank c) :
    Decomposition (lead ++ (lexeme ++ behind)) lead (⟨lexeme, token, gap⟩ :: pieces) where
  text_eq := by simp only [d.text_eq, List.flatMap_cons, Piece.text, List.append_assoc]
  lead_blank := lead_blank
  gap_blank := List.forall_mem_cons.mpr ⟨d.lead_blank, d.gap_blank⟩
  spelled := List.forall_mem_cons.mpr ⟨longest.spelled, d.spelled⟩
  apart := by
    cases pieces with
    | nil => exact .singleton _
    | cons second pieces =>
      apply List.isChain_cons_cons.mpr ⟨?_, d.apart⟩
      intro runs (joined : gap = [])
      obtain ⟨next, member, merges⟩ := runs
      obtain ⟨first, tail, cut, -⟩ := (d.spelled second List.mem_cons_self).not_blank
      apply longest.apart next _ merges
      rw [d.text_eq, joined]
      simpa [Piece.text, cut] using member

theorem lead_eq (d : Decomposition text lead pieces) :
    text.takeWhile Text.isBlank = lead ∧ text.dropWhile Text.isBlank = pieces.flatMap Piece.text := by
  rw [d.text_eq]
  apply split_run d.lead_blank
  intro next member
  cases pieces with
  | nil => cases member
  | cons piece pieces =>
    obtain ⟨first, tail, spelled, proper⟩ := (d.spelled piece List.mem_cons_self).not_blank
    simp only [List.flatMap_cons, Piece.text, spelled, List.cons_append, List.head?_cons, Option.mem_def,
      Option.some.injEq] at member
    simp [← member, proper]

theorem front (d : Decomposition text lead (piece :: pieces)) :
    Front.of (text.dropWhile Text.isBlank) =
      .token piece.lexeme piece.token (piece.gap ++ pieces.flatMap Piece.text) := by
  rw [d.lead_eq.2, List.flatMap_cons, Piece.text, List.append_assoc]
  exact front_of_longest ⟨d.spelled piece List.mem_cons_self, d.stops⟩

theorem unique {other : List Char} {others : List Piece} (d : Decomposition text lead pieces)
    (d' : Decomposition text other others) : lead = other ∧ pieces = others := by
  refine ⟨d.lead_eq.1.symm.trans d'.lead_eq.1, ?_⟩
  induction pieces generalizing text lead other others with
  | nil =>
    cases others with
    | nil => rfl
    | cons piece others =>
      have front := d'.front
      rw [d.lead_eq.2] at front
      cases front
  | cons piece pieces ih =>
    cases others with
    | nil =>
      have front := d.front
      rw [d'.lead_eq.2] at front
      cases front
    | cons piece' others =>
      have same := d.front.symm.trans d'.front
      simp only [Front.token.injEq] at same
      obtain ⟨lexeme, token, rest⟩ := same
      have further := d'.tail
      rw [← rest] at further
      have gap := d.tail.lead_eq.1.symm.trans further.lead_eq.1
      rw [ih d.tail further]
      congr
      cases piece
      cases piece'
      simp_all

theorem drain (d : Decomposition text lead pieces) (position : Position) :
    (Cursor.mk position text).drain.1 = (place (position.after lead) pieces).map .ok := by
  induction pieces generalizing text lead position with
  | nil =>
    rw [Cursor.drain_of_ok (Cursor.next_of_nothing d.lead_eq.2), Cursor.front, d.lead_eq.1]
    rfl
  | cons piece pieces ih =>
    rw [Cursor.drain_of_ok (Cursor.next_of_token d.front), Cursor.front, d.lead_eq.1,
      if_neg (d.spelled piece List.mem_cons_self).ne_finish, ih d.tail]
    rfl

theorem of_drain {c : Cursor} {tokens : List Token.Placed} (drained : c.drain.1 = tokens.map .ok) :
    ∃ lead pieces, Decomposition c.unread lead pieces ∧ tokens = place (c.position.after lead) pieces := by
  induction tokens generalizing c with
  | nil => exact absurd drained c.drain_ne_nil
  | cons placed tokens ih =>
    obtain ⟨rest, found, behind⟩ := Cursor.next_of_drain drained
    have split := List.takeWhile_append_dropWhile (p := Text.isBlank) (l := c.unread)
    have lead_blank : ∀ d ∈ c.unread.takeWhile Text.isBlank, Text.isBlank d := fun _ => List.mem_takeWhile_imp
    rcases Cursor.next_ok_cases found with ⟨nothing, rfl, rfl⟩ | ⟨lexeme, token, unread, front, rfl, rfl⟩
    · rw [if_pos rfl] at behind
      cases List.map_eq_nil_iff.mp behind
      rw [nothing] at split
      exact ⟨_, [], ⟨split.symm, lead_blank, nofun, nofun, .nil⟩, rfl⟩
    · obtain ⟨unread_eq, longest⟩ := front_iff_longest.mp front
      rw [if_neg longest.spelled.ne_finish] at behind
      obtain ⟨gap, pieces, d, rfl⟩ := ih behind.symm
      have whole := d.cons longest lead_blank
      rw [← unread_eq, split] at whole
      exact ⟨_, _, whole, rfl⟩

end Decomposition

/-- Scanning succeeds exactly on the texts that decompose, and answers the lexemes' tokens at their places. -/
theorem tokenize_iff_decomposition (text : String) :
    (∀ tokens : List Token, (∃ placed, tokenize text = .ok placed ∧ placed.map Token.Placed.token = tokens ++ [.finish]) ↔
      ∃ lead pieces, Decomposition text.toList lead pieces ∧ pieces.map Piece.token = tokens) ∧
    ∀ lead pieces, Decomposition text.toList lead pieces →
      tokenize text = .ok (place (Position.origin.after lead) pieces) ∧
      ∀ other others, Decomposition text.toList other others → other = lead ∧ others = pieces := by
  have complete (lead pieces) (d : Decomposition text.toList lead pieces) :
      tokenize text = .ok (place (Position.origin.after lead) pieces) :=
    tokenize_eq_ok_iff.mpr (d.drain Position.origin)
  constructor
  · intro tokens
    constructor
    · intro scanned
      obtain ⟨placed, scanned, same⟩ := scanned
      obtain ⟨lead, pieces, d, rfl⟩ := Decomposition.of_drain (tokenize_eq_ok_iff.mp scanned)
      rw [map_token_place] at same
      exact ⟨lead, pieces, d, List.append_cancel_right same⟩
    · intro decomposes
      obtain ⟨lead, pieces, d, rfl⟩ := decomposes
      exact ⟨_, complete lead pieces d, map_token_place ..⟩
  · intro lead pieces d
    exact ⟨complete lead pieces d, fun _ _ other => other.unique d⟩

end DefunReader

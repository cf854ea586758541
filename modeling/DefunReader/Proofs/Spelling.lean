import DefunReader.Node
import DefunReader.Proofs.Decomposition

/-! Texts that spell tokens, with blanks around them in any layout. Scanning such a text gives the tokens back. -/
namespace DefunReader

/-- How a token is written: leaves as values are shown, the others by their signs and words. -/
def Token.spelling : Token → String
  | leftParen => "("
  | rightParen => ")"
  | number n => (Node.Value.number n).text
  | boolean b => (Node.Value.boolean b).text
  | identifier name => (Node.Value.name name).text
  | ifWord => "if"
  | defunWord => "defun"
  | quote true => "'"
  | quote false => "quote"
  | finish => ""

def Token.Spelled (token : Token) : Prop :=
  Lexeme token.spelling.toList token

/-- A text that spells tokens in order, with blanks before, between and behind them. Neighbours may touch where they are
not read as one, so they may do anything once a blank stands between them. -/
inductive Layout : List Token → List Char → Prop
  | nil {gap} (blank : ∀ c ∈ gap, Text.isBlank c) : Layout [] gap
  | cons {gap token tokens behind} (blank : ∀ c ∈ gap, Text.isBlank c)
      (apart : ∀ next ∈ behind.head?, ¬Merges token.spelling.toList token next) (rest : Layout tokens behind) :
      Layout (token :: tokens) (gap ++ (token.spelling.toList ++ behind))

/-- A blank between two tokens keeps them apart, whatever they are. -/
theorem Layout.cons_blank {gap behind : List Char} {token : Token} {tokens : List Token} (blank : ∀ c ∈ gap, Text.isBlank c)
    (space : ∀ next ∈ behind.head?, Text.isBlank next) (rest : Layout tokens behind) :
    Layout (token :: tokens) (gap ++ (token.spelling.toList ++ behind)) :=
  .cons blank (fun next member => isBlank_not_merges (space next member)) rest

theorem Layout.spaced : (tokens : List Token) → Layout tokens (tokens.flatMap fun token => ' ' :: token.spelling.toList)
  | [] => .nil nofun
  | token :: tokens => by
    have space : Text.isBlank ' ' := by decide +kernel
    refine .cons_blank (List.forall_mem_singleton.mpr space) ?_ (Layout.spaced tokens)
    intro next member
    cases tokens with
    | nil => cases member
    | cons =>
      cases member
      exact space

theorem lexeme_of_number (n : Int64) : Lexeme (Numeral.text n).toList (.number n) := by
  have decimal (m : Nat) : ∀ c ∈ Nat.toDigits 10 m, c.isDigit := by
    intro c member
    exact Nat.isDigit_of_mem_toDigits (by decide) (by decide) member
  rw [Numeral.text, Int.repr_eq_if]
  split
  · rw [Nat.toList_repr]
    apply Lexeme.natural Nat.toDigits_ne_nil (decimal _)
    rw [Nat.ofDigitChars_ten_toDigits, Int.toNat_of_nonneg ‹_›]
  · rw [String.toList_append, Nat.toList_repr]
    apply Lexeme.negative Nat.toDigits_ne_nil (decimal _)
    rw [Nat.ofDigitChars_ten_toDigits, Int.toNat_of_nonneg (by omega), Int.neg_neg]

theorem lexeme_of_boolean (b : Bool) : Lexeme (Token.booleanText b).toList (.boolean b) := by
  cases b with
  | false => exact .no
  | true => exact .yes

theorem Layout.decomposition {tokens : List Token} {text : List Char} (layout : Layout tokens text)
    (spelled : ∀ token ∈ tokens, token.Spelled) :
    ∃ lead pieces, Decomposition text lead pieces ∧ pieces.map Piece.token = tokens := by
  induction layout with
  | nil blank => exact ⟨_, [], ⟨(List.append_nil _).symm, blank, nofun, nofun, .nil⟩, rfl⟩
  | cons blank apart rest ih =>
    obtain ⟨first, others⟩ := List.forall_mem_cons.mp spelled
    obtain ⟨lead, pieces, d, rfl⟩ := ih others
    exact ⟨_, _, d.cons ⟨first, apart⟩ blank, rfl⟩

theorem tokenize_of_layout {tokens : List Token} {text : String} (layout : Layout tokens text.toList)
    (spelled : ∀ token ∈ tokens, token.Spelled) :
    ∃ placed, tokenize text = .ok placed ∧ placed.map Token.Placed.token = tokens ++ [.finish] := by
  obtain ⟨lead, pieces, d, rfl⟩ := layout.decomposition spelled
  exact ⟨_, tokenize_eq_ok_iff.mpr (d.drain .origin), map_token_place ..⟩

end DefunReader

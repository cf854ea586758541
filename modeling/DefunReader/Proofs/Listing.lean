import DefunReader.Proofs.Consistency
import DefunReader.Proofs.Faithful
import DefunReader.Proofs.Readback

/-! Listings of tokens can be read back. A line is split behind the digits of the column, where a blank stands however long
the place is, and tokens have texts of their own; only byte offsets are not shown. -/
namespace DefunReader

theorem Numeral.text_injective : Function.Injective Numeral.text := by
  intro n n' same
  have spelled := lexeme_of_number n
  rw [same] at spelled
  exact Token.number.inj (spelled.unique (lexeme_of_number n'))

namespace Token

def payload? : Token → Option String
  | number n => some (Numeral.text n)
  | boolean b => some (booleanText b)
  | identifier name => some name
  | quote abbreviated => if abbreviated then some "'" else none
  | leftParen | rightParen | ifWord | defunWord | finish => none

def enclosed : Option String → List Char
  | some payload => '(' :: (payload.toList ++ [')'])
  | none => []

variable {token : Token}

theorem toList_text (token : Token) : token.text.toList = token.kind.name.toList ++ enclosed token.payload? := by
  cases token with
  | number n =>
    change ("NUMBER(" ++ Numeral.text n ++ ")").toList = "NUMBER".toList ++ '(' :: ((Numeral.text n).toList ++ [')'])
    simp
  | boolean b =>
    change ("BOOLEAN(" ++ booleanText b ++ ")").toList = "BOOLEAN".toList ++ '(' :: ((booleanText b).toList ++ [')'])
    simp
  | identifier name =>
    change ("IDENTIFIER(" ++ name ++ ")").toList = "IDENTIFIER".toList ++ '(' :: (name.toList ++ [')'])
    simp
  | quote abbreviated => cases abbreviated <;> rfl
  | _ => rfl

theorem Kind.name_injective : Function.Injective Kind.name := by
  intro kind kind' same
  cases kind <;> cases kind' <;> simp_all [name]

theorem enclosed_injective : Function.Injective enclosed := by
  intro payload payload' same
  cases payload <;> cases payload' <;> simp_all [enclosed, String.toList_inj]

theorem booleanText_injective : Function.Injective booleanText := by
  intro b b' same
  cases b <;> cases b' <;> simp_all [booleanText]

theorem eq_of_payload {token' : Token} (kinds : token.kind = token'.kind) (payloads : token.payload? = token'.payload?) :
    token = token' := by
  cases token with
  | number n =>
    cases token' <;> cases kinds
    exact congrArg number (Numeral.text_injective (Option.some.inj payloads))
  | boolean b =>
    cases token' <;> cases kinds
    exact congrArg boolean (booleanText_injective (Option.some.inj payloads))
  | identifier name =>
    cases token' <;> cases kinds
    exact congrArg identifier (Option.some.inj payloads)
  | quote abbreviated =>
    cases token' <;> cases kinds
    rename_i abbreviated'
    cases abbreviated <;> cases abbreviated' <;> simp_all [payload?]
  | _ =>
    cases token' <;> cases kinds
    rfl

/-- The name of the kind ends at the first parenthesis, or with the text. -/
theorem text_injective : Function.Injective text := by
  intro token token' same
  have plain (kind : Kind) : ∀ c ∈ kind.name.toList, c != '(' := by
    cases kind <;> simp [Kind.name]
  have stops (payload : Option String) : ∀ next ∈ (enclosed payload).head?, ¬(next != '(') := by
    cases payload <;> simp [enclosed]
  have characters := congrArg String.toList same
  rw [toList_text, toList_text] at characters
  obtain ⟨names, payloads⟩ := runs_unique (plain _) (plain _) (stops _) (stops _) characters
  exact eq_of_payload (Kind.name_injective (String.toList_injective names)) (enclosed_injective payloads)

theorem head_text (token : Token) : ∀ next ∈ token.text.toList.head?, ¬next == ' ' := by
  rw [toList_text]
  cases token.kind <;> simp [Kind.name]

theorem Named.newline_not_mem_text (named : token.Named) : '\n' ∉ token.text.toList := by
  have payload : '\n' ∉ enclosed token.payload? := by
    cases token with
    | number n => simp [payload?, enclosed, (lexeme_of_number n).newline_not_mem]
    | boolean b => simp [payload?, enclosed, (lexeme_of_boolean b).newline_not_mem]
    | identifier name => simp [payload?, enclosed, (named name rfl).newline_not_mem]
    | quote abbreviated => cases abbreviated <;> simp [payload?, enclosed]
    | _ => simp [payload?, enclosed]
  simp [toList_text, payload]

/-- The tokens differ in nothing but byte offsets. -/
structure Placed.Agrees (placed other : Placed) : Prop where
  token : placed.token = other.token
  line : placed.span.start.line = other.span.start.line
  column : placed.span.start.column = other.span.start.column

end Token

namespace Listing

open Token (Placed)

variable {placed placed' : Placed}

theorem toList_line (placed : Placed) : (line placed).toList = placed.span.start.text.toList ++
    (List.replicate (8 - placed.span.start.text.length + 1) ' ' ++ placed.token.text.toList) := by
  simp [line, padRight, Span.text, List.replicate_succ']

example : line ⟨.identifier "LPAREN", ⟨⟨123456, 78, 0⟩, 6⟩⟩ = "123456:78 IDENTIFIER(LPAREN)" := by
  decide +kernel

theorem agrees_of_line (same : line placed = line placed') : placed.Agrees placed' := by
  have characters := congrArg String.toList same
  rw [toList_line, toList_line] at characters
  obtain ⟨line, column, behind⟩ := Position.text_unique (by simp [List.replicate_succ]) (by simp [List.replicate_succ]) characters
  obtain ⟨-, texts⟩ := Text.blanks_unique placed.token.head_text placed'.token.head_text behind
  exact ⟨Token.text_injective (String.toList_injective texts), line, column⟩

theorem newline_not_mem_line (named : placed.token.Named) : '\n' ∉ (line placed).toList := by
  simp [toList_line, named.newline_not_mem_text, List.mem_replicate]

theorem newline_not_mem_lines {source : String} {tokens : List Placed} (read : tokenize source = .ok tokens) :
    ∀ text ∈ tokens.map line, '\n' ∉ text.toList := by
  intro text member
  obtain ⟨placed, listed, rfl⟩ := List.mem_map.mp member
  exact newline_not_mem_line (named_of_tokenize read placed listed)

end Listing

theorem finish_last_of_tokenize {source : String} {tokens : List Token.Placed} (read : tokenize source = .ok tokens) :
    ∃ words, tokens.map Token.Placed.token = words ++ [.finish] ∧ Token.finish ∉ words := by
  obtain ⟨lead, pieces, d, rfl⟩ := Decomposition.of_drain (tokenize_eq_ok_iff.mp read)
  refine ⟨_, map_token_place .., ?_⟩
  intro member
  obtain ⟨piece, listed, finish⟩ := List.mem_map.mp member
  exact (d.spelled piece listed).ne_finish finish

theorem Task.exists_of_listed {name source : String} (done : (tokens.run name source).status = 0) :
    ∃ placed, tokenize source = .ok placed ∧ (tokens.run name source).stdout = Listing.text placed := by
  cases read : tokenize source with
  | ok placed =>
    refine ⟨placed, rfl, ?_⟩
    rw [run, answer, read, Except.map]
  | error problem =>
    have stops : tokens.Stops source problem := read
    cases done.symm.trans (status_of_stops name stops)

/-- A listing has a line for every token, the end of the text last; and texts that have the same listing have the same
tokens but for byte offsets. -/
theorem listing_determines_tokens {name source : String} (done : (Task.tokens.run name source).status = 0) :
    ∃ tokens, tokenize source = .ok tokens ∧
      ((Task.tokens.run name source).stdout.toList = tokens.flatMap fun placed => (Listing.line placed).toList ++ ['\n']) ∧
      (∀ placed ∈ tokens, '\n' ∉ (Listing.line placed).toList) ∧
      (∃ words, tokens.map Token.Placed.token = words ++ [.finish] ∧ Token.finish ∉ words) ∧
      ∀ name' source', (Task.tokens.run name' source').status = 0 →
        (Task.tokens.run name source).stdout = (Task.tokens.run name' source').stdout →
        ∃ tokens', tokenize source' = .ok tokens' ∧ List.Forall₂ Token.Placed.Agrees tokens tokens' := by
  obtain ⟨tokens, read, listed⟩ := Task.exists_of_listed done
  have single := Listing.newline_not_mem_lines read
  refine ⟨tokens, read, ?_, by simpa using single, finish_last_of_tokenize read, ?_⟩
  · rw [listed, Listing.text, Text.toList_unlines, List.flatMap_map]
  · intro name' source' done' same
    obtain ⟨tokens', read', listed'⟩ := Task.exists_of_listed done'
    rw [listed, listed', Listing.text, Listing.text] at same
    have lines := Text.unlines_injective single (Listing.newline_not_mem_lines read') same
    rw [← List.forall₂_eq_eq_eq, List.forall₂_map_left_iff, List.forall₂_map_right_iff] at lines
    exact ⟨tokens', read', lines.imp fun _ _ => Listing.agrees_of_line⟩

theorem listing_determines_tokens_words : (Task.tokens.run "<stdin>" "END (LPAREN '-1").status = 0 ∧
    ∃ tokens, tokenize "END (LPAREN '-1" = .ok tokens ∧
      ((Task.tokens.run "<stdin>" "END (LPAREN '-1").stdout.toList =
        tokens.flatMap fun placed => (Listing.line placed).toList ++ ['\n']) ∧
      (∀ placed ∈ tokens, '\n' ∉ (Listing.line placed).toList) ∧
      (∃ words, tokens.map Token.Placed.token = words ++ [.finish] ∧ Token.finish ∉ words) ∧
      ∀ name' source', (Task.tokens.run name' source').status = 0 →
        (Task.tokens.run "<stdin>" "END (LPAREN '-1").stdout = (Task.tokens.run name' source').stdout →
        ∃ tokens', tokenize source' = .ok tokens' ∧ List.Forall₂ Token.Placed.Agrees tokens tokens' := by
  have done : (Task.tokens.run "<stdin>" "END (LPAREN '-1").status = 0 := by decide +kernel
  exact ⟨done, listing_determines_tokens done⟩

end DefunReader

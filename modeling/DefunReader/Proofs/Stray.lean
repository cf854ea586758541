import DefunReader.Proofs.Location
import DefunReader.Proofs.Resumption

/-! Where scanning meets a stray character: behind a text that it reads as a whole, at a character that starts no token and
that no word goes on with. So there is one such place at most, and nothing behind it matters. -/
namespace DefunReader

def Token.isWord : Token → Bool
  | identifier _ | ifWord | defunWord | quote false => true
  | _ => false

/-- The last of the tokens is a word, starts with an initial character and ends where the text ends. -/
def EndsInWord (text : List Char) (tokens : List Token.Placed) : Prop :=
  ∃ placed ∈ tokens, placed.token.isWord ∧ placed.span.stop = String.utf8Len text ∧
    ∃ first tail, Text.cut text placed.span.start.offset placed.span.stop = some (first :: tail) ∧ isInitial first

/-- No flag stands at the front of the text, so a hash before it makes no boolean. -/
def NoFlag (behind : List Char) : Prop :=
  ∀ next ∈ behind.head?, next ≠ 't' ∧ next ≠ 'f'

/-- No token starts with the character, behind one text and before another. -/
structure Stray (before : List Char) (found : Char) (behind : List Char) : Prop where
  scanned : ∃ tokens, tokenize (String.ofList before) = .ok tokens ∧ (found = '.' → ¬EndsInWord before tokens)
  black : Text.isBlank found = false
  plain : found ∉ ['(', ')', '\'', '+', '-']
  symbol : found.isDigit = false
  other : isInitial found = false
  flagless : found = '#' → NoFlag behind

section Fronts

variable {c : Char} {rest : List Char}

theorem boolean_stray_iff : Front.boolean rest = .stray '#' ↔ NoFlag rest := by
  cases rest with
  | nil => simp [Front.boolean, NoFlag]
  | cons next rest =>
    by_cases yes : next = 't'
    · simp [Front.boolean, NoFlag, yes]
    · by_cases no : next = 'f' <;> simp [Front.boolean, NoFlag, yes, no]

theorem front_stray_iff : Front.of (c :: rest) = .stray c ↔
    c ∉ ['(', ')', '\'', '+', '-'] ∧ c.isDigit = false ∧ isInitial c = false ∧ (c = '#' → NoFlag rest) := by
  constructor
  · intro front
    unfold Front.of at front
    dsimp only at front
    split at front
    · cases front
    split at front
    · cases front
    split at front
    · cases front
    split at front
    · rename_i hash
      subst hash
      exact ⟨by simp, rfl, rfl, fun _ => boolean_stray_iff.mp front⟩
    split at front
    · rcases numeral_cases c rest with ⟨_, _, _, token⟩ | large
      · cases token.symm.trans front
      · cases large.symm.trans front
    split at front
    · cases front
    split at front
    · cases front
    · simp_all
  · intro refused
    obtain ⟨plain, symbol, other, flagless⟩ := refused
    by_cases hash : c = '#'
    · subst hash
      exact boolean_stray_iff.mpr (flagless rfl)
    · simp only [List.mem_cons, List.not_mem_nil, or_false, not_or] at plain
      simp [Front.of, plain, symbol, other, hash]

end Fronts

namespace Decomposition

variable {text lead rest : List Char} {pieces : List Piece} {last : Piece}

/-- What is read of a text is read of every longer one in which no lexeme goes on behind it. -/
theorem drain_append (d : Decomposition text lead pieces)
    (apart : ∀ last ∈ pieces.getLast?, last.gap = [] → ∀ next ∈ rest.head?, ¬Merges last.lexeme last.token next) (p : Position) :
    (Cursor.mk p (text ++ rest)).drain.1 =
      (place (p.after lead) pieces).dropLast.map .ok ++ (Cursor.mk (p.after text) rest).drain.1 := by
  induction pieces generalizing text lead p with
  | nil =>
    have blank : ∀ c ∈ text, Text.isBlank c := by
      rw [d.text_eq]
      simpa using d.lead_blank
    rw [Cursor.drain_of_blank blank]
    rfl
  | cons piece pieces ih =>
    have stops : ∀ next ∈ (piece.gap ++ pieces.flatMap Piece.text ++ rest).head?, ¬Merges piece.lexeme piece.token next := by
      intro next member
      by_cases ends : piece.gap ++ pieces.flatMap Piece.text = []
      · obtain ⟨touching, nothing⟩ := List.append_eq_nil_iff.mp ends
        rw [ends] at member
        cases pieces with
        | nil => exact apart piece rfl touching next member
        | cons second pieces =>
          obtain ⟨first, tail, spelled, -⟩ := (d.spelled second (by simp)).not_blank
          simp [Piece.text, spelled] at nothing
      · rw [List.head?_append_of_ne_nil _ ends] at member
        exact d.stops next member
    have apart' : ∀ last ∈ pieces.getLast?, last.gap = [] → ∀ next ∈ rest.head?, ¬Merges last.lexeme last.token next := by
      intro last member
      apply apart last
      rw [List.getLast?_cons, Option.mem_def.mp member]
      rfl
    have split : text = lead ++ (piece.lexeme ++ (piece.gap ++ pieces.flatMap Piece.text)) := by
      rw [d.text_eq, List.flatMap_cons, Piece.text, List.append_assoc]
    have some : place (((p.after lead).after piece.lexeme).after piece.gap) pieces ≠ [] := by
      cases pieces <;> exact List.cons_ne_nil _ _
    have longest : Longest piece.lexeme piece.token (piece.gap ++ pieces.flatMap Piece.text ++ rest) :=
      ⟨d.spelled piece List.mem_cons_self, stops⟩
    have place : p.after text = ((p.after lead).after piece.lexeme).after (piece.gap ++ pieces.flatMap Piece.text) := by
      rw [split, Position.after_append, Position.after_append]
    rw [place, split, List.append_assoc, List.append_assoc, Cursor.drain_of_lead d.lead_blank longest, ih d.tail apart',
      DefunReader.place, List.dropLast_cons_of_ne_nil some]
    rfl

theorem mem_place_of_last (d : Decomposition text lead pieces) (member : last ∈ pieces.getLast?) (touching : last.gap = [])
    (p : Position) : ∃ before, text = before ++ last.lexeme ∧
      ⟨last.token, .between (p.after before) ((p.after before).after last.lexeme)⟩ ∈ place (p.after lead) pieces := by
  induction pieces generalizing text lead p with
  | nil => cases member
  | cons piece pieces ih =>
    have split : text = lead ++ (piece.lexeme ++ (piece.gap ++ pieces.flatMap Piece.text)) := by
      rw [d.text_eq, List.flatMap_cons, Piece.text, List.append_assoc]
    cases pieces with
    | nil =>
      obtain rfl : piece = last := Option.some.inj member
      refine ⟨lead, by simpa only [touching, List.flatMap_nil, List.append_nil] using split, ?_⟩
      exact List.mem_cons_self
    | cons second pieces =>
      obtain ⟨before, inner, among⟩ := ih d.tail member ((p.after lead).after piece.lexeme)
      refine ⟨lead ++ (piece.lexeme ++ before), ?_, ?_⟩
      · rw [split, inner, List.append_assoc, List.append_assoc]
      · rw [Position.after_append, Position.after_append]
        exact List.mem_cons_of_mem _ among

end Decomposition

theorem Lexeme.isWord {lexeme : List Char} {token : Token} {first : Char} (spelled : Lexeme lexeme token)
    (starts : first ∈ lexeme.head?) (initial : isInitial first) : token.isWord := by
  cases spelled with
  | natural some decimal =>
    have digit := decimal first (List.mem_of_mem_head? starts)
    rw [isDigit_of_isInitial initial] at digit
    cases digit
  | sign signs =>
    cases starts
    rcases signs with rfl | rfl <;> cases initial
  | identifier | ifWord | defunWord | quote => rfl
  | _ =>
    cases starts
    cases initial

/-- A character that no token starts with goes on with a word at most, and then it is a point. -/
theorem Stray.point_of_merges {before behind lexeme : List Char} {found : Char} {token : Token} (stray : Stray before found behind)
    (merges : Merges lexeme token found) : found = '.' ∧ ∃ first ∈ lexeme.head?, isInitial first := by
  obtain ⟨-, -, plain, symbol, other, -⟩ := stray
  rcases merges with ⟨initial, more⟩ | ⟨-, digit⟩
  · refine ⟨?_, initial⟩
    simp only [List.mem_cons, List.not_mem_nil, or_false, not_or] at plain
    simpa [isSubsequent, other, symbol, plain] using more
  · rw [symbol] at digit
    cases digit

theorem Cursor.front_of_stray {c rest : Cursor} {span : Span} {found : Char}
    (failed : c.next = (.error (.strayCharacter span found), rest)) :
    Front.of (c.unread.dropWhile Text.isBlank) = .stray found ∧ span = .between c.front (c.front.step found) := by
  cases front : Front.of (c.unread.dropWhile Text.isBlank) with
  | nothing =>
    rw [next_of_nothing (nil_of_front front)] at failed
    cases failed
  | token lexeme token behind =>
    rw [next_of_token front] at failed
    cases failed
  | tooLarge lexeme behind =>
    rw [next_of_tooLarge front] at failed
    cases failed
  | stray other =>
    rw [next_of_stray front] at failed
    cases failed
    exact ⟨rfl, rfl⟩

theorem Decomposition.endsInWord {text lead : List Char} {pieces : List Piece} {last : Piece} {first : Char}
    (d : Decomposition text lead pieces) (member : last ∈ pieces.getLast?) (touching : last.gap = [])
    (starts : first ∈ last.lexeme.head?) (initial : isInitial first) :
    EndsInWord text (place (Position.origin.after lead) pieces) := by
  obtain ⟨before, rfl, among⟩ := d.mem_place_of_last member touching .origin
  obtain ⟨tail, lexeme⟩ := List.head?_eq_some_iff.mp starts
  have covers := Span.covers_between before last.lexeme
  have cut := Text.cut_append before last.lexeme []
  rw [List.append_nil, ← covers.start, ← covers.stop, lexeme] at cut
  rw [← lexeme] at cut
  exact ⟨_, among, (d.spelled last (List.mem_of_getLast? member)).isWord starts initial, covers.stop, first, tail,
    by rw [cut, lexeme], initial⟩

theorem exists_decomposition {before : List Char} {tokens : List Token.Placed}
    (read : tokenize (String.ofList before) = .ok tokens) :
    ∃ lead pieces, Decomposition before lead pieces ∧ tokens = place (Position.origin.after lead) pieces := by
  obtain ⟨lead, pieces, d, same⟩ := Decomposition.of_drain (tokenize_eq_ok_iff.mp read)
  have text : (Cursor.start (String.ofList before)).unread = before := String.toList_ofList
  rw [text] at d
  exact ⟨lead, pieces, d, same⟩

section Tokenize

variable {text : String} {before behind : List Char} {span : Span} {found : Char}

theorem tokenize_of_stray (split : text.toList = before ++ found :: behind) (stray : Stray before found behind) :
    tokenize text = .error (.strayCharacter
      (.between (Position.origin.after before) ((Position.origin.after before).after [found])) found) := by
  obtain ⟨tokens, read, wordless⟩ := stray.scanned
  obtain ⟨lead, pieces, d, rfl⟩ := exists_decomposition read
  have apart : ∀ last ∈ pieces.getLast?, last.gap = [] → ∀ next ∈ (found :: behind).head?,
      ¬Merges last.lexeme last.token next := by
    intro last member touching next head merges
    cases head
    obtain ⟨point, first, starts, initial⟩ := stray.point_of_merges merges
    exact wordless point (d.endsInWord member touching starts initial)
  have black : ¬Text.isBlank found := Bool.eq_false_iff.mp stray.black
  have front : Front.of ((found :: behind).dropWhile Text.isBlank) = .stray found := by
    rw [List.dropWhile_cons_of_neg black]
    exact front_stray_iff.mpr ⟨stray.plain, stray.symbol, stray.other, stray.flagless⟩
  have place : (Cursor.mk (Position.origin.after before) (found :: behind)).front = Position.origin.after before := by
    rw [Cursor.front, List.takeWhile_cons_of_neg black]
    rfl
  have next := Cursor.next_of_stray (c := ⟨Position.origin.after before, found :: behind⟩) front
  rw [place] at next
  have drained := d.drain_append apart .origin
  rw [Cursor.drain_of_error next, ← split] at drained
  exact tokenize_eq_error_iff.mpr ⟨_, drained⟩

/-- A word that ends before a point goes on with it, so no point behind a word is stray. -/
theorem ne_point_of_endsInWord {tokens : List Token.Placed} {final : Token.Placed} {more : List Answer}
    (split : text.toList = before ++ found :: behind) (drained : (Cursor.start text).drain.1 = tokens.map .ok ++ more)
    (finish : final.token = .finish) (word : EndsInWord before (tokens ++ [final])) : found ≠ '.' := by
  rintro rfl
  obtain ⟨placed, member, word, stop, first, tail, cut, initial⟩ := word
  have proper : placed.token ≠ .finish := by
    intro finish
    rw [finish] at word
    cases word
  have among : placed ∈ tokens := by
    rcases List.mem_append.mp member with among | last
    · exact among
    · cases List.mem_singleton.mp last
      exact absurd finish proper
  have answer : .ok placed ∈ (Cursor.start text).drain.1 := by
    rw [drained]
    exact List.mem_append_left _ (List.mem_map_of_mem among)
  obtain ⟨earlier, lexeme, rest, shows, stands⟩ := located_of_drain answer
  rw [Answer.StandsAt, Token.StandsAt, if_neg proper] at stands
  have same := shows.split.symm.trans split
  rw [← List.append_assoc] at same
  obtain ⟨rfl, rfl⟩ := Text.split_unique same (shows.covers.stop.symm.trans stop)
  have cut' := Text.cut_append earlier lexeme []
  rw [List.append_nil, ← shows.covers.start, ← shows.covers.stop, Answer.span, cut] at cut'
  cases cut'
  exact stands.apart '.' rfl (.inl ⟨⟨first, rfl, initial⟩, rfl⟩)

theorem exists_stray (failed : tokenize text = .error (.strayCharacter span found)) : ∃ before behind,
    text.toList = before ++ found :: behind ∧ span.Covers before [found] ∧ Stray before found behind := by
  obtain ⟨tokens, drained⟩ := tokenize_eq_error_iff.mp failed
  obtain ⟨before, rest, reaches⟩ := Cursor.exists_reaches drained
  obtain ⟨next, answer⟩ := Cursor.next_eq_head (reaches.answers drained).1
  obtain ⟨front, rfl⟩ := Cursor.front_of_stray answer
  have bare : rest.dropWhile Text.isBlank = rest := by
    have split := List.takeWhile_append_dropWhile (p := Text.isBlank) (l := rest)
    rwa [reaches.bare, List.nil_append] at split
  have place : (Cursor.mk ((Cursor.start text).position.after before) rest).front = Position.origin.after before := by
    rw [Cursor.front, reaches.bare]
    rfl
  obtain ⟨behind, split⟩ := head_of_stray front
  have black : ¬Text.isBlank found := head?_dropWhile (congrArg List.head? split)
  obtain rfl : rest = found :: behind := bare.symm.trans split
  obtain ⟨plain, symbol, other, flagless⟩ := front_stray_iff.mp (bare ▸ front)
  have covers : (Span.between (Position.origin.after before) ((Position.origin.after before).step found)).Covers before [found] :=
    Span.covers_between before [found]
  obtain ⟨final, ended, scanned⟩ : ∃ final : Token.Placed, final.token = .finish ∧
      (Cursor.start (String.ofList before)).drain.1 = (tokens ++ [final]).map .ok := by
    have breaks : Breaks [] := by simp [Breaks]
    have nothing := Cursor.next_of_unread_nil (c := ⟨Position.origin.after before, []⟩) rfl
    have resumed := reaches.resumes [] breaks
    refine ⟨⟨.finish, .between (Position.origin.after before) (Position.origin.after before)⟩, rfl, ?_⟩
    rw [List.append_nil] at resumed
    rw [Cursor.start, String.toList_ofList, List.map_append]
    exact resumed.trans (congrArg _ (Cursor.drain_of_ok nothing))
  have wordless : found = '.' → ¬EndsInWord before (tokens ++ [final]) := fun point word =>
    ne_point_of_endsInWord reaches.text_eq drained ended word point
  exact ⟨before, behind, reaches.text_eq, by rwa [place], ⟨_, tokenize_eq_ok_iff.mpr scanned, wordless⟩,
    Bool.eq_false_iff.mpr black, plain, symbol, other, flagless⟩

theorem stray_unique {before' behind' : List Char} {found' : Char} (split : text.toList = before ++ found :: behind)
    (stray : Stray before found behind) (split' : text.toList = before' ++ found' :: behind')
    (stray' : Stray before' found' behind') : before = before' ∧ found = found' ∧ behind = behind' := by
  have failed := (tokenize_of_stray split stray).symm.trans (tokenize_of_stray split' stray')
  simp only [Except.error.injEq, Problem.strayCharacter.injEq] at failed
  have start := congrArg (fun span => span.start.offset) failed.1
  rw [(Span.covers_between before [found]).start, (Span.covers_between before' [found']).start] at start
  obtain ⟨rfl, same⟩ := Text.split_unique (split.symm.trans split') start
  exact ⟨rfl, List.cons.inj same⟩

/-- What stands behind a stray character makes no difference, but for a flag behind a hash. -/
theorem tokenize_of_resumed {other : String} (failed : tokenize text = .error (.strayCharacter span found))
    (split : text.toList = before ++ found :: behind) (stray : Stray before found behind)
    (flagless : found = '#' → NoFlag other.toList) :
    tokenize (String.ofList (before ++ [found]) ++ other) = .error (.strayCharacter span found) := by
  have split' : (String.ofList (before ++ [found]) ++ other).toList = before ++ found :: other.toList := by
    simp
  rw [tokenize_of_stray split' { stray with flagless }, ← tokenize_of_stray split stray, failed]

end Tokenize

/-- Scanning breaks off at a stray character exactly where the text before it is scanned as a whole and no token starts with
it, nor goes on with it if it is a point. There is only one such place, and the same problem arises there whatever text
stands behind, but for a flag behind a hash. -/
theorem stray_iff_no_token (text : String) :
    (∀ span found, tokenize text = .error (.strayCharacter span found) ↔ ∃ before behind,
      text.toList = before ++ found :: behind ∧ span.Covers before [found] ∧ Stray before found behind) ∧
    (∀ before found behind, text.toList = before ++ found :: behind → Stray before found behind →
      ∀ before' found' behind', text.toList = before' ++ found' :: behind' → Stray before' found' behind' →
        before = before' ∧ found = found' ∧ behind = behind') ∧
    ∀ span found, tokenize text = .error (.strayCharacter span found) → ∃ kept, Text.cut text.toList 0 span.stop = some kept ∧
      ∀ other : String, (found = '#' → NoFlag other.toList) →
        tokenize (String.ofList kept ++ other) = .error (.strayCharacter span found) := by
  refine ⟨?_, ?_, ?_⟩
  · intro span found
    constructor
    · exact exists_stray
    · intro breaks
      obtain ⟨before, behind, split, covers, stray⟩ := breaks
      rw [tokenize_of_stray split stray, covers.unique (Span.covers_between before [found])]
  · intro before found behind split stray before' found' behind' split' stray'
    exact stray_unique split stray split' stray'
  · intro span found failed
    obtain ⟨before, behind, split, covers, stray⟩ := exists_stray failed
    have cut := Text.cut_append [] (before ++ [found]) behind
    rw [List.nil_append, List.nil_append, List.append_assoc, List.singleton_append, ← split, ← covers.stop] at cut
    refine ⟨before ++ [found], cut, ?_⟩
    intro other flagless
    exact tokenize_of_resumed failed split stray flagless

-- A point is stray behind a number, and part of the word behind a word.
example : tokenize "5." = .error (.strayCharacter ⟨⟨1, 2, 1⟩, 2⟩ '.') ∧ (tokenize "x.").isOk := by
  decide +kernel

end DefunReader

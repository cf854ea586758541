import DefunReader.Text.Blank
import DefunReader.Token.Front
import Mathlib.Data.List.TakeWhile

/-! The lexemes of tokens, and what is at the front of a text: the lexeme that no character behind it makes longer. -/
namespace DefunReader

/-- How a token is spelled; the end of the text is not. -/
inductive Lexeme : List Char → Token → Prop
  | leftParen : Lexeme ['('] .leftParen
  | rightParen : Lexeme [')'] .rightParen
  | tick : Lexeme ['\''] (.quote true)
  | yes : Lexeme ['#', 't'] (.boolean true)
  | no : Lexeme ['#', 'f'] (.boolean false)
  | natural {digits : List Char} {n : Int64} (some : digits ≠ []) (decimal : ∀ c ∈ digits, c.isDigit)
      (value : n.toInt = (Nat.ofDigitChars 10 digits 0 : Int)) : Lexeme digits (.number n)
  | negative {digits : List Char} {n : Int64} (some : digits ≠ []) (decimal : ∀ c ∈ digits, c.isDigit)
      (value : n.toInt = -(Nat.ofDigitChars 10 digits 0 : Int)) : Lexeme ('-' :: digits) (.number n)
  | sign {c} (signs : c = '+' ∨ c = '-') : Lexeme [c] (.identifier (String.ofList [c]))
  | identifier {first rest} (initial : isInitial first) (subsequent : ∀ c ∈ rest, isSubsequent c)
      (free : String.ofList (first :: rest) ∉ ["if", "defun", "quote"]) :
      Lexeme (first :: rest) (.identifier (String.ofList (first :: rest)))
  | ifWord : Lexeme ['i', 'f'] .ifWord
  | defunWord : Lexeme ['d', 'e', 'f', 'u', 'n'] .defunWord
  | quote : Lexeme ['q', 'u', 'o', 't', 'e'] (.quote false)

/-- Whether a lexeme would be read on into the character behind it. Only identifiers and keywords start with an
initial character. -/
def Merges (lexeme : List Char) (token : Token) (next : Char) : Prop :=
  ((∃ first ∈ lexeme.head?, isInitial first) ∧ isSubsequent next) ∨
    ((token.kind = .number ∨ lexeme = ['-']) ∧ next.isDigit)

/-- A lexeme that the character behind it does not make longer. -/
structure Longest (lexeme : List Char) (token : Token) (rest : List Char) : Prop where
  spelled : Lexeme lexeme token
  apart : ∀ next ∈ rest.head?, ¬Merges lexeme token next

theorem Lexeme.ne_finish {lexeme : List Char} {token : Token} (spelled : Lexeme lexeme token) : token ≠ .finish := by
  cases spelled <;> nofun

theorem isDigit_range {c : Char} (h : c.isDigit) : 48 ≤ c.toNat ∧ c.toNat ≤ 57 := by
  simpa [Char.isDigit, UInt32.le_iff_toNat_le] using h

theorem isAlpha_range {c : Char} (h : c.isAlpha) : (65 ≤ c.toNat ∧ c.toNat ≤ 90) ∨ (97 ≤ c.toNat ∧ c.toNat ≤ 122) := by
  have letter : decide (c.val ≥ 'A'.val ∧ c.val ≤ 'Z'.val) ∨ (decide (c.val ≥ 'a'.val) && decide (c.val ≤ 'z'.val)) :=
    (Bool.or_eq_true _ _).mp h
  simpa [UInt32.le_iff_toNat_le] using letter

theorem isInitial_range {c : Char} (h : isInitial c) : (33 ≤ c.toNat ∧ c.toNat ≤ 47) ∨ (58 ≤ c.toNat ∧ c.toNat ≤ 126) := by
  simp only [isInitial, Bool.or_eq_true, List.contains_iff_mem, List.mem_cons, List.not_mem_nil, or_false] at h
  rcases h with letter | other
  · have := isAlpha_range letter
    omega
  · rcases other with rfl | rfl | rfl | rfl | rfl | rfl | rfl | rfl | rfl | rfl | rfl | rfl | rfl <;> decide

theorem isSubsequent_range {c : Char} (h : isSubsequent c) : 33 ≤ c.toNat ∧ c.toNat ≤ 126 := by
  simp only [isSubsequent, Bool.or_eq_true, beq_iff_eq] at h
  rcases h with (((initial | digit) | rfl) | rfl) | rfl
  · have := isInitial_range initial
    omega
  · have := isDigit_range digit
    omega
  all_goals decide

theorem isBlank_range {c : Char} (h : Text.isBlank c) : c.toNat ≤ 32 ∨ 133 ≤ c.toNat := by
  simp only [Text.isBlank, Bool.or_eq_true, Bool.and_eq_true, decide_eq_true_eq, beq_iff_eq] at h
  omega

theorem split_run {class' : Char → Bool} {run rest : List Char} (all : ∀ c ∈ run, class' c)
    (stops : ∀ next ∈ rest.head?, ¬class' next) :
    (run ++ rest).takeWhile class' = run ∧ (run ++ rest).dropWhile class' = rest := by
  rw [List.takeWhile_append_of_pos all, List.dropWhile_append_of_pos all]
  cases rest with
  | nil => simp
  | cons next rest => simp [stops next rfl]

/-- Runs of one class are told apart from what stands behind them. -/
theorem runs_unique {class' : Char → Bool} {run run' rest rest' : List Char} (all : ∀ c ∈ run, class' c)
    (all' : ∀ c ∈ run', class' c) (stops : ∀ next ∈ rest.head?, ¬class' next) (stops' : ∀ next ∈ rest'.head?, ¬class' next)
    (same : run ++ rest = run' ++ rest') : run = run' ∧ rest = rest' := by
  obtain ⟨taken, left⟩ := split_run all stops
  obtain ⟨taken', left'⟩ := split_run all' stops'
  rw [same] at taken left
  exact ⟨taken.symm.trans taken', left.symm.trans left'⟩

def Numeral.Written (numeral : List Char) : Prop :=
  ∃ digits, digits ≠ [] ∧ (∀ c ∈ digits, c.isDigit) ∧ (numeral = digits ∨ numeral = '-' :: digits)

theorem Numeral.Written.starts {numeral : List Char} (written : Written numeral) :
    ∃ first tail, numeral = first :: tail ∧ (first.isDigit ∨ first = '-' ∧ Front.startsWithDigit tail) ∧
      ∀ c ∈ tail, c.isDigit := by
  obtain ⟨digits, some, decimal, spelled⟩ := written
  obtain ⟨first, tail, rfl⟩ := List.exists_cons_of_ne_nil some
  obtain ⟨digit, others⟩ := List.forall_mem_cons.mp decimal
  rcases spelled with rfl | rfl
  · exact ⟨first, tail, rfl, .inl digit, others⟩
  · exact ⟨'-', first :: tail, rfl, .inr ⟨rfl, digit⟩, decimal⟩

theorem Numeral.fit?_eq_some {value : Int} {n : Int64} : fit? value = some n ↔ n.toInt = value := by
  unfold fit?
  constructor
  · intro fits
    split at fits
    · cases fits
      exact Int64.toInt_ofIntLE ..
    · cases fits
  · intro same
    subst same
    rw [dif_pos ⟨n.minValue_le_toInt, n.toInt_le⟩, Int64.ofIntLE_toInt]

theorem Numeral.value_natural {digits : List Char} (some : digits ≠ []) (decimal : ∀ c ∈ digits, c.isDigit) :
    value digits = (Nat.ofDigitChars 10 digits 0 : Int) := by
  obtain ⟨first, tail, rfl⟩ := List.exists_cons_of_ne_nil some
  have digit := decimal first List.mem_cons_self
  have unsigned : first ≠ '-' := by
    intro same
    subst same
    cases digit
  rw [value, if_neg unsigned]

theorem Numeral.value_negative (digits : List Char) : value ('-' :: digits) = -(Nat.ofDigitChars 10 digits 0 : Int) := by
  rw [value, if_pos rfl]

theorem isDigit_of_isInitial {c : Char} (initial : isInitial c) : c.isDigit = false := by
  apply Bool.eq_false_iff.mpr
  intro digit
  have := isInitial_range initial
  have := isDigit_range digit
  omega

theorem front_word {first : Char} {tail rest : List Char} (initial : isInitial first) (subsequent : ∀ c ∈ tail, isSubsequent c)
    (stops : ∀ next ∈ rest.head?, ¬isSubsequent next) :
    Front.of (first :: tail ++ rest) = .token (first :: tail) (Front.wordToken (String.ofList (first :: tail))) rest := by
  have other {c : Char} (rare : isInitial c = false) : first ≠ c := by
    intro same
    subst same
    rw [initial] at rare
    contradiction
  have opening := other (c := '(') rfl
  have closing := other (c := ')') rfl
  have tick := other (c := '\'') rfl
  have hash := other (c := '#') rfl
  have plus := other (c := '+') rfl
  have minus := other (c := '-') rfl
  obtain ⟨taken, left⟩ := split_run subsequent stops
  simp [Front.of, Front.word, opening, closing, tick, hash, plus, minus, isDigit_of_isInitial initial, initial, taken, left]

theorem front_numeral {numeral rest : List Char} (written : Numeral.Written numeral)
    (stops : ∀ next ∈ rest.head?, ¬next.isDigit) : Front.of (numeral ++ rest) =
      (Numeral.read? numeral).elim (.tooLarge numeral rest) fun n => .token numeral (.number n) rest := by
  obtain ⟨first, tail, rfl, starts, decimal⟩ := written.starts
  have other {c : Char} (symbol : c.isDigit = false) (plain : c ≠ '-') : first ≠ c := by
    intro same
    subst same
    simp [symbol, plain] at starts
  have opening := other (c := '(') rfl (by decide)
  have closing := other (c := ')') rfl (by decide)
  have tick := other (c := '\'') rfl (by decide)
  have hash := other (c := '#') rfl (by decide)
  have begins : first.isDigit ∨ first = '-' ∧ Front.startsWithDigit (tail ++ rest) := by
    apply starts.imp_right
    intro negative
    obtain ⟨minus, digit⟩ := negative
    cases tail with
    | nil => cases digit
    | cons => exact ⟨minus, digit⟩
  obtain ⟨taken, left⟩ := split_run decimal stops
  have numeral : Front.of (first :: tail ++ rest) = Front.numeral first (tail ++ rest) := by
    simp [Front.of, opening, closing, tick, hash, begins]
  rw [numeral, Front.numeral, taken, left]
  cases Numeral.read? (first :: tail) <;> rfl

theorem wordToken_of_free {word : String} (free : word ∉ ["if", "defun", "quote"]) :
    Front.wordToken word = .identifier word := by
  simp only [List.mem_cons, List.not_mem_nil, or_false, not_or] at free
  simp [Front.wordToken, free]

theorem front_of_longest {lexeme rest : List Char} {token : Token} (longest : Longest lexeme token rest) :
    Front.of (lexeme ++ rest) = .token lexeme token rest := by
  obtain ⟨spelled, apart⟩ := longest
  cases spelled with
  | leftParen | rightParen | tick | yes | no => rfl
  | natural some decimal value =>
    have read := Numeral.fit?_eq_some.mpr (value.trans (Numeral.value_natural some decimal).symm)
    have stops : ∀ next ∈ rest.head?, ¬next.isDigit := fun next member digit => apart next member (.inr ⟨.inl rfl, digit⟩)
    rw [front_numeral ⟨_, some, decimal, .inl rfl⟩ stops, Numeral.read?, read]
    rfl
  | @negative digits n some decimal value =>
    have read := Numeral.fit?_eq_some.mpr (value.trans (Numeral.value_negative digits).symm)
    have stops : ∀ next ∈ rest.head?, ¬next.isDigit := fun next member digit => apart next member (.inr ⟨.inl rfl, digit⟩)
    rw [front_numeral ⟨_, some, decimal, .inr rfl⟩ stops, Numeral.read?, read]
    rfl
  | sign signs =>
    rcases signs with rfl | rfl
    · rfl
    · have undecimal : Front.startsWithDigit rest = false := by
        cases rest with
        | nil => rfl
        | cons next rest => exact Bool.eq_false_iff.mpr fun digit => apart next rfl (.inr ⟨.inr rfl, digit⟩)
      simp [Front.of, undecimal]
  | identifier initial subsequent free =>
    rw [front_word initial subsequent fun next member more => apart next member (.inl ⟨⟨_, rfl, initial⟩, more⟩),
      wordToken_of_free free]
  | ifWord | defunWord | quote =>
    exact front_word rfl (List.all_eq_true.mp rfl) fun next member more => apart next member (.inl ⟨⟨_, rfl, rfl⟩, more⟩)

theorem head?_dropWhile {class' : Char → Bool} {text : List Char} {next : Char}
    (member : next ∈ (text.dropWhile class').head?) : ¬class' next := by
  have stops := List.head?_dropWhile_not class' text
  rw [Option.mem_def.mp member] at stops
  simpa using stops

theorem lexeme_of_word {first : Char} {tail : List Char} (initial : isInitial first) (subsequent : ∀ c ∈ tail, isSubsequent c) :
    Lexeme (first :: tail) (Front.wordToken (String.ofList (first :: tail))) := by
  by_cases free : String.ofList (first :: tail) ∈ ["if", "defun", "quote"]
  · simp only [List.mem_cons, List.not_mem_nil, or_false] at free
    rcases free with word | word | word
    all_goals
      rw [word]
      have spelled := String.ofList_injective (word.trans (String.ofList_toList).symm)
      rw [spelled]
    · exact .ifWord
    · exact .defunWord
    · exact .quote
  · rw [wordToken_of_free free]
    exact .identifier initial subsequent free

theorem lexeme_of_numeral {first : Char} {tail : List Char} {n : Int64}
    (starts : first.isDigit ∨ first = '-' ∧ tail ≠ []) (decimal : ∀ c ∈ tail, c.isDigit)
    (read : Numeral.read? (first :: tail) = some n) : Lexeme (first :: tail) (.number n) := by
  have value := Numeral.fit?_eq_some.mp read
  rcases starts with digit | ⟨rfl, some⟩
  · have decimal : ∀ c ∈ first :: tail, c.isDigit := List.forall_mem_cons.mpr ⟨digit, decimal⟩
    have some := List.cons_ne_nil first tail
    rw [Numeral.value_natural some decimal] at value
    exact .natural some decimal value
  · rw [Numeral.value_negative] at value
    exact .negative some decimal value

theorem not_merges {lexeme : List Char} {token : Token} {next : Char} (plain : ∀ first ∈ lexeme.head?, isInitial first = false)
    (undecimal : token.kind = .number ∨ lexeme = ['-'] → ¬next.isDigit) : ¬Merges lexeme token next := by
  intro merges
  rcases merges with ⟨⟨first, member, initial⟩, -⟩ | ⟨decimal, digit⟩
  · rw [plain first member] at initial
    contradiction
  · exact undecimal decimal digit

theorem startsWithDigit_iff {text : List Char} : Front.startsWithDigit text ↔ ∃ next ∈ text.head?, next.isDigit := by
  cases text <;> simp [Front.startsWithDigit]

theorem Longest.of_symbol {lexeme rest : List Char} {token : Token} (spelled : Lexeme lexeme token)
    (plain : ∀ first ∈ lexeme.head?, isInitial first = false) (other : token.kind ≠ .number ∧ lexeme ≠ ['-']) :
    Longest lexeme token rest := by
  refine ⟨spelled, ?_⟩
  intro next _
  apply not_merges plain
  intro either
  rcases either with number | minus
  · exact absurd number other.1
  · exact absurd minus other.2

theorem longest_of_boolean {behind lexeme rest : List Char} {token : Token}
    (front : Front.boolean behind = .token lexeme token rest) : Longest lexeme token rest := by
  unfold Front.boolean at front
  split at front
  · cases front
  split at front
  · cases front
    subst_vars
    exact .of_symbol .yes (by simp [isInitial]) (by simp [Token.kind])
  split at front
  · cases front
    subst_vars
    exact .of_symbol .no (by simp [isInitial]) (by simp [Token.kind])
  · cases front

theorem Lexeme.longest_of_number {lexeme rest : List Char} {n : Int64} (spelled : Lexeme lexeme (.number n))
    (stops : ∀ next ∈ rest.head?, ¬next.isDigit) : Longest lexeme (.number n) rest := by
  refine ⟨spelled, fun next member => not_merges ?_ fun _ => stops next member⟩
  intro first start
  cases spelled with
  | natural some decimal =>
    have digit := decimal first (List.mem_of_mem_head? start)
    apply Bool.eq_false_iff.mpr
    intro initial
    rw [isDigit_of_isInitial initial] at digit
    contradiction
  | negative =>
    cases start
    rfl

theorem longest_of_numeral {first : Char} {behind lexeme rest : List Char} {token : Token}
    (starts : first.isDigit ∨ first = '-' ∧ Front.startsWithDigit behind)
    (front : Front.numeral first behind = .token lexeme token rest) : Longest lexeme token rest := by
  unfold Front.numeral at front
  dsimp only at front
  split at front
  · rename_i n read
    cases front
    have some : first.isDigit ∨ first = '-' ∧ behind.takeWhile Char.isDigit ≠ [] := by
      apply starts.imp_right
      intro negative
      obtain ⟨rfl, digit⟩ := negative
      obtain ⟨next, member, digit⟩ := startsWithDigit_iff.mp digit
      cases behind <;> simp_all
    apply (lexeme_of_numeral some (fun _ => List.mem_takeWhile_imp) read).longest_of_number
    intro next member
    exact head?_dropWhile member
  · cases front

theorem longest_of_sign {sign : Char} {rest : List Char} (signs : sign = '+' ∨ sign = '-')
    (undecimal : sign = '-' → ¬Front.startsWithDigit rest) :
    Longest [sign] (.identifier (String.ofList [sign])) rest := by
  refine ⟨.sign signs, ?_⟩
  intro next member
  apply not_merges
  · rcases signs with rfl | rfl <;> simp [isInitial]
  · intro either digit
    rcases either with number | minus
    · cases number
    · cases minus
      exact undecimal rfl (startsWithDigit_iff.mpr ⟨next, member, digit⟩)

theorem longest_of_word {first : Char} {behind : List Char} (initial : isInitial first) :
    Longest (first :: behind.takeWhile isSubsequent)
      (Front.wordToken (String.ofList (first :: behind.takeWhile isSubsequent))) (behind.dropWhile isSubsequent) := by
  refine ⟨lexeme_of_word initial fun _ => List.mem_takeWhile_imp, ?_⟩
  intro next member
  have stops := head?_dropWhile member
  intro merges
  rcases merges with ⟨-, more⟩ | ⟨-, digit⟩
  · exact stops more
  · exact stops (by simp [isSubsequent, digit])

theorem longest_of_front {text lexeme rest : List Char} {token : Token} (front : Front.of text = .token lexeme token rest) :
    Longest lexeme token rest := by
  unfold Front.of at front
  split at front
  · cases front
  rename_i c behind
  split at front
  · cases front
    subst c
    exact .of_symbol .leftParen (by simp [isInitial]) (by simp [Token.kind])
  split at front
  · cases front
    subst c
    exact .of_symbol .rightParen (by simp [isInitial]) (by simp [Token.kind])
  split at front
  · cases front
    subst c
    exact .of_symbol .tick (by simp [isInitial]) (by simp [Token.kind])
  split at front
  · exact longest_of_boolean front
  split at front
  · rename_i starts
    exact longest_of_numeral (by simpa using starts) front
  rename_i undecimal
  split at front
  · rename_i signs
    cases front
    apply longest_of_sign (by simpa using signs)
    intro minus digit
    subst minus
    exact undecimal (by simp [digit])
  split at front
  · rename_i initial
    cases front
    exact longest_of_word initial
  · cases front

/-- At the front of a text is the lexeme that nothing behind it makes longer. -/
theorem front_iff_longest {text lexeme rest : List Char} {token : Token} :
    Front.of text = .token lexeme token rest ↔ text = lexeme ++ rest ∧ Longest lexeme token rest := by
  constructor
  · intro front
    have parts := Front.append_of_parts? (congrArg Front.parts? front)
    exact ⟨parts.2.symm, longest_of_front front⟩
  · intro found
    obtain ⟨rfl, longest⟩ := found
    exact front_of_longest longest

theorem nil_of_front {text : List Char} (front : Front.of text = .nothing) : text = [] := by
  unfold Front.of at front
  split at front
  · rfl
  · unfold Front.boolean Front.numeral Front.word at front
    dsimp only at front
    repeat' split at front
    all_goals cases front

end DefunReader

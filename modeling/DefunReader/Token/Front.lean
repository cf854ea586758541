import DefunReader.Token

/-! What stands at the front of a text: the longest lexeme there and the token it spells. Blanks are
not skipped here, and positions are not kept. -/
namespace DefunReader

def isInitial (c : Char) : Bool :=
  c.isAlpha || ['!', '$', '&', '*', '/', ':', '<', '=', '>', '?', '~', '_', '^'].contains c

def isSubsequent (c : Char) : Bool :=
  isInitial c || c.isDigit || c == '.' || c == '+' || c == '-'

inductive Front where
  | nothing
  | token (lexeme : List Char) (token : Token) (rest : List Char)
  /-- A numeral beyond 64 bits. -/
  | tooLarge (lexeme rest : List Char)
  | stray (found : Char)
deriving DecidableEq

namespace Front

def startsWithDigit : List Char → Bool
  | [] => false
  | c :: _ => c.isDigit

/-- A numeral takes the whole run of digits behind its first character. -/
def numeral (first : Char) (rest : List Char) : Front :=
  let lexeme := first :: rest.takeWhile Char.isDigit
  match Numeral.read? lexeme with
  | some n => .token lexeme (.number n) (rest.dropWhile Char.isDigit)
  | none => .tooLarge lexeme (rest.dropWhile Char.isDigit)

/-- Keywords are words of their own, never the start of a longer one. -/
def wordToken (word : String) : Token :=
  if word = "if" then .ifWord
  else if word = "defun" then .defunWord
  else if word = "quote" then .quote false
  else .identifier word

def word (first : Char) (rest : List Char) : Front :=
  let lexeme := first :: rest.takeWhile isSubsequent
  .token lexeme (wordToken (String.ofList lexeme)) (rest.dropWhile isSubsequent)

def boolean : List Char → Front
  | [] => .stray '#'
  | c :: rest =>
    if c = 't' then .token ['#', c] (.boolean true) rest
    else if c = 'f' then .token ['#', c] (.boolean false) rest
    else .stray '#'

/-- A minus belongs to the digits behind it; any other sign is an identifier by itself. -/
def of : List Char → Front
  | [] => .nothing
  | c :: rest =>
    if c = '(' then .token [c] .leftParen rest
    else if c = ')' then .token [c] .rightParen rest
    else if c = '\'' then .token [c] (.quote true) rest
    else if c = '#' then boolean rest
    else if c.isDigit || (c == '-' && startsWithDigit rest) then numeral c rest
    else if c = '+' || c = '-' then .token [c] (.identifier (String.ofList [c])) rest
    else if isInitial c then word c rest
    else .stray c

/-- The lexeme at the front, if one is there, and the text behind it. -/
def parts? : Front → Option (List Char × List Char)
  | token lexeme _ rest | tooLarge lexeme rest => some (lexeme, rest)
  | nothing | stray _ => none

theorem numeral_parts? (first : Char) (rest : List Char) :
    (numeral first rest).parts? = some (first :: rest.takeWhile Char.isDigit, rest.dropWhile Char.isDigit) := by
  unfold numeral
  dsimp only
  split <;> rfl

theorem append_of_parts? {text lexeme rest : List Char} (h : (of text).parts? = some (lexeme, rest)) :
    lexeme ≠ [] ∧ lexeme ++ rest = text := by
  unfold of at h
  split at h
  · cases h
  · rename_i c rest'
    split at h
    · cases h; simp
    split at h
    · cases h; simp
    split at h
    · cases h; simp
    split at h
    · rename_i hash
      subst hash
      unfold boolean at h
      repeat' split at h
      all_goals cases h
      all_goals simp
    split at h
    · rw [numeral_parts?] at h
      cases h; simp
    split at h
    · cases h; simp
    split at h
    · cases h; simp
    · cases h

end Front

end DefunReader

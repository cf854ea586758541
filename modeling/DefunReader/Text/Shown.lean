import DefunReader.Text.Invisible

/-! A character as a message shows it: between single quotes, escaped where its look would mislead. -/
namespace DefunReader.Text

/-- The digits of a code point, in lower-case hexadecimal without padding. -/
def hexadecimal (n : Nat) : String :=
  String.ofList (Nat.toDigits 16 n)

def escaped (c : Char) : String :=
  if c = '\x00' then "\\0"
  else if c = '\t' then "\\t"
  else if c = '\n' then "\\n"
  else if c = '\r' then "\\r"
  else if c = '\'' then "\\'"
  else if c = '\\' then "\\\\"
  else if isInvisible c then "\\u\x7b" ++ hexadecimal c.toNat ++ "\x7d"
  else String.ofList [c]

def shown (c : Char) : String :=
  "'" ++ escaped c ++ "'"

end DefunReader.Text

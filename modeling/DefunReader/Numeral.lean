/-! Decimal numerals of 64-bit integers: an optional minus and decimal digits. Leading zeros and a
minus before zero are read; neither is ever written. -/
namespace DefunReader.Numeral

/-- The integer that a numeral denotes, of any size. -/
def value : List Char → Int
  | [] => 0
  | c :: digits => if c = '-' then -(Nat.ofDigitChars 10 digits 0 : Int) else Nat.ofDigitChars 10 (c :: digits) 0

def fit? (n : Int) : Option Int64 :=
  if h : Int64.minValue.toInt ≤ n ∧ n ≤ Int64.maxValue.toInt then some (.ofIntLE n h.1 h.2) else none

def read? (numeral : List Char) : Option Int64 :=
  fit? (value numeral)

def text (n : Int64) : String :=
  n.toInt.repr

end DefunReader.Numeral

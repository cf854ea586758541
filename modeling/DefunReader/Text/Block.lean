/-! Nested data written in blocks: one member to a line, four blanks deeper than its group and with a
comma behind it. A block is the list of its lines. -/
namespace DefunReader.Text

abbrev Block := List String

namespace Block

def atom (text : String) : Block := [text]

def nat (n : Nat) : Block := atom (toString n)

def labelled (label : String) : Block → Block
  | [] => []
  | line :: lines => (label ++ line) :: lines

def withComma : Block → Block
  | [] => []
  | [line] => [line ++ ","]
  | line :: lines => line :: withComma lines

def member (block : Block) : Block :=
  (withComma block).map ("    " ++ ·)

/-- A group without members stays on one line. -/
def group (opening : String) (members : List Block) (closing : String) : Block :=
  if members.isEmpty then [opening ++ closing] else opening :: members.flatMap member ++ [closing]

def record (name : String) (fields : List (String × Block)) : Block :=
  group (name ++ " \x7b") (fields.map fun field => labelled (field.1 ++ ": ") field.2) "\x7d"

def tuple (name : String) (arguments : List Block) : Block :=
  group (name ++ "(") arguments ")"

def sequence (items : List Block) : Block :=
  group "[" items "]"

def option : Option Block → Block
  | none => atom "None"
  | some block => tuple "Some" [block]

def text (block : Block) : String :=
  "\n".intercalate block

end Block

end DefunReader.Text

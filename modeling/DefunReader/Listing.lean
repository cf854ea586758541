import DefunReader.Text.Lines
import DefunReader.Token

/-! Token listings: a line for each token, its place in a column of at least eight characters. -/
namespace DefunReader.Listing

def padRight (width : Nat) (text : String) : String :=
  text ++ String.ofList (List.replicate (width - text.length) ' ')

def line (placed : Token.Placed) : String :=
  padRight 8 placed.span.text ++ " " ++ placed.token.text

def text (tokens : List Token.Placed) : String :=
  Text.unlines (tokens.map line)

end DefunReader.Listing

import DefunReader.Tree.Shape

/-! Program trees as one-line s-expressions: a leaf is its value, any other node its kind and its
children in parentheses. The parameters of a definition have parentheses of their own. -/
namespace DefunReader

namespace Shape

def spaced (texts : List String) : String :=
  String.join (texts.map (" " ++ ·))

def formText (kind : Node.Kind) (children : List String) : String :=
  match kind, children with
  | .defun arity, name :: rest =>
    if arity ≤ rest.length then
      "(" ++ kind.name ++ " " ++ name ++ " (" ++ " ".intercalate (rest.take arity) ++ ")" ++ spaced (rest.drop arity) ++ ")"
    else "(" ++ kind.name ++ spaced children ++ ")"
  | _, _ => "(" ++ kind.name ++ spaced children ++ ")"

mutual

def sexp : Shape → String
  | node _ (some value) _ _ => value.text
  | node kind none _ children => formText kind (sexps children)

def sexps : List Shape → List String
  | [] => []
  | shape :: shapes => shape.sexp :: sexps shapes

end

theorem sexps_eq (shapes : List Shape) : sexps shapes = shapes.map sexp := by
  induction shapes with
  | nil => rfl
  | cons shape shapes ih => rw [sexps, ih, List.map_cons]

end Shape

def Tree.sexp (t : Tree) (id : Nat) (h : id < t.size) : String :=
  (t.shape id h).sexp

end DefunReader

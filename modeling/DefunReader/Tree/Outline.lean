import DefunReader.Text.Lines
import DefunReader.Tree.Shape

/-! Program trees as indented outlines: a line for each node, two blanks deeper than its parent's. -/
namespace DefunReader

namespace Shape

def outlineEntry (kind : Node.Kind) (value : Option Node.Value) (span : Span) : String :=
  let arity := match kind with
    | .defun arity => " (arity " ++ toString arity ++ ")"
    | _ => ""
  let value := match value with
    | some value => " " ++ value.text
    | none => ""
  kind.name ++ arity ++ value ++ " @ " ++ span.text

def indentation (depth : Nat) : String :=
  String.ofList (List.replicate (2 * depth) ' ')

mutual

def outline (depth : Nat) : Shape → List String
  | node kind value span children => (indentation depth ++ outlineEntry kind value span) :: outlines (depth + 1) children

def outlines (depth : Nat) : List Shape → List String
  | [] => []
  | shape :: shapes => shape.outline depth ++ outlines depth shapes

end

theorem outlines_eq (depth : Nat) (shapes : List Shape) : outlines depth shapes = (shapes.map (outline depth)).flatten := by
  induction shapes with
  | nil => rfl
  | cons shape shapes ih => rw [outlines, ih, List.map_cons, List.flatten_cons]

end Shape

def Tree.outline (t : Tree) : String :=
  Text.unlines ((t.shape Tree.root t.root_lt_size).outline 0)

end DefunReader

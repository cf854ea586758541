import DefunReader.Reading.State

/-! The productions of the grammar, each adding its node and what belongs to it.

    program    = definition END
    definition = ( defun identifier ( identifier* ) expression* )
    expression = number | boolean | identifier | ' datum | ( if expression expression [expression] )
               | ( quote datum ) | ( expression expression* )
    datum      = number | boolean | ( datum* ) -/
namespace DefunReader.Reading

def leaf (parent : Nat) (kind : Node.Kind) (value : Node.Value) : Reading Nat := do
  let placed ← advance
  push parent kind (some value) placed.span

def identifier (parent : Nat) : Reading Nat := do
  match ← peek with
  | .identifier name => leaf parent .identifier (.name name)
  | _ => unexpected (.token .identifier) parent

def datum (limit : Nat) : Nat → Nat → Reading Nat
  | 0, _ => stop (.defect .outOfFuel)
  | fuel + 1, parent => do
    match ← peek with
    | .number n => leaf parent .constant (.number n)
    | .boolean b => leaf parent .constant (.boolean b)
    | .leftParen =>
      let opening ← advance
      enter limit opening.span
      let list ← push parent .list none opening.span
      let _ ← untilClose list (datum limit fuel list) fuel
      let _ ← expect .rightParen list
      leave
      return list
    | _ => unexpected .datum parent

def quotation (limit fuel : Nat) (parent : Nat) (span : Span) : Reading Nat := do
  let quote ← push parent .quote none span
  let _ ← datum limit fuel quote
  return quote

def ifForm (expression : Nat → Reading Nat) (parent : Nat) (span : Span) : Reading Nat := do
  let node ← push parent .ifForm none span
  let _ ← expression node
  let _ ← expression node
  if ← beforeClose node then
    let _ ← expression node
    return node
  else return node

def application (expression : Nat → Reading Nat) (fuel : Nat) (parent : Nat) (span : Span) :
    Reading Nat := do
  let node ← push parent .application none span
  let _ ← expression node
  let _ ← untilClose node (expression node) fuel
  return node

def formBody (limit : Nat) (expression : Nat → Reading Nat) (fuel : Nat) (parent : Nat) (span : Span) :
    Reading Nat := do
  match ← peek with
  | .ifWord =>
    let _ ← advance
    ifForm expression parent span
  | .quote false =>
    let _ ← advance
    quotation limit fuel parent span
  | _ => application expression fuel parent span

/-- A parenthesised expression. The token behind the parenthesis is read before the depth is checked. -/
def form (limit : Nat) (expression : Nat → Reading Nat) (fuel : Nat) (parent : Nat) : Reading Nat := do
  let opening ← expect .leftParen parent
  enter limit opening.span
  let node ← formBody limit expression fuel parent opening.span
  let _ ← expect .rightParen node
  leave
  return node

def expression (limit : Nat) : Nat → Nat → Reading Nat
  | 0, _ => stop (.defect .outOfFuel)
  | fuel + 1, parent => do
    match ← peek with
    | .number n => leaf parent .constant (.number n)
    | .boolean b => leaf parent .constant (.boolean b)
    | .identifier name => leaf parent .identifier (.name name)
    | .quote true =>
      let tick ← advance
      quotation limit fuel parent tick.span
    | .leftParen => form limit (expression limit fuel) fuel parent
    | _ => unexpected .expression parent

/-- The arity of a definition is known only once its parameter list is closed. -/
def definition (limit fuel : Nat) (program : Nat) : Reading Nat := do
  let opening ← expect .leftParen program
  let _ ← expect .defunWord program
  let defun ← push program (.defun 0) none opening.span
  let _ ← identifier defun
  let _ ← expect .leftParen defun
  let arity ← untilClose defun (identifier defun) fuel
  let _ ← expect .rightParen defun
  setKind defun (.defun arity)
  let _ ← untilClose defun (expression limit fuel defun) fuel
  let _ ← expect .rightParen defun
  note (.definitionRead arity)
  return defun

def program (limit fuel : Nat) : Reading Unit := do
  let _ ← definition limit fuel Tree.root
  let _ ← expect .finish Tree.root
  note (.programRead (← get).tree.size)

end DefunReader.Reading

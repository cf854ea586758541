import DefunReader.Tree.Shape

/-! The grammar of programs as derivations: the tokens of a phrase, how deep its forms and quoted lists
may nest, and the branches of the tree that it stands for. Spans are those of the tokens. -/
namespace DefunReader

namespace Grammar

inductive Item where
  | name
  | datum
  | expression
deriving DecidableEq

inductive Phrase where
  | one (item : Item)
  | many (item : Item)

/-- `room` bounds the forms and quoted lists that stand around each other; a tick needs none. -/
inductive Derives : Phrase → (room : Nat) → List Token.Placed → List Shape → Prop
  | nil {item room} : Derives (.many item) room [] []
  | cons {item room first rest shape shapes}
      (head : Derives (.one item) room first [shape]) (tail : Derives (.many item) room rest shapes) :
      Derives (.many item) room (first ++ rest) (shape :: shapes)
  | identifier {item room name span} (named : item ≠ .datum) :
      Derives (.one item) room [⟨.identifier name, span⟩] [.node .identifier (some (.name name)) span []]
  | number {item room n span} (valued : item ≠ .name) :
      Derives (.one item) room [⟨.number n, span⟩] [.node .constant (some (.number n)) span []]
  | boolean {item room b span} (valued : item ≠ .name) :
      Derives (.one item) room [⟨.boolean b, span⟩] [.node .constant (some (.boolean b)) span []]
  | tick {room span tokens shape} (datum : Derives (.one .datum) room tokens [shape]) :
      Derives (.one .expression) room (⟨.quote true, span⟩ :: tokens) [.node .quote none span [shape]]
  | quotation {room opening word closing tokens shape} (datum : Derives (.one .datum) room tokens [shape]) :
      Derives (.one .expression) (room + 1)
        (⟨.leftParen, opening⟩ :: ⟨.quote false, word⟩ :: (tokens ++ [⟨.rightParen, closing⟩]))
        [.node .quote none opening [shape]]
  | ifThen {room opening word closing first second condition branch}
      (tested : Derives (.one .expression) room first [condition])
      (chosen : Derives (.one .expression) room second [branch]) :
      Derives (.one .expression) (room + 1)
        (⟨.leftParen, opening⟩ :: ⟨.ifWord, word⟩ :: (first ++ (second ++ [⟨.rightParen, closing⟩])))
        [.node .ifForm none opening [condition, branch]]
  | ifElse {room opening word closing first second third condition branch other}
      (tested : Derives (.one .expression) room first [condition])
      (chosen : Derives (.one .expression) room second [branch])
      (otherwise : Derives (.one .expression) room third [other]) :
      Derives (.one .expression) (room + 1)
        (⟨.leftParen, opening⟩ :: ⟨.ifWord, word⟩ :: (first ++ (second ++ (third ++ [⟨.rightParen, closing⟩]))))
        [.node .ifForm none opening [condition, branch, other]]
  | application {room opening closing first rest operator operands}
      (head : Derives (.one .expression) room first [operator])
      (tail : Derives (.many .expression) room rest operands) :
      Derives (.one .expression) (room + 1)
        (⟨.leftParen, opening⟩ :: (first ++ (rest ++ [⟨.rightParen, closing⟩])))
        [.node .application none opening (operator :: operands)]
  | list {room opening closing tokens shapes} (items : Derives (.many .datum) room tokens shapes) :
      Derives (.one .datum) (room + 1)
        (⟨.leftParen, opening⟩ :: (tokens ++ [⟨.rightParen, closing⟩]))
        [.node .list none opening shapes]

inductive Program (limit : Nat) : List Token.Placed → Shape → Prop
  | intro {opening word listOpening listClosing closing ending name parameters body title formals expressions}
      (named : Derives (.one .name) limit name [title])
      (declared : Derives (.many .name) limit parameters formals)
      (defined : Derives (.many .expression) limit body expressions) :
      Program limit
        (⟨.leftParen, opening⟩ :: ⟨.defunWord, word⟩ :: (name ++ ⟨.leftParen, listOpening⟩ ::
          (parameters ++ ⟨.rightParen, listClosing⟩ :: (body ++ [⟨.rightParen, closing⟩, ⟨.finish, ending⟩]))))
        (.node .program none opening
          [.node (.defun formals.length) none opening (title :: (formals ++ expressions))])

theorem Derives.mono {phrase : Phrase} {room larger : Nat} {tokens : List Token.Placed} {shapes : List Shape}
    (derived : Derives phrase room tokens shapes) (le : room ≤ larger) : Derives phrase larger tokens shapes := by
  induction derived generalizing larger with
  | nil => exact .nil
  | cons _ _ head tail => exact .cons (head le) (tail le)
  | identifier named => exact .identifier named
  | number valued => exact .number valued
  | boolean valued => exact .boolean valued
  | tick _ datum => exact .tick (datum le)
  | quotation _ datum =>
    obtain ⟨inner, rfl⟩ := Nat.exists_eq_add_of_lt le
    exact .quotation (datum (by omega))
  | ifThen _ _ tested chosen =>
    obtain ⟨inner, rfl⟩ := Nat.exists_eq_add_of_lt le
    exact .ifThen (tested (by omega)) (chosen (by omega))
  | ifElse _ _ _ tested chosen otherwise =>
    obtain ⟨inner, rfl⟩ := Nat.exists_eq_add_of_lt le
    exact .ifElse (tested (by omega)) (chosen (by omega)) (otherwise (by omega))
  | application _ _ head tail =>
    obtain ⟨inner, rfl⟩ := Nat.exists_eq_add_of_lt le
    exact .application (head (by omega)) (tail (by omega))
  | list _ items =>
    obtain ⟨inner, rfl⟩ := Nat.exists_eq_add_of_lt le
    exact .list (items (by omega))

theorem Program.mono {limit larger : Nat} {tokens : List Token.Placed} {shape : Shape}
    (derived : Program limit tokens shape) (le : limit ≤ larger) : Program larger tokens shape := by
  cases derived with
  | intro named declared defined => exact .intro (named.mono le) (declared.mono le) (defined.mono le)

def startsItem : Token → Bool
  | .leftParen | .number _ | .boolean _ | .identifier _ | .quote true => true
  | .rightParen | .ifWord | .defunWord | .quote false | .finish => false

theorem Derives.starts {item : Item} {room : Nat} {tokens : List Token.Placed} {shapes : List Shape}
    (derived : Derives (.one item) room tokens shapes) :
    ∃ placed rest, tokens = placed :: rest ∧ startsItem placed.token := by
  cases derived <;> exact ⟨_, _, rfl, rfl⟩

end Grammar

/-- A token without a text of its own is known by its kind. -/
theorem Token.eq_of_kind {token bare : Token} (among : bare ∈ [.leftParen, .rightParen, .defunWord, .finish])
    (same : token.kind = bare.kind) : token = bare := by
  simp only [List.mem_cons, List.not_mem_nil, or_false] at among
  rcases among with rfl | rfl | rfl | rfl <;> cases token <;> first | rfl | cases same

end DefunReader

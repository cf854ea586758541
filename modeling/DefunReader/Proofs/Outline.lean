import DefunReader.Proofs.Depths
import DefunReader.Proofs.Faithful
import DefunReader.Proofs.Levels
import DefunReader.Proofs.Readback
import DefunReader.Tree.Outline

/-! Outlines of parsed trees list the nodes by number and can be read back. A line begins with the depth of its node, and
the depths of all nodes are the links between them; only byte offsets are not shown. -/
namespace DefunReader

namespace Node

def Kind.note : Kind → String
  | defun arity => " (arity " ++ toString arity ++ ")"
  | _ => ""

def valueNote (node : Node) : String :=
  match node.value with
  | some value => " " ++ value.text
  | none => ""

/-- The line for a node that stands below `depth` others. -/
def outlineLine (node : Node) (depth : Nat) : String :=
  String.ofList (List.replicate (2 * depth) ' ') ++ node.kind.name ++ node.kind.note ++ node.valueNote ++ " @ " ++
    toString node.span.start.line ++ ":" ++ toString node.span.start.column

example : outlineLine ⟨.defun 2, none, [2, 3, 4], some 0, ⟨⟨1, 2, 1⟩, 6⟩⟩ 1 = "  DEFUN (arity 2) @ 1:2" := by
  decide

/-- Leaves have a value that is spelled as it is shown, and no other node has one. -/
def Valued (node : Node) : Prop :=
  match node.value with
  | some value => node.kind = value.kind ∧ Lexeme value.text.toList value.token
  | none => node.kind ≠ .constant ∧ node.kind ≠ .identifier

/-- The nodes differ in nothing but byte offsets. -/
structure Agrees (node other : Node) : Prop where
  kind : node.kind = other.kind
  value : node.value = other.value
  children : node.children = other.children
  parent : node.parent = other.parent
  line : node.span.start.line = other.span.start.line
  column : node.span.start.column = other.span.start.column

variable {node node' : Node} {rest rest' : List Char}

theorem Kind.delimited_note (kind : Kind) (blank : rest.head? = some ' ') : Delimited (kind.note.toList ++ rest) := by
  have first : (kind.note.toList ++ rest).head? = some ' ' := by
    cases kind <;> simp [note, blank]
  intro c member
  rw [first] at member
  cases member
  rfl

theorem Kind.unique {kind kind' : Kind} (blank : rest.head? = some ' ') (blank' : rest'.head? = some ' ')
    (same : kind.name.toList ++ (kind.note.toList ++ rest) = kind'.name.toList ++ (kind'.note.toList ++ rest')) :
    kind = kind' ∧ rest = rest' := by
  obtain ⟨names, notes⟩ := split_atoms (isAtomic_of_name kind) (isAtomic_of_name kind') (kind.delimited_note blank)
    (kind'.delimited_note blank') same
  by_cases plain : ∀ arity, kind ≠ .defun arity
  · have kinds := kind_of_name names plain
    subst kinds
    exact ⟨rfl, List.append_cancel_left notes⟩
  · obtain ⟨arity, rfl⟩ : ∃ arity, kind = .defun arity := by simpa using plain
    cases kind' with
    | defun arity' =>
      simp only [note, String.toList_append, List.append_assoc, Nat.toString_eq_repr, Nat.toList_repr] at notes
      obtain ⟨arities, left⟩ := Text.digits_unique (by simp) (by simp) (List.append_cancel_left notes)
      exact ⟨by rw [arities], List.append_cancel_left left⟩
    | _ => simp [name] at names

theorem Valued.of_some {value : Value} (valued : node.Valued) (found : node.value = some value) :
    node.kind = value.kind ∧ Lexeme value.text.toList value.token := by
  rwa [Valued, found] at valued

theorem Valued.of_none (valued : node.Valued) (none : node.value = none) : node.kind ≠ .constant ∧ node.kind ≠ .identifier := by
  rwa [Valued, none] at valued

theorem Value.kind_cases (value : Value) : value.kind = .constant ∨ value.kind = .identifier := by
  cases value <;> simp [kind]

theorem value_unique (valued : node.Valued) (valued' : node'.Valued) (kinds : node.kind = node'.kind)
    (same : node.valueNote.toList ++ ' ' :: rest = node'.valueNote.toList ++ ' ' :: rest') :
    node.value = node'.value ∧ rest = rest' := by
  have mixed {node node' : Node} {value : Value} (valued : node.Valued) (valued' : node'.Valued)
      (kinds : node.kind = node'.kind) (found : node.value = some value) (none : node'.value = none) : False := by
    have proper := valued'.of_none none
    rw [← kinds, (valued.of_some found).1] at proper
    rcases value.kind_cases with kind | kind
    · exact proper.1 kind
    · exact proper.2 kind
  cases found : node.value with
  | some value =>
    cases found' : node'.value with
    | some value' =>
      have spelled := (valued.of_some found).2
      have spelled' := (valued'.of_some found').2
      simp only [valueNote, found, found', String.toList_append, List.append_assoc] at same
      obtain ⟨texts, left⟩ := split_atoms (isAtomic_of_leaf spelled) (isAtomic_of_leaf spelled') (delimited_blank rest)
        (delimited_blank rest') (List.append_cancel_left same)
      rw [← texts] at spelled'
      exact ⟨by rw [value_of_token (spelled.unique spelled')], (List.cons.inj left).2⟩
    | none => exact (mixed valued valued' kinds found found').elim
  | none =>
    cases found' : node'.value with
    | some value' => exact (mixed valued' valued kinds.symm found' found).elim
    | none => simpa [valueNote, found, found'] using same

theorem head?_valueNote (node : Node) : (node.valueNote.toList ++ ' ' :: rest).head? = some ' ' := by
  unfold valueNote
  cases node.value <;> simp

theorem outlineLine_eq (node : Node) (depth : Nat) :
    node.outlineLine depth = Shape.indentation depth ++ Shape.outlineEntry node.kind node.value node.span := by
  obtain ⟨kind, value, children, parent, span⟩ := node
  cases kind <;> cases value <;>
    simp [outlineLine, valueNote, Kind.note, Shape.indentation, Shape.outlineEntry, Span.text, Position.text, String.append_assoc]

theorem toList_outlineLine (node : Node) (depth : Nat) : (node.outlineLine depth).toList =
    List.replicate (2 * depth) ' ' ++ (node.kind.name.toList ++ (node.kind.note.toList ++
      (node.valueNote.toList ++ ' ' :: '@' :: ' ' :: node.span.start.text.toList))) := by
  simp [outlineLine, Position.text]

/-- A line shows how deep its node stands and everything about it but links and byte offsets. -/
theorem outlineLine_unique {depth depth' : Nat} (valued : node.Valued) (valued' : node'.Valued)
    (same : node.outlineLine depth = node'.outlineLine depth') :
    depth = depth' ∧ node.kind = node'.kind ∧ node.value = node'.value ∧
      node.span.start.line = node'.span.start.line ∧ node.span.start.column = node'.span.start.column := by
  have named (kind : Kind) (rest : List Char) : ∀ next ∈ (kind.name.toList ++ rest).head?, ¬next == ' ' := by
    cases kind <;> simp [Kind.name]
  have lines := congrArg String.toList same
  rw [toList_outlineLine, toList_outlineLine] at lines
  obtain ⟨indentations, entries⟩ := Text.blanks_unique (named _ _) (named _ _) lines
  obtain ⟨kinds, notes⟩ := Kind.unique node.head?_valueNote node'.head?_valueNote entries
  obtain ⟨values, places⟩ := value_unique valued valued' kinds notes
  obtain ⟨line, column, -⟩ := @Position.text_unique node.span.start node'.span.start [] [] (by simp) (by simp)
    (by simpa using places)
  exact ⟨by omega, kinds, values, line, column⟩

theorem newline_not_mem_outlineLine (valued : node.Valued) (depth : Nat) : '\n' ∉ (node.outlineLine depth).toList := by
  have note : '\n' ∉ node.kind.note.toList := by
    unfold Kind.note
    split <;> simp
  have value : '\n' ∉ node.valueNote.toList := by
    unfold valueNote
    split
    · rename_i value found
      simp [(valued.of_some found).2.newline_not_mem]
    · simp
  simp [toList_outlineLine, List.mem_replicate, note, value]

end Node

theorem Legible.of_value {kind : Node.Kind} {value : Node.Value} {span : Span} {children : List Shape}
    (legible : Legible (.node kind (some value) span children)) : kind = value.kind ∧ Lexeme value.text.toList value.token := by
  cases legible with
  | leaf spelled => exact ⟨rfl, spelled⟩

namespace Tree

variable {t : Tree} {id : Nat} {h : id < t.size}

theorem valued_of_parse {text : String} {limit : Nat} (parsed : parse text limit = .ok t) (id : Nat) (h : id < t.size) :
    (t.node id h).Valued := by
  have legible := legible_of_parse parsed id h
  have fits := (parse_well_formed parsed).fits id h
  rw [shape_eq_branches] at legible
  unfold Node.Valued
  split
  · rename_i value found
    rw [found] at legible
    exact legible.of_value
  · rename_i none
    constructor <;> intro kind <;> simp [Fits, kind, none] at fits

def outlineLine (t : Tree) (id : Nat) : String :=
  if h : id < t.size then (t.node id h).outlineLine (t.depth id h) else ""

theorem outlineLine_of_lt (h : id < t.size) : t.outlineLine id = (t.node id h).outlineLine (t.depth id h) := by
  rw [outlineLine, dif_pos h]

def outlineLines (t : Tree) : List String :=
  (List.range t.size).map t.outlineLine

theorem length_outlineLines (t : Tree) : t.outlineLines.length = t.size := by
  rw [outlineLines, List.length_map, List.length_range]

theorem getElem?_outlineLines (h : id < t.size) : t.outlineLines[id]? = some ((t.node id h).outlineLine (t.depth id h)) := by
  rw [outlineLines, List.getElem?_map, List.getElem?_range h, Option.map_some, outlineLine_of_lt h]

theorem newline_not_mem_outlineLines {text : String} {limit : Nat} (parsed : parse text limit = .ok t) :
    ∀ line ∈ t.outlineLines, '\n' ∉ line.toList := by
  intro line member
  obtain ⟨id, inside, rfl⟩ := List.mem_map.mp member
  have h := List.mem_range.mp inside
  rw [outlineLine_of_lt h]
  exact Node.newline_not_mem_outlineLine (valued_of_parse parsed id h) _

/-- What is printed branch by branch is a line for each node in the order of the walk. -/
theorem outline_eq_map (linked : t.Linked) (id : Nat) (h : id < t.size) :
    (t.shape id h).outline (t.depth id h) = (t.preorder id h).map t.outlineLine := by
  induction id, h using preorder.induct t with
  | case1 id h ih =>
    have below (child) (member : child ∈ t.children id h) (h' : child < t.size) :
        (t.shape child h').outline (t.depth id h + 1) = (t.preorder child h').map t.outlineLine := by
      rw [← depth_of_child ((linked id h child h').mp member)]
      exact ih ⟨child, member⟩
    rw [shape, Shape.outline, Shape.outlines_eq, preorder, List.map_cons, List.map_flatMap, outlineLine_of_lt h,
      Node.outlineLine_eq, List.map_map, ← List.flatMap_def]
    congr 1
    apply List.flatMap_congr
    intro child _
    exact below child child.2 _

theorem outline_eq (formed : t.WellFormed) : t.outline = Text.unlines t.outlineLines := by
  have top : t.depth root t.root_lt_size = 0 := depth_of_root ((formed.rooted root _).mpr rfl)
  rw [outline, ← top, outline_eq_map formed.linked, formed.numbered, outlineLines]

end Tree

end DefunReader

import DefunReader.Proofs.Erasure
import DefunReader.Proofs.Spelling
import DefunReader.Tree.Sexp

/-! What the one-line text of a branch shows. Blanks and parentheses stand only where the text puts them, none of them in a
leaf or a name of a kind, so the text of a branch ends where it must and can be read back, all but the spans. -/
namespace DefunReader

open Shape (bares sexps)

def isAtomic (c : Char) : Bool := c != ' ' && c != '(' && c != ')'

/-- The text does not go on with a leaf or a name. -/
def Delimited (text : List Char) : Prop := ∀ c ∈ text.head?, isAtomic c = false

namespace Node.Value

def token : Value → Token
  | number n => .number n
  | boolean b => .boolean b
  | name s => .identifier s

def kind : Value → Kind
  | number _ | boolean _ => .constant
  | name _ => .identifier

end Node.Value

/-- Branches with leaves that are spelled as they are shown, and as many names in every definition as its arity says. -/
inductive Legible : Shape → Prop
  | leaf {value span} (spelled : Lexeme value.text.toList value.token) : Legible (.node value.kind (some value) span [])
  | form {kind span children} (plain : ∀ arity, kind ≠ .defun arity) (each : ∀ child ∈ children, Legible child) :
      Legible (.node kind none span children)
  | definition {span title formals expressions} (named : Legible title) (declared : ∀ formal ∈ formals, Legible formal)
      (defined : ∀ child ∈ expressions, Legible child) :
      Legible (.node (.defun formals.length) none span (title :: (formals ++ expressions)))

theorem Legible.children {kind : Node.Kind} {value : Option Node.Value} {span : Span} {children : List Shape}
    (legible : Legible (.node kind value span children)) : ∀ child ∈ children, Legible child := by
  cases legible with
  | leaf => exact List.forall_mem_nil _
  | form _ each => exact each
  | definition named declared defined =>
    exact List.forall_mem_cons.mpr ⟨named, List.forall_mem_append.mpr ⟨declared, defined⟩⟩

namespace Shape

def spacedText (shapes : List Shape) : List Char :=
  shapes.flatMap fun shape => ' ' :: shape.sexp.toList

def listedText (shapes : List Shape) : List Char :=
  [' '].intercalate (shapes.map fun shape => shape.sexp.toList)

theorem cons_listedText {shapes : List Shape} (some : shapes ≠ []) : ' ' :: listedText shapes = spacedText shapes := by
  induction shapes with
  | nil => exact absurd rfl some
  | cons shape shapes ih =>
    cases shapes with
    | nil => simp [listedText, spacedText]
    | cons next shapes =>
      have further : ' ' :: listedText (next :: shapes) = spacedText (next :: shapes) := ih (List.cons_ne_nil _ _)
      have first : listedText (shape :: next :: shapes) = shape.sexp.toList ++ ' ' :: listedText (next :: shapes) := by
        simp [listedText]
      rw [first, further]
      simp [spacedText]

theorem toList_spaced (shapes : List Shape) : (spaced (shapes.map sexp)).toList = spacedText shapes := by
  simp [spaced, spacedText, List.flatMap_map]

theorem toList_sexp_form {kind : Node.Kind} {span : Span} {children : List Shape} (plain : ∀ arity, kind ≠ .defun arity)
    (rest : List Char) : (node kind none span children).sexp.toList ++ rest =
      '(' :: (kind.name.toList ++ (spacedText children ++ ')' :: rest)) := by
  have text : formText kind (children.map sexp) = "(" ++ kind.name ++ spaced (children.map sexp) ++ ")" := by
    unfold formText
    split
    · exact absurd rfl (plain _)
    · rfl
  simp [sexp, sexps_eq, text, toList_spaced]

theorem toList_sexp_definition {span : Span} {title : Shape} {formals expressions : List Shape} (rest : List Char) :
    (node (.defun formals.length) none span (title :: (formals ++ expressions))).sexp.toList ++ rest =
      '(' :: ((Node.Kind.defun formals.length).name.toList ++ ' ' :: (title.sexp.toList ++ ' ' :: '(' ::
        (listedText formals ++ ')' :: (spacedText expressions ++ ')' :: rest)))) := by
  have fits : formals.length ≤ ((formals ++ expressions).map sexp).length := by simp
  have front : ((formals ++ expressions).map sexp).take formals.length = formals.map sexp := by simp
  have back : ((formals ++ expressions).map sexp).drop formals.length = expressions.map sexp := by simp
  rw [sexp, sexps_eq, List.map_cons, formText, if_pos fits, front, back]
  simp [toList_spaced, listedText, Function.comp_def]

mutual

theorem sexp_bare : (shape : Shape) → shape.bare.sexp = shape.sexp
  | node kind (some value) span children => rfl
  | node kind none span children => by rw [bare, sexp, sexps_bares, sexp]

theorem sexps_bares : (shapes : List Shape) → sexps (bares shapes) = sexps shapes
  | [] => rfl
  | shape :: shapes => by rw [bares, sexps, sexp_bare, sexps_bares, sexps]

end

end Shape

section Leaves

variable {value value' : Node.Value} {text text' rest rest' : List Char}

theorem isAtomic_of_isSubsequent {c : Char} (subsequent : isSubsequent c) : isAtomic c := by
  have plain (d : Char) (other : isSubsequent d = false) : c ≠ d := by
    rintro rfl
    rw [subsequent] at other
    cases other
  simp [isAtomic, plain ' ' rfl, plain '(' rfl, plain ')' rfl]

theorem isAtomic_of_leaf (spelled : Lexeme text value.token) : ∀ c ∈ text, isAtomic c := by
  have numeral {digits : List Char} (decimal : ∀ c ∈ digits, c.isDigit) : ∀ c ∈ digits, isAtomic c :=
    fun c member => isAtomic_of_isSubsequent (by simp [isSubsequent, decimal c member])
  generalize token : value.token = t at spelled
  cases spelled with
  | natural some decimal => exact numeral decimal
  | negative some decimal => exact List.forall_mem_cons.mpr ⟨rfl, numeral decimal⟩
  | sign signs => rcases signs with rfl | rfl <;> simp [isAtomic]
  | identifier initial subsequent =>
    refine List.forall_mem_cons.mpr ⟨?_, fun c member => isAtomic_of_isSubsequent (subsequent c member)⟩
    exact isAtomic_of_isSubsequent (by simp [isSubsequent, initial])
  | _ => cases value <;> simp_all [Node.Value.token, isAtomic]

theorem Lexeme.unique {token token' : Token} (spelled : Lexeme text token) (spelled' : Lexeme text token') : token = token' := by
  have front := @front_of_longest text [] token ⟨spelled, by simp⟩
  have front' := @front_of_longest text [] token' ⟨spelled', by simp⟩
  cases front.symm.trans front'
  rfl

theorem value_of_token (same : value.token = value'.token) : value = value' := by
  cases value <;> cases value' <;> cases same <;> rfl

/-- Atoms before delimited texts are told apart from them. -/
theorem split_atoms (atomic : ∀ c ∈ text, isAtomic c) (atomic' : ∀ c ∈ text', isAtomic c) (ends : Delimited rest)
    (ends' : Delimited rest') (same : text ++ rest = text' ++ rest') : text = text' ∧ rest = rest' := by
  have stops {rest : List Char} (ends : Delimited rest) : ∀ c ∈ rest.head?, ¬isAtomic c := by
    intro c member
    simp [ends c member]
  exact runs_unique atomic atomic' (stops ends) (stops ends') same

end Leaves

theorem isAtomic_of_name (kind : Node.Kind) : ∀ c ∈ kind.name.toList, isAtomic c := by
  cases kind <;> simp [Node.Kind.name, isAtomic]

theorem kind_of_name {kind kind' : Node.Kind} (same : kind.name.toList = kind'.name.toList)
    (plain : ∀ arity, kind ≠ .defun arity) : kind = kind' := by
  cases kind <;> cases kind' <;> simp_all [Node.Kind.name]

/-- Whatever delimited text stands behind it, the text of the branch is told from that, and shows the branch but for its spans. -/
def Readable (shape : Shape) : Prop :=
  ∀ {shape' rest rest'}, Legible shape' → Delimited rest → Delimited rest' →
    shape.sexp.toList ++ rest = shape'.sexp.toList ++ rest' → shape.bare = shape'.bare ∧ rest = rest'

section Readable

variable {shape : Shape} {shapes shapes' : List Shape} {rest rest' : List Char}

theorem Legible.head (legible : Legible shape) : ∃ first tail, shape.sexp.toList = first :: tail ∧ first ≠ ')' := by
  cases legible with
  | @leaf value span spelled =>
    obtain ⟨first, tail, text, -⟩ := spelled.not_blank
    refine ⟨first, tail, text, ?_⟩
    have atomic := isAtomic_of_leaf spelled first (by simp [text])
    rintro rfl
    cases atomic
  | form plain => exact ⟨_, _, (List.append_nil _).symm.trans (Shape.toList_sexp_form plain []), by decide⟩
  | definition => exact ⟨_, _, (List.append_nil _).symm.trans (Shape.toList_sexp_definition []), by decide⟩

theorem delimited_spaced (shapes : List Shape) (rest : List Char) : Delimited (Shape.spacedText shapes ++ ')' :: rest) := by
  intro c member
  cases shapes <;> cases member <;> rfl

theorem delimited_blank (rest : List Char) : Delimited (' ' :: rest) := by
  intro c member
  cases member
  rfl

theorem readable_spaced (each : ∀ shape ∈ shapes, Readable shape) (legible : ∀ shape ∈ shapes', Legible shape)
    (same : Shape.spacedText shapes ++ ')' :: rest = Shape.spacedText shapes' ++ ')' :: rest') :
    bares shapes = bares shapes' ∧ rest = rest' := by
  induction shapes generalizing shapes' with
  | nil =>
    cases shapes' with
    | nil => exact ⟨rfl, (List.cons.inj same).2⟩
    | cons shape' shapes' => cases (List.cons.inj same).1
  | cons shape shapes ih =>
    cases shapes' with
    | nil => cases (List.cons.inj same).1
    | cons shape' shapes' =>
      obtain ⟨first, others⟩ := List.forall_mem_cons.mp each
      obtain ⟨first', others'⟩ := List.forall_mem_cons.mp legible
      simp only [Shape.spacedText, List.flatMap_cons, List.cons_append, List.append_assoc, List.cons.injEq, true_and] at same
      obtain ⟨head, behind⟩ := first first' (delimited_spaced shapes rest) (delimited_spaced shapes' rest') same
      obtain ⟨tail, left⟩ := ih others others' behind
      exact ⟨by rw [bares, bares, head, tail], left⟩

theorem listedText_ne_paren (legible : ∀ shape ∈ shapes, Legible shape) (some : shapes ≠ []) :
    Shape.listedText shapes ++ ')' :: rest ≠ ')' :: rest' := by
  cases shapes with
  | nil => exact absurd rfl some
  | cons shape shapes =>
    obtain ⟨first, tail, text, proper⟩ := (legible shape List.mem_cons_self).head
    have front : ∃ more, Shape.listedText (shape :: shapes) = first :: more := by
      cases shapes with
      | nil => exact ⟨tail, by simp [Shape.listedText, text]⟩
      | cons next shapes => exact ⟨_, by simp [Shape.listedText, text]; rfl⟩
    obtain ⟨more, front⟩ := front
    rw [front]
    intro same
    exact proper (List.cons.inj same).1

theorem readable_listed (readable : ∀ shape ∈ shapes, Readable shape) (legible : ∀ shape ∈ shapes, Legible shape)
    (legible' : ∀ shape ∈ shapes', Legible shape)
    (same : Shape.listedText shapes ++ ')' :: rest = Shape.listedText shapes' ++ ')' :: rest') :
    bares shapes = bares shapes' ∧ rest = rest' := by
  by_cases none : shapes = []
  · by_cases none' : shapes' = []
    · subst none none'
      exact ⟨rfl, (List.cons.inj same).2⟩
    · subst none
      exact absurd same.symm (listedText_ne_paren legible' none')
  · by_cases none' : shapes' = []
    · subst none'
      exact absurd same (listedText_ne_paren legible none)
    · have spaced := congrArg (List.cons ' ') same
      rw [← List.cons_append, ← List.cons_append, Shape.cons_listedText none, Shape.cons_listedText none'] at spaced
      exact readable_spaced readable legible' spaced

theorem leaf_ne_paren {value : Node.Value} (spelled : Lexeme value.text.toList value.token) :
    value.text.toList ++ rest ≠ '(' :: rest' := by
  obtain ⟨first, tail, text, -⟩ := spelled.not_blank
  have atomic := isAtomic_of_leaf spelled first (by simp [text])
  rw [text]
  intro same
  cases same
  cases atomic

theorem opening_eq {kind kind' : Node.Kind} (ends : Delimited rest) (ends' : Delimited rest')
    (same : '(' :: (kind.name.toList ++ rest) = '(' :: (kind'.name.toList ++ rest')) :
    kind.name.toList = kind'.name.toList ∧ rest = rest' :=
  split_atoms (isAtomic_of_name kind) (isAtomic_of_name kind') ends ends' (List.cons.inj same).2

theorem Legible.readable (legible : Legible shape) : Readable shape := by
  -- A leaf and a form differ in their first character, forms in their names; only then are there children to compare.
  induction legible with
  | @leaf value span spelled =>
    intro shape' rest rest' legible' ends ends' same
    cases legible' with
    | @leaf value' span' spelled' =>
      obtain ⟨text, left⟩ := split_atoms (isAtomic_of_leaf spelled) (isAtomic_of_leaf spelled') ends ends' same
      rw [← text] at spelled'
      rw [value_of_token (spelled.unique spelled')]
      exact ⟨rfl, left⟩
    | form plain =>
      rw [Shape.toList_sexp_form plain] at same
      exact absurd same (leaf_ne_paren spelled)
    | definition =>
      rw [Shape.toList_sexp_definition] at same
      exact absurd same (leaf_ne_paren spelled)
  | @form kind span children plain each ih =>
    intro shape' rest rest' legible' ends ends' same
    rw [Shape.toList_sexp_form plain] at same
    cases legible' with
    | leaf spelled' => exact absurd same.symm (leaf_ne_paren spelled')
    | form plain' each' =>
      rw [Shape.toList_sexp_form plain'] at same
      obtain ⟨names, inner⟩ := opening_eq (delimited_spaced _ _) (delimited_spaced _ _) same
      obtain ⟨children, left⟩ := readable_spaced ih each' inner
      rw [Shape.bare, Shape.bare, kind_of_name names plain, children]
      exact ⟨rfl, left⟩
    | definition =>
      rw [Shape.toList_sexp_definition] at same
      obtain ⟨names, -⟩ := opening_eq (delimited_spaced _ _) (delimited_blank _) same
      exact absurd (kind_of_name names plain) (plain _)
  | @definition span title formals expressions named declared defined title_ih formals_ih expressions_ih =>
    intro shape' rest rest' legible' ends ends' same
    rw [Shape.toList_sexp_definition] at same
    cases legible' with
    | leaf spelled' => exact absurd same.symm (leaf_ne_paren spelled')
    | form plain' =>
      rw [Shape.toList_sexp_form plain'] at same
      obtain ⟨names, -⟩ := opening_eq (delimited_blank _) (delimited_spaced _ _) same
      exact absurd (kind_of_name names.symm plain') (plain' _)
    | @definition span' title' formals' expressions' named' declared' defined' =>
      rw [Shape.toList_sexp_definition] at same
      obtain ⟨-, inner⟩ := opening_eq (delimited_blank _) (delimited_blank _) same
      obtain ⟨title, behind⟩ := title_ih named' (delimited_blank _) (delimited_blank _) (List.cons.inj inner).2
      obtain ⟨formals, further⟩ := readable_listed formals_ih declared declared' (List.cons.inj (List.cons.inj behind).2).2
      obtain ⟨expressions, left⟩ := readable_spaced expressions_ih defined' further
      have arity := congrArg List.length formals
      rw [Shape.length_bares, Shape.length_bares] at arity
      simp only [Shape.bare, bares, Shape.bares_append, title, formals, expressions, arity]
      exact ⟨trivial, left⟩

theorem Legible.sexp_eq_iff {shape' : Shape} (legible : Legible shape) (legible' : Legible shape') :
    shape.sexp = shape'.sexp ↔ shape.bare = shape'.bare := by
  constructor
  · intro same
    have ends : Delimited [] := by simp [Delimited]
    exact (legible.readable legible' ends ends (by rw [same])).1
  · intro same
    rw [← shape.sexp_bare, same, shape'.sexp_bare]

end Readable

end DefunReader

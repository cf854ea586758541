import DefunReader.Proofs.Grammar

/-! Where tokens stand in a text is nothing to the grammar: the same tokens elsewhere are a phrase of the same kind. -/
namespace DefunReader.Grammar

def Alike (others tokens : List Token.Placed) : Prop :=
  others.map Token.Placed.token = tokens.map Token.Placed.token

variable {tokens more others : List Token.Placed} {token : Token} {span : Span} {room limit : Nat}

theorem Alike.cons (alike : Alike others (⟨token, span⟩ :: tokens)) :
    ∃ span rest, others = ⟨token, span⟩ :: rest ∧ Alike rest tokens := by
  obtain ⟨⟨_, span⟩, rest, rfl, rfl, later⟩ := List.map_eq_cons_iff.mp alike
  exact ⟨span, rest, rfl, later⟩

theorem Alike.append (alike : Alike others (tokens ++ more)) :
    ∃ first rest, others = first ++ rest ∧ Alike first tokens ∧ Alike rest more := by
  rw [Alike, List.map_append] at alike
  exact List.map_eq_append_iff.mp alike

theorem Alike.nil (alike : Alike others []) : others = [] :=
  List.map_eq_nil_iff.mp alike

theorem Alike.singleton (alike : Alike others [⟨token, span⟩]) : ∃ span, others = [⟨token, span⟩] := by
  obtain ⟨span, rest, rfl, none⟩ := alike.cons
  exact ⟨span, by rw [none.nil]⟩

/-- A phrase has as many branches wherever it stands. -/
def Stands (phrase : Phrase) (room : Nat) (tokens : List Token.Placed) (branches : Nat) : Prop :=
  ∃ shapes, Derives phrase room tokens shapes ∧ shapes.length = branches

theorem Stands.one {item : Item} (stands : Stands (.one item) room tokens 1) :
    ∃ shape, Derives (.one item) room tokens [shape] := by
  obtain ⟨shapes, derived, one⟩ := stands
  obtain ⟨shape, rfl⟩ := List.length_eq_one_iff.mp one
  exact ⟨shape, derived⟩

theorem Derives.stands {phrase : Phrase} {shapes : List Shape} (derived : Derives phrase room tokens shapes)
    (alike : Alike others tokens) : Stands phrase room others shapes.length := by
  induction derived generalizing others with
  | nil =>
    cases alike.nil
    exact ⟨[], .nil, rfl⟩
  | cons _ _ head tail =>
    obtain ⟨first, rest, rfl, alikeFirst, alikeRest⟩ := alike.append
    obtain ⟨shape, head⟩ := (head alikeFirst).one
    obtain ⟨shapes, tail, length⟩ := tail alikeRest
    exact ⟨shape :: shapes, .cons head tail, by rw [List.length_cons, length, List.length_cons]⟩
  | identifier named =>
    obtain ⟨span, rfl⟩ := alike.singleton
    exact ⟨_, .identifier named, rfl⟩
  | number valued =>
    obtain ⟨span, rfl⟩ := alike.singleton
    exact ⟨_, .number valued, rfl⟩
  | boolean valued =>
    obtain ⟨span, rfl⟩ := alike.singleton
    exact ⟨_, .boolean valued, rfl⟩
  | tick _ datum =>
    obtain ⟨span, rest, rfl, inside⟩ := alike.cons
    obtain ⟨shape, datum⟩ := (datum inside).one
    exact ⟨_, .tick datum, rfl⟩
  | quotation _ datum =>
    obtain ⟨opening, rest, rfl, behindOpening⟩ := alike.cons
    obtain ⟨word, rest, rfl, behindWord⟩ := behindOpening.cons
    obtain ⟨quoted, rest, rfl, inside, behind⟩ := behindWord.append
    obtain ⟨closing, rfl⟩ := behind.singleton
    obtain ⟨shape, datum⟩ := (datum inside).one
    exact ⟨_, .quotation datum, rfl⟩
  | ifThen _ _ tested chosen =>
    obtain ⟨opening, rest, rfl, behindOpening⟩ := alike.cons
    obtain ⟨word, rest, rfl, behindWord⟩ := behindOpening.cons
    obtain ⟨first, rest, rfl, alikeFirst, behindFirst⟩ := behindWord.append
    obtain ⟨second, rest, rfl, alikeSecond, behind⟩ := behindFirst.append
    obtain ⟨closing, rfl⟩ := behind.singleton
    obtain ⟨condition, tested⟩ := (tested alikeFirst).one
    obtain ⟨branch, chosen⟩ := (chosen alikeSecond).one
    exact ⟨_, .ifThen tested chosen, rfl⟩
  | ifElse _ _ _ tested chosen otherwise =>
    obtain ⟨opening, rest, rfl, behindOpening⟩ := alike.cons
    obtain ⟨word, rest, rfl, behindWord⟩ := behindOpening.cons
    obtain ⟨first, rest, rfl, alikeFirst, behindFirst⟩ := behindWord.append
    obtain ⟨second, rest, rfl, alikeSecond, behindSecond⟩ := behindFirst.append
    obtain ⟨third, rest, rfl, alikeThird, behind⟩ := behindSecond.append
    obtain ⟨closing, rfl⟩ := behind.singleton
    obtain ⟨condition, tested⟩ := (tested alikeFirst).one
    obtain ⟨branch, chosen⟩ := (chosen alikeSecond).one
    obtain ⟨other, otherwise⟩ := (otherwise alikeThird).one
    exact ⟨_, .ifElse tested chosen otherwise, rfl⟩
  | application _ _ head tail =>
    obtain ⟨opening, rest, rfl, behindOpening⟩ := alike.cons
    obtain ⟨first, rest, rfl, alikeFirst, behindFirst⟩ := behindOpening.append
    obtain ⟨arguments, rest, rfl, alikeRest, behind⟩ := behindFirst.append
    obtain ⟨closing, rfl⟩ := behind.singleton
    obtain ⟨operator, head⟩ := (head alikeFirst).one
    obtain ⟨operands, tail, -⟩ := tail alikeRest
    exact ⟨_, .application head tail, rfl⟩
  | list _ items =>
    obtain ⟨opening, rest, rfl, behindOpening⟩ := alike.cons
    obtain ⟨elements, rest, rfl, inside, behind⟩ := behindOpening.append
    obtain ⟨closing, rfl⟩ := behind.singleton
    obtain ⟨shapes, items, -⟩ := items inside
    exact ⟨_, .list items, rfl⟩

theorem Program.stands {shape : Shape} (derived : Program limit tokens shape) (alike : Alike others tokens) :
    ∃ shape, Program limit others shape := by
  cases derived with
  | intro named declared defined =>
    obtain ⟨opening, rest, rfl, behindOpening⟩ := alike.cons
    obtain ⟨word, rest, rfl, behindWord⟩ := behindOpening.cons
    obtain ⟨name, rest, rfl, alikeName, behindName⟩ := behindWord.append
    obtain ⟨listOpening, rest, rfl, behindList⟩ := behindName.cons
    obtain ⟨parameters, rest, rfl, alikeParameters, behindParameters⟩ := behindList.append
    obtain ⟨listClosing, rest, rfl, behindClosing⟩ := behindParameters.cons
    obtain ⟨body, rest, rfl, alikeBody, behindBody⟩ := behindClosing.append
    obtain ⟨closing, rest, rfl, behind⟩ := behindBody.cons
    obtain ⟨ending, rfl⟩ := behind.singleton
    obtain ⟨title, named⟩ := (named.stands alikeName).one
    obtain ⟨formals, declared, -⟩ := declared.stands alikeParameters
    obtain ⟨expressions, defined, -⟩ := defined.stands alikeBody
    exact ⟨_, .intro named declared defined⟩

end DefunReader.Grammar

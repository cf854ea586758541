import DefunReader.Proofs.Grammar
import DefunReader.Proofs.Numbering

/-! Tokens, branches and nodes without their places. Erasing the spans of a derivation leaves a derivation, and the
nodes of an erased branch are the erased nodes of the branch. -/
namespace DefunReader

def Token.Placed.bare (placed : Token.Placed) : Token.Placed := ⟨placed.token, default⟩

def Node.bare (node : Node) : Node := { node with span := default }

/-- All of a tree but its spans. -/
def Tree.bare (t : Tree) : List Node := t.nodes.toList.map Node.bare

namespace Shape

mutual

def bare : Shape → Shape
  | node kind value _ children => .node kind value default (bares children)

def bares : List Shape → List Shape
  | [] => []
  | shape :: shapes => shape.bare :: bares shapes

end

@[simp] theorem length_bares (shapes : List Shape) : (bares shapes).length = shapes.length := by
  induction shapes with
  | nil => rfl
  | cons shape shapes ih => rw [bares, List.length_cons, ih, List.length_cons]

theorem bares_append (shapes more : List Shape) : bares (shapes ++ more) = bares shapes ++ bares more := by
  induction shapes with
  | nil => rfl
  | cons shape shapes ih => rw [List.cons_append, bares, ih, bares, List.cons_append]

mutual

theorem count_bare : (shape : Shape) → shape.bare.count = shape.count
  | node kind value span children => by rw [bare, count, counts_bares, count]

theorem counts_bares : (shapes : List Shape) → counts (bares shapes) = counts shapes
  | [] => rfl
  | shape :: shapes => by rw [bares, counts, count_bare, counts_bares, counts]

end

theorem numbers_bares (id : Nat) (shapes : List Shape) : numbers id (bares shapes) = numbers id shapes := by
  induction shapes generalizing id with
  | nil => rfl
  | cons shape shapes ih => rw [bares, numbers, count_bare, ih, numbers]

mutual

theorem map_bare_listing (above : Option Nat) (id : Nat) : (shape : Shape) →
    (shape.listing above id).map Node.bare = shape.bare.listing above id
  | node kind value span children => by
    rw [listing, List.map_cons, map_bare_listings, bare, listing, numbers_bares, Node.bare]

theorem map_bare_listings (parent id : Nat) : (shapes : List Shape) →
    (listings parent id shapes).map Node.bare = listings parent id (bares shapes)
  | [] => rfl
  | shape :: shapes => by
    rw [listings, List.map_append, map_bare_listing, map_bare_listings, bares, listings, count_bare]

end

end Shape

theorem Tree.Lists.bare {t : Tree} {shape : Shape} (lists : t.Lists shape) : t.bare = shape.bare.listing none root := by
  rw [Tree.bare, lists, Shape.map_bare_listing]

namespace Grammar

open Shape (bares)

variable {tokens : List Token.Placed} {room limit : Nat}

theorem Derives.bare {phrase : Phrase} {shapes : List Shape} (derived : Derives phrase room tokens shapes) :
    Derives phrase room (tokens.map Token.Placed.bare) (bares shapes) := by
  induction derived with
  | nil => exact .nil
  | cons _ _ head tail =>
    rw [List.map_append]
    exact .cons head tail
  | identifier named => exact .identifier named
  | number valued => exact .number valued
  | boolean valued => exact .boolean valued
  | tick _ datum => exact .tick datum
  | quotation _ datum =>
    simp only [List.map_cons, List.map_append]
    exact .quotation datum
  | ifThen _ _ tested chosen =>
    simp only [List.map_cons, List.map_append]
    exact .ifThen tested chosen
  | ifElse _ _ _ tested chosen otherwise =>
    simp only [List.map_cons, List.map_append]
    exact .ifElse tested chosen otherwise
  | application _ _ head tail =>
    simp only [List.map_cons, List.map_append]
    exact .application head tail
  | list _ items =>
    simp only [List.map_cons, List.map_append]
    exact .list items

theorem Program.bare {shape : Shape} (derived : Program limit tokens shape) :
    Program limit (tokens.map Token.Placed.bare) shape.bare := by
  cases derived with
  | intro named declared defined =>
    simp only [List.map_cons, List.map_append, Shape.bare, bares, Shape.bares_append]
    rw [← Shape.length_bares]
    exact .intro named.bare declared.bare defined.bare

end Grammar

end DefunReader

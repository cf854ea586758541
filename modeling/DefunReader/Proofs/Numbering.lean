import DefunReader.Tree.Shape

/-! Branches as lists of nodes: every node comes before its children, and numbers count the nodes in that order. -/
namespace DefunReader

namespace Shape

mutual

def count : Shape → Nat
  | node _ _ _ children => counts children + 1

def counts : List Shape → Nat
  | [] => 0
  | shape :: shapes => shape.count + counts shapes

end

/-- The numbers of neighbouring branches, the first of which starts at `id`. -/
def numbers (id : Nat) : List Shape → List Nat
  | [] => []
  | shape :: shapes => id :: numbers (id + shape.count) shapes

mutual

/-- The nodes of a branch by number, from `id` on. -/
def listing (parent : Option Nat) (id : Nat) : Shape → List Node
  | node kind value span children =>
    { kind, value, children := numbers (id + 1) children, parent, span } :: listings id (id + 1) children

def listings (parent id : Nat) : List Shape → List Node
  | [] => []
  | shape :: shapes => shape.listing (some parent) id ++ listings parent (id + shape.count) shapes

end

theorem numbers_append (id : Nat) (shapes more : List Shape) :
    numbers id (shapes ++ more) = numbers id shapes ++ numbers (id + counts shapes) more := by
  induction shapes generalizing id with
  | nil => rfl
  | cons shape shapes ih => simp only [List.cons_append, numbers, counts, ih, Nat.add_assoc]

theorem listings_append (parent id : Nat) (shapes more : List Shape) :
    listings parent id (shapes ++ more) = listings parent id shapes ++ listings parent (id + counts shapes) more := by
  induction shapes generalizing id with
  | nil => rfl
  | cons shape shapes ih => simp only [List.cons_append, listings, counts, ih, List.append_assoc, Nat.add_assoc]

mutual

@[simp] theorem length_listing (parent : Option Nat) (id : Nat) : (shape : Shape) →
    (shape.listing parent id).length = shape.count
  | node kind value span children => by
    rw [listing, List.length_cons, length_listings, count]

@[simp] theorem length_listings (parent id : Nat) : (shapes : List Shape) →
    (listings parent id shapes).length = counts shapes
  | [] => rfl
  | shape :: shapes => by
    rw [listings, List.length_append, length_listing, length_listings, counts]

end

end Shape

def Tree.Lists (t : Tree) (shape : Shape) : Prop :=
  t.nodes.toList = shape.listing none root

theorem Tree.Lists.unique {t other : Tree} {shape : Shape} (lists : t.Lists shape) (lists' : other.Lists shape) : t = other := by
  have nodes : t.nodes = other.nodes := Array.toList_inj.mp (lists.trans lists'.symm)
  cases t
  cases other
  cases nodes
  rfl

end DefunReader

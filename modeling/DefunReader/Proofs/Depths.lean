import Mathlib.Data.List.Sort
import DefunReader.Proofs.WellFormed

/-! How deep the nodes of a tree stand. In a tree that is numbered in the order of a walk the depths fix the links: the
parent of a node is the last one before it that is less deep. -/
namespace DefunReader.Tree

variable {t t' : Tree} {id parent : Nat} {h : id < t.size}

def depth (t : Tree) (id : Nat) (h : id < t.size) : Nat :=
  (t.ancestors id h).length

theorem depth_of_root (found : t.parent? id h = none) : t.depth id h = 0 := by
  rw [depth, ancestors_of_root found, List.length_nil]

theorem depth_of_child (found : t.parent? id h = some parent) (h' : parent < t.size) :
    t.depth id h = t.depth parent h' + 1 := by
  rw [depth, ancestors_of_child found, List.length_cons, depth]

theorem depth_lt_of_mem_ancestors {other : Nat} {h' : other < t.size} (member : id ∈ t.ancestors other h') :
    t.depth id h < t.depth other h' := by
  induction other using Nat.strongRecOn with
  | ind other ih =>
    obtain ⟨above, below, found, either⟩ := mem_ancestors_iff.mp member
    have deeper := depth_of_child found below
    rcases either with same | member
    · subst same
      omega
    · have earlier : t.depth id h < t.depth above below := ih above (t.parent?_lt found) member
      omega

namespace WellFormed

theorem parent?_eq_some_iff (formed : t.WellFormed) (h' : parent < t.size) : t.parent? id h = some parent ↔
    parent < id ∧ t.depth parent h' < t.depth id h ∧
      ∀ other h'', parent < other → other < id → t.depth id h ≤ t.depth other h'' := by
  have nearest {parent : Nat} (h' : parent < t.size) (found : t.parent? id h = some parent) :
      parent < id ∧ t.depth parent h' < t.depth id h ∧
        ∀ other h'', parent < other → other < id → t.depth id h ≤ t.depth other h'' := by
    have deeper := depth_of_child found h'
    refine ⟨t.parent?_lt found, by omega, ?_⟩
    intro other h'' behind before
    -- What lies between a node and its child lies below the node.
    obtain ⟨count, -, within⟩ := formed.contiguous parent h'
    have inside := (within id h).mp (.inr (mem_ancestors_iff.mpr ⟨parent, h', found, .inl rfl⟩))
    rcases (within other h'').mpr (by omega) with same | member
    · omega
    · have below : t.depth parent h' < t.depth other h'' := depth_lt_of_mem_ancestors member
      omega
  constructor
  · exact nearest h'
  · intro last
    obtain ⟨before, shallower, between⟩ := last
    cases found : t.parent? id h with
    | none =>
      rw [depth_of_root found] at shallower
      omega
    | some above =>
      have h'' := Nat.lt_trans (t.parent?_lt found) h
      obtain ⟨before', shallower', between'⟩ := nearest h'' found
      rcases Nat.lt_trichotomy above parent with less | same | more
      · have := between' parent h' less before
        omega
      · rw [same]
      · have := between above h'' more before'
        omega

section Depths

variable (formed : t.WellFormed) (formed' : t'.WellFormed) (size : t.size = t'.size)
  (depths : ∀ id h h', t.depth id h = t'.depth id h')

include formed formed' size depths

theorem parent?_of_depths {h' : id < t'.size} (found : t.parent? id h = some parent) : t'.parent? id h' = some parent := by
  have inside := Nat.lt_trans (t.parent?_lt found) h
  have inside' : parent < t'.size := size ▸ inside
  obtain ⟨before, shallower, between⟩ := (formed.parent?_eq_some_iff inside).mp found
  rw [depths id h h', depths parent inside inside'] at shallower
  refine (formed'.parent?_eq_some_iff inside').mpr ⟨before, shallower, ?_⟩
  intro other h'' behind before
  rw [← depths id h h', ← depths other (size ▸ h'') h'']
  exact between other (size ▸ h'') behind before

theorem parent?_eq_of_depths (h' : id < t'.size) : t.parent? id h = t'.parent? id h' := by
  apply Option.ext
  intro parent
  constructor
  · exact parent?_of_depths formed formed' size depths
  · exact parent?_of_depths formed' formed size.symm fun id h h' => (depths id h' h).symm

theorem children_eq_of_depths (h' : id < t'.size) : t.children id h = t'.children id h' := by
  apply (formed.increasing id h).eq_of_mem_iff (formed'.increasing id h')
  intro child
  constructor
  · intro member
    have below := (t.lt_of_mem_children member).2
    have below' : child < t'.size := size ▸ below
    have found := (formed.linked id h child below).mp member
    rw [parent?_eq_of_depths formed formed' size depths below'] at found
    exact (formed'.linked id h' child below').mpr found
  · intro member
    have below' := (t'.lt_of_mem_children member).2
    have below : child < t.size := size ▸ below'
    have found := (formed'.linked id h' child below').mp member
    rw [← parent?_eq_of_depths formed formed' size depths (h := below)] at found
    exact (formed.linked id h child below).mpr found

end Depths

end WellFormed

end DefunReader.Tree

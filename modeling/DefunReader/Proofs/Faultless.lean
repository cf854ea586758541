import DefunReader.Proofs.Location
import DefunReader.Proofs.Lookups
import DefunReader.Proofs.Pulls
import DefunReader.Proofs.Slices

/-! Nothing that is checked while a text is scanned, read or asked about goes wrong: cuts are made between characters, numbers
are those of nodes, only what is open is closed, and ranges are in order. -/
namespace DefunReader

def Span.Ordered (span : Span) : Prop :=
  span.start.offset ≤ span.stop

/-- Queries of a tree that look their nodes up find them all. -/
structure Tree.Answers (t : Tree) (id : Nat) (h : id < t.size) : Prop where
  node : t.nodes[id]? = some (t.node id h)
  children : ∀ child ∈ t.children id h, child < t.size
  parent : ∀ parent, t.parent? id h = some parent → parent < t.size
  ancestors : Lookup.ancestors t.nodes t.size id = some (t.ancestors id h)
  trail : Lookup.trail t.nodes t.size id = some (t.trail id h)
  definition : Lookup.definition? t.nodes id = some (t.definition? id h)
  sexp : Lookup.sexp t.nodes t.size id = some (t.sexp id h)
  outline : ∀ depth, Lookup.outline t.nodes t.size depth id = some ((t.shape id h).outline depth)

/-- The checks that are made for a text and a limit, all of which are passed. -/
structure Faultless (text : String) (limit : Nat) : Prop where
  /-- A cut is at fault where it is not between two character boundaries, in order. -/
  cuts : ∀ start stop, (Text.cut text.toList start stop).isSome ↔ start ≤ stop ∧ stop ≤ text.utf8ByteSize ∧
    String.Pos.Raw.IsValid text ⟨start⟩ ∧ String.Pos.Raw.IsValid text ⟨stop⟩
  /-- However a scanner is asked, the cuts that it makes succeed. -/
  scanning : ∀ calls, (Slicer.of (.start text)).run text.toList calls =
    some (((Scanner.start text).run calls).1, .of ((Scanner.start text).run calls).2)
  /-- A reading does no more with the text than to pull a scanner of it. -/
  pulls : ∀ s fuel, Reading.start text = .ok s → ∃ count,
    (Reading.ending (Reading.program limit fuel) s).cursor = ((Scanner.start text).pulled count).cursor
  /-- Nodes are added, renamed and reported by numbers of nodes, and depths are taken back only from above zero. -/
  promises : ∀ s rest fuel defect, Reading.start text = .ok s → s.left < fuel →
    Reading.program limit fuel s ≠ .error (.defect defect) rest
  /-- Trees can be asked about all their nodes, those that are still being read included. -/
  queries : ∀ (t : Tree) (id : Nat) (h : id < t.size), t.Answers id h
  answers : ∀ calls, ∀ answer ∈ answered text calls, (Answer.span answer).Ordered
  problems : ∀ problem, parse text limit = .error problem → problem.span.Ordered
  nodes : ∀ tree, parse text limit = .ok tree → ∀ id h, (tree.node id h).span.Ordered

theorem Tree.answers (t : Tree) (id : Nat) (h : id < t.size) : t.Answers id h where
  node := t.getElem?_eq_node h
  children _ member := (t.lt_of_mem_children member).2
  parent _ found := Nat.lt_trans (t.parent?_lt found) h
  ancestors := t.lookup_ancestors id h h
  trail := t.lookup_trail id h h
  definition := t.lookup_definition? id h
  sexp := t.lookup_sexp id h (t.levels_le_size id h)
  outline _ := t.lookup_outline id h (t.levels_le_size id h)

section Ordered

variable {text : String}

theorem Answer.Located.ordered {answer : Answer} (located : Answer.Located text answer) : (Answer.span answer).Ordered := by
  obtain ⟨before, stretch, behind, shows, -⟩ := located
  exact shows.ordered

theorem ordered_of_standsFor {tree : Tree} {id : Nat} {node : Node} {placed : Token.Placed}
    (standsFor : tree.StandsFor id node placed) (ordered : placed.span.Ordered) : node.span.Ordered := by
  unfold Tree.StandsFor at standsFor
  split at standsFor
  · rw [standsFor.1]
    exact ordered
  · obtain ⟨next, comes⟩ := standsFor
    rw [comes.span]
    exact ordered

end Ordered

/-- No text and no limit lets a check fail, whatever is asked for. -/
theorem reading_never_fails (text : String) (limit : Nat) : Faultless text limit where
  cuts _ _ := Text.isSome_cut_iff
  scanning calls := Slicer.run_eq (.start text) calls
  pulls s fuel started := by
    obtain ⟨count, moved⟩ := Reading.cursor_of_start (Reading.program_pulls limit fuel) started
    exact ⟨count, moved.trans (pulled_cursor text count).symm⟩
  promises s rest fuel defect _ enough := Reading.program_no_defect limit enough
  queries t id h := t.answers id h
  answers calls answer member := (located_of_answered member).ordered
  problems problem failed := (located_of_parse_error failed).ordered
  nodes tree parsed id h := by
    obtain ⟨tokens, read, placed, member, standsFor⟩ := standsFor_of_parse parsed id h
    exact ordered_of_standsFor standsFor (located_of_tokenize_ok read member).ordered

end DefunReader

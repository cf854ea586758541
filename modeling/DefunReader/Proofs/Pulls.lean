import DefunReader.Proofs.Interleaving
import DefunReader.Proofs.Upkeep
import DefunReader.Reading

/-! A reading and its cursor. All that a reading does with its cursor is to ask for the next answer, so the cursor ends where as
many steps of a scanner lead. -/
namespace DefunReader

namespace Reading

variable {α β : Type}

def ending (m : Reading α) (s : State) : State :=
  match m s with
  | .ok _ rest | .error _ rest => rest

/-- The reading asks its cursor for answers and moves it in no other way. -/
def Pulls (m : Reading α) : Prop :=
  ∀ s, ∃ count, (ending m s).cursor = s.cursor.later count

section Pulls

variable {m : Reading α} {f : α → Reading β} {limit fuel : Nat}

theorem Pulls.bind (first : Pulls m) (further : ∀ a, Pulls (f a)) : Pulls (m >>= f) := by
  intro s
  obtain ⟨count, moved⟩ := first s
  simp only [ending, Bind.bind, EStateM.bind] at moved ⊢
  cases run : m s with
  | ok a rest =>
    rw [run] at moved
    obtain ⟨more, moved'⟩ := further a rest
    refine ⟨count + more, ?_⟩
    rw [Cursor.later_add, ← moved]
    exact moved'
  | error e rest =>
    rw [run] at moved
    exact ⟨count, moved⟩

/-- A step that is no step of the cursor. Where it stops it leaves all as it is. -/
theorem Pulls.of_still (still : ∀ s, (∃ a rest, m s = .ok a rest ∧ rest.cursor = s.cursor) ∨ ∃ e, m s = .error e s) :
    Pulls m := by
  intro s
  refine ⟨0, ?_⟩
  rcases still s with ⟨a, rest, run, same⟩ | ⟨e, run⟩
  · rw [ending, run]
    exact same
  · rw [ending, run]
    rfl

theorem peek_pulls : Pulls peek := .of_still fun s => .inl ⟨_, s, rfl, rfl⟩

theorem advance_pulls : Pulls advance := by
  intro s
  refine ⟨1, ?_⟩
  rcases found : s.cursor.next with ⟨answer, rest⟩
  cases answer <;> simp [ending, advance, found, Cursor.later]

theorem unexpected_pulls (expected : Expectation) (context : Nat) : Pulls (unexpected expected context : Reading α) := by
  apply Pulls.of_still
  intro s
  unfold unexpected
  split
  · exact .inr ⟨_, rfl⟩
  · exact .inr ⟨_, rfl⟩

theorem expect_pulls (kind : Token.Kind) (context : Nat) : Pulls (expect kind context) := by
  apply peek_pulls.bind
  intro token
  split
  · exact advance_pulls
  · exact unexpected_pulls _ _

/-- Where a reading stops makes no difference to where its cursor has come. -/
theorem pulls_upkeep (limit : Nat) (c : Cursor) :
    Upkeep limit (fun s => ∃ count, s.cursor = c.later count) (fun _ s => ∃ count, s.cursor = c.later count) where
  still _ _ here := here
  advance {s} here _ := by
    obtain ⟨count, here⟩ := here
    have moved : s.cursor.next.2 = c.later (count + 1) := by rw [Cursor.later_succ', here]
    unfold Ensures advance
    rcases found : s.cursor.next with ⟨answer, rest⟩
    rw [found] at moved
    cases answer with
    | error problem => exact ⟨count + 1, moved⟩
    | ok placed => exact ⟨⟨count + 1, moved⟩, rfl, fun _ => ⟨count + 1, moved⟩⟩
  unexpected _ _ here _ := here
  defect _ here := here

theorem definition_pulls (limit fuel parent : Nat) : Pulls (definition limit fuel parent) := by
  intro s
  have moved := @Upkeep.definition_ensures limit fuel parent _ _ s (pulls_upkeep limit s.cursor) ⟨0, rfl⟩
  unfold Ensures at moved
  unfold ending
  cases run : definition limit fuel parent s with
  | ok a rest =>
    rw [run] at moved
    obtain ⟨t, arity, moved, rfl⟩ := moved
    exact moved
  | error e rest =>
    rw [run] at moved
    exact moved

theorem program_pulls (limit fuel : Nat) : Pulls (program limit fuel) := by
  apply (definition_pulls limit fuel _).bind
  intro _
  apply (expect_pulls _ _).bind
  intro _ s
  exact ⟨0, rfl⟩

end Pulls

theorem cursor_of_start {text : String} {s : State} {m : Reading α} (pulls : Pulls m) (started : start text = .ok s) :
    ∃ count, (ending m s).cursor = (Cursor.start text).later count := by
  obtain ⟨count, moved⟩ := pulls s
  unfold start at started
  split at started
  · cases started
  · rename_i placed cursor found
    cases started
    refine ⟨count + 1, ?_⟩
    rw [moved, Cursor.later_succ, found]

end Reading

end DefunReader

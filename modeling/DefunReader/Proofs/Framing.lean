import DefunReader.Proofs.Contract
import DefunReader.Proofs.Fuel
import DefunReader.Proofs.Interleaving

/-! What one call of a production does to a reading. It adds a branch as the last child of one node and leaves the rest of the
tree alone, and it takes the tokens of that branch, so that nothing can be read for ever. -/
namespace DefunReader

namespace Shape

mutual

theorem parent_of_getElem?_listing {parent id i : Nat} {other : Node} (before : parent < id) : (shape : Shape) →
    (shape.listing (some parent) id)[i]? = some other →
    ∃ above, other.parent = some above ∧ (above = parent ∨ id ≤ above) ∧ above < id + i
  | node kind value span children => by
    intro found
    rw [listing] at found
    cases i with
    | zero =>
      cases found
      exact ⟨parent, rfl, .inl rfl, before⟩
    | succ i =>
      obtain ⟨above, up, place, earlier⟩ := parent_of_getElem?_listings (Nat.lt_succ_self id) children found
      exact ⟨above, up, .inr (by omega), by omega⟩

theorem parent_of_getElem?_listings {parent id i : Nat} {other : Node} (before : parent < id) : (shapes : List Shape) →
    (listings parent id shapes)[i]? = some other →
    ∃ above, other.parent = some above ∧ (above = parent ∨ id ≤ above) ∧ above < id + i
  | [] => nofun
  | shape :: shapes => by
    intro found
    rw [listings] at found
    by_cases first : i < shape.count
    · rw [List.getElem?_append_left (by simpa using first)] at found
      exact parent_of_getElem?_listing before shape found
    · rw [List.getElem?_append_right (by simpa using first), length_listing] at found
      obtain ⟨above, up, place, earlier⟩ := parent_of_getElem?_listings (Nat.lt_add_right shape.count before) shapes found
      exact ⟨above, up, by omega, by omega⟩

end

end Shape

namespace Tree

variable {t next : Tree} {parent : Nat} {shape : Shape}

/-- A new branch hangs below the node that it is added to, and all behind its first node hangs in the branch. -/
theorem Grows.parent? (grows : t.Grows parent [shape] next) {other : Nat} (h : other < next.size) (new : t.size ≤ other) :
    ∃ above, next.parent? other h = some above ∧ if other = t.size then above = parent else t.size ≤ above ∧ above < other := by
  obtain ⟨kind, value, span, children⟩ := shape
  obtain ⟨before, length, -, nodes⟩ := grows.last
  have there : next.nodes.toList[other]? = some (next.node other h) := by
    rw [Array.getElem?_toList, getElem?_eq_node]
  rw [nodes, List.getElem?_append_right (length ▸ new), ← length] at there
  obtain ⟨behind, rfl⟩ := Nat.exists_eq_add_of_le new
  rw [Nat.add_sub_cancel_left] at there
  cases behind with
  | zero =>
    refine ⟨parent, ?_, by simp⟩
    rw [Tree.parent?, ← Option.some.inj there]
  | succ behind =>
    obtain ⟨above, up, place, earlier⟩ := Shape.parent_of_getElem?_listings (Nat.lt_succ_self t.size) children there
    refine ⟨above, up, ?_⟩
    rw [if_neg (by omega)]
    omega

end Tree

namespace Reading

open Grammar (Item Derives)

inductive Production where
  | identifier
  | datum
  | form
  | expression
deriving DecidableEq

def Production.item : Production → Item
  | identifier => .name
  | datum => .datum
  | form | expression => .expression

def Production.read (limit fuel parent : Nat) : Production → Reading Nat
  | identifier => Reading.identifier parent
  | datum => Reading.datum limit fuel parent
  | form => Reading.form limit (Reading.expression limit fuel) fuel parent
  | expression => Reading.expression limit fuel parent

/-- A call adds the next node under `parent` with all that belongs to it, and takes its tokens. -/
structure Adopts (limit : Nat) (item : Item) (parent : Nat) (s : State) (id : Nat) (rest : State) : Prop where
  id_eq : id = s.tree.size
  kept : ∀ other (h : other < s.tree.size), ∃ h' : other < rest.tree.size, rest.tree.node other h' =
    { s.tree.node other h with children := (s.tree.node other h).children ++ if other = parent then [id] else [] }
  child : ∃ h : id < rest.tree.size, rest.tree.parent? id h = some parent
  inside : ∀ other (h : other < rest.tree.size), id < other →
    ∃ above, rest.tree.parent? other h = some above ∧ id ≤ above ∧ above < other
  depth : rest.depth = s.depth
  tokens : ∃ tokens shape, tokens ≠ [] ∧ s.stream = tokens.map .ok ++ rest.stream ∧
    Derives (.one item) (limit - s.depth) tokens [shape]
  fewer : rest.waiting < s.waiting

variable {limit fuel parent id context steps count : Nat} {item : Item} {s rest t : State} {read : Reading Nat}

theorem Reads.adopts {tokens : List Token.Placed} {shape : Shape} (reads : Reads limit (.one item) parent tokens [shape] s rest) :
    Adopts limit item parent s s.tree.size rest := by
  have size := reads.grows.size
  obtain ⟨first, more, rfl, -⟩ := reads.derived.starts
  have taken : s.waiting = rest.waiting + more.length + 1 := by
    simp only [State.waiting, reads.stream, List.length_append, List.length_map, List.length_cons]
    omega
  refine ⟨rfl, ?_, ?_, ?_, reads.depth, ⟨_, shape, List.cons_ne_nil first more, reads.stream, reads.derived⟩, by omega⟩
  · intro other h
    obtain ⟨h', same⟩ := reads.grows.node h
    exact ⟨h', same⟩
  · have h : s.tree.size < rest.tree.size := by
      obtain ⟨kind, value, span, children⟩ := shape
      simp only [Shape.counts, Shape.count] at size
      omega
    obtain ⟨above, up, place⟩ := reads.grows.parent? h (Nat.le_refl _)
    rw [if_pos rfl] at place
    exact ⟨h, place ▸ up⟩
  · intro other h behind
    obtain ⟨above, up, place⟩ := reads.grows.parent? h (Nat.le_of_lt behind)
    rw [if_neg (Nat.ne_of_gt behind)] at place
    exact ⟨above, up, place⟩

theorem exists_of_bind {α β : Type} {m : Reading α} {f : α → Reading β} {b : β} (run : (m >>= f) s = .ok b rest) :
    ∃ a t, m s = .ok a t ∧ f a t = .ok b rest := by
  simp only [Bind.bind, EStateM.bind] at run
  cases first : m s with
  | ok a t =>
    rw [first] at run
    exact ⟨a, t, rfl, run⟩
  | error e t =>
    rw [first] at run
    cases run

theorem unexpected_ne_ok {α : Type} {a : α} {expected : Expectation} : unexpected expected context s ≠ .ok a rest := by
  intro run
  unfold unexpected at run
  split at run <;> cases run

theorem kind_of_expect {kind : Token.Kind} {placed : Token.Placed} (run : expect kind context s = .ok placed rest) :
    s.lookahead.token.kind = kind := by
  obtain ⟨token, t, peeked, run⟩ := exists_of_bind run
  cases peeked
  by_contra other
  rw [if_neg other] at run
  exact unexpected_ne_ok run

theorem exists_behind (item : Item) (s : State) : ∃ goals, Behind item s goals := by
  refine ⟨List.replicate (s.depth + 1) (.close []), fun _ => ?_⟩
  induction s.depth with
  | zero => rfl
  | succ depth ih =>
    rw [List.replicate_succ, Grammar.Agenda.unclosed_cons, ih]
    exact Nat.add_comm 1 _

theorem Ends.of_ok {α : Type} {m : Reading α} {post : α → State → Prop} {trouble : Option Problem} {a : α}
    (ends : Ends m s post trouble) (run : m s = .ok a rest) : post a rest := by
  rwa [Ends, run] at ends

theorem Production.reads (production : Production) (below : parent < s.tree.size)
    (run : production.read limit fuel parent s = .ok id rest) :
    id = s.tree.size ∧ ∃ tokens shape, Reads limit (.one production.item) parent tokens [shape] s rest := by
  have trails : s.tree.Trails parent (s.tree.trail parent below) := ⟨below, rfl⟩
  obtain ⟨goals, behind⟩ := exists_behind production.item s
  cases production with
  | identifier => exact (identifier_implements trails behind).of_ok run
  | datum => exact (datum_implements trails behind).of_ok run
  | form =>
    obtain ⟨opening, t, opened, -⟩ := exists_of_bind run
    have found : s.lookahead.token = .leftParen := Token.eq_of_kind (by simp) (kind_of_expect opened)
    exact (form_ends (fun _ => expression_implements) trails behind found).of_ok run
  | expression => exact (expression_implements trails behind).of_ok run

theorem Production.adopts (production : Production) (below : parent < s.tree.size)
    (run : production.read limit fuel parent s = .ok id rest) : Adopts limit production.item parent s id rest := by
  obtain ⟨rfl, tokens, shape, reads⟩ := production.reads below run
  exact reads.adopts

/-- The rounds of a loop up to a parenthesis, each of which adopts one more node under `parent`. -/
inductive Rounds (limit : Nat) (item : Item) (parent : Nat) : State → Nat → State → Prop
  | done {s : State} (closed : s.lookahead.token = .rightParen) : Rounds limit item parent s 0 s
  | round {s t rest : State} {id count : Nat} (adopts : Adopts limit item parent s id t) (further : Rounds limit item parent t count rest) :
    Rounds limit item parent s (count + 1) rest

theorem Rounds.waiting_add_le (rounds : Rounds limit item parent s count rest) : rest.waiting + count ≤ s.waiting := by
  induction rounds with
  | done => exact Nat.le_refl _
  | round adopts _ ih =>
    have fewer := adopts.fewer
    omega

theorem lookahead_of_beforeClose {more : Bool} (run : beforeClose context s = .ok more t) :
    s = t ∧ (more = false → s.lookahead.token = .rightParen) := by
  obtain ⟨token, u, peeked, run⟩ := exists_of_bind run
  cases peeked
  cases found : s.lookahead.token with
  | rightParen =>
    rw [found] at run
    cases run
    exact ⟨rfl, fun _ => rfl⟩
  | finish =>
    rw [found] at run
    exact absurd run unexpected_ne_ok
  | _ =>
    rw [found] at run
    cases run
    exact ⟨rfl, nofun⟩

theorem Production.rounds (production : Production) (below : parent < s.tree.size)
    (run : untilClose parent (production.read limit fuel parent) steps s = .ok count rest) :
    Rounds limit production.item parent s count rest := by
  induction steps generalizing s count with
  | zero => cases run
  | succ steps ih =>
    obtain ⟨more, t, asked, run⟩ := exists_of_bind run
    obtain ⟨rfl, closed⟩ := lookahead_of_beforeClose asked
    cases more with
    | false =>
      cases run
      exact .done (closed rfl)
    | true =>
      obtain ⟨id, u, one, run⟩ := exists_of_bind run
      obtain ⟨more, v, further, run⟩ := exists_of_bind run
      cases run
      have adopts := production.adopts below one
      obtain ⟨still, -⟩ := adopts.kept parent below
      exact .round adopts (ih still further)

/-- With as much fuel as there are tokens ahead, a call goes as it does with any more, and does not want for fuel. -/
theorem Production.same {fuel' : Nat} (production : Production) (enough : s.waiting ≤ fuel) (enough' : s.waiting ≤ fuel') :
    Same (production.read limit fuel parent) (production.read limit fuel' parent) s (Fewer s) := by
  cases production with
  | identifier => exact identifier_same
  | datum => exact datum_same enough enough'
  | form =>
    have inner : SameBelow (min fuel fuel') (Reading.expression limit fuel) (Reading.expression limit fuel') :=
      fun {_ t} below => expression_same (s := t) (by omega) (by omega)
    exact form_same inner (by omega) (Nat.min_le_left ..) (Nat.min_le_right ..)
  | expression => exact expression_same enough enough'

/-- A form calls for nothing but where its parenthesis is taken. -/
theorem form_guarded {inner : Nat → Reading Nat} (enough : s.waiting ≤ fuel + 1)
    (agree : ∀ {parent : Nat} {t : State}, t.waiting < s.waiting → inner parent t = Reading.expression limit fuel parent t) :
    form limit inner fuel parent s = form limit (Reading.expression limit fuel) fuel parent s := by
  have positive := s.waiting_pos
  have below : SameBelow (s.waiting - 1) (Reading.expression limit fuel) inner := by
    intro parent t fewer
    exact ⟨agree (by omega), (expression_same (s := t) (by omega) (by omega)).2⟩
  exact (form_same (s := s) below (by omega) (by omega) (by omega)).1

theorem State.waiting_le (s : State) : s.waiting ≤ s.left + 1 := by
  have bound := s.cursor.length_drain_le
  by_cases final : s.lookahead.token = .finish
  · rw [State.waiting, State.stream, if_pos final]
    exact Nat.le_add_left ..
  · rw [State.waiting_eq final, State.left, if_neg final]
    omega

/-- Whatever the text is, its reading ends, and with any fuel that is enough for the tokens it ends the same. -/
def Settles (limit : Nat) (text : String) : Prop :=
  match start text with
  | .error problem => parse text limit = .error problem
  | .ok s => ∀ fuel, s.waiting ≤ fuel →
    match program limit fuel s with
    | .ok _ rest => parse text limit = .ok rest.tree
    | .error (.problem problem) _ => parse text limit = .error problem
    | .error (.defect _) _ => False

theorem settles (limit : Nat) (text : String) : Settles limit text := by
  rw [Settles]
  cases started : start text with
  | error problem => simp only [parse, transcript, started]
  | ok s =>
    intro fuel enough
    have parsed : parse text limit = (complete limit s).result := by
      rw [parse, transcript, started]
    rw [(program_same s.waiting_le enough).1, parsed]
    cases run : program limit (s.left + 1) s with
    | ok _ rest => exact complete_of_ok run
    | error stopped rest =>
      cases stopped with
      | problem problem => exact complete_of_problem run
      | defect defect => exact program_no_defect limit (Nat.lt_succ_self s.left) run

/-- What calls of the productions do, in whatever state they are made. No call takes more fuel than there are tokens ahead,
so the recursion ends with the text. -/
structure Productive (limit : Nat) : Prop where
  adopts : ∀ (production : Production) (fuel parent id : Nat) (s rest : State), parent < s.tree.size →
    production.read limit fuel parent s = .ok id rest → Adopts limit production.item parent s id rest
  rounds : ∀ (production : Production) (fuel steps parent count : Nat) (s rest : State), parent < s.tree.size →
    untilClose parent (production.read limit fuel parent) steps s = .ok count rest →
    Rounds limit production.item parent s count rest ∧ rest.waiting + count ≤ s.waiting
  guarded : ∀ (inner : Nat → Reading Nat) (fuel parent : Nat) (s : State), s.waiting ≤ fuel + 1 →
    (∀ node t, t.waiting < s.waiting → inner node t = Reading.expression limit fuel node t) →
    form limit inner fuel parent s = form limit (Reading.expression limit fuel) fuel parent s
  bounded : ∀ (production : Production) (fuel parent : Nat) (s : State), s.waiting ≤ fuel →
    production.read limit fuel parent s = production.read limit s.waiting parent s ∧
    ∀ rest, production.read limit fuel parent s ≠ .error (.defect .outOfFuel) rest
  settles : ∀ text, Settles limit text

theorem productions_progress (limit : Nat) : Productive limit where
  adopts production fuel parent id s rest below run := production.adopts below run
  rounds production fuel steps parent count s rest below run :=
    have rounds := production.rounds below run
    ⟨rounds, rounds.waiting_add_le⟩
  guarded inner fuel parent s enough agree := form_guarded enough fun {node t} => agree node t
  bounded production fuel parent s enough := by
    have held : Same (production.read limit s.waiting parent) (production.read limit fuel parent) s (Fewer s) :=
      production.same (Nat.le_refl _) enough
    obtain ⟨same, ends⟩ := held
    refine ⟨same, fun rest run => ?_⟩
    rw [same] at run
    rw [Ensures, run] at ends
    exact ends rfl
  settles := settles limit

end Reading

end DefunReader

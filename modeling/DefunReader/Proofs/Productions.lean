import DefunReader.Proofs.Steps

/-! What each production of the reading does: where it ends well, it has read a phrase and added its branches; where
it stops at a problem, the agenda of the reading runs into the same one. -/
namespace DefunReader.Reading

open Grammar (Item Phrase Derives Agenda)
open Grammar.Agenda (step require begin unlessClosed inDefinition unclosed Repeats Takes takes_of_derives)

variable {s middle rest : State} {limit parent fuel : Nat} {item : Item} {goals next : Agenda} {kind : Node.Kind}
  {span : Span} {within : List Node.Kind} {tokens more : List Token.Placed} {shapes others : List Shape}

/-- A phrase is read: its tokens are taken, and its branches are added under `parent`. -/
structure Reads (limit : Nat) (phrase : Phrase) (parent : Nat) (tokens : List Token.Placed) (shapes : List Shape)
    (s rest : State) : Prop where
  stream : s.stream = tokens.map .ok ++ rest.stream
  depth : rest.depth = s.depth
  grows : s.tree.Grows parent shapes rest.tree
  derived : Derives phrase (limit - s.depth) tokens shapes

/-- A branch is begun: these tokens are taken since, and it has these children. -/
structure Builds (parent : Nat) (kind : Node.Kind) (span : Span) (tokens : List Token.Placed) (shapes : List Shape)
    (s rest : State) : Prop where
  stream : s.stream = tokens.map .ok ++ rest.stream
  depth : rest.depth = s.depth
  grows : s.tree.Grows parent [.node kind none span shapes] rest.tree

theorem Builds.add {phrase : Phrase} (builds : Builds parent kind span tokens shapes s middle)
    (reads : Reads limit phrase s.tree.size more others middle rest) :
    Builds parent kind span (tokens ++ more) (shapes ++ others) s rest where
  stream := by rw [builds.stream, reads.stream, List.map_append, List.append_assoc]
  depth := reads.depth.trans builds.depth
  grows := builds.grows.extend reads.grows

theorem Builds.ahead (begun : Builds parent kind span [] [] s rest) : s.ahead limit goals = rest.ahead limit goals :=
  State.ahead_of_stream begun.stream.symm

theorem Builds.trails (builds : Builds parent kind span tokens shapes s rest) (trails : s.tree.Trails parent within) :
    rest.tree.Trails s.tree.size (kind :: within) :=
  builds.grows.trails_last trails

/-- The agenda behind an item fits where the forms that are open are counted; names nest nothing. -/
def Behind (item : Item) (s : State) (goals : Agenda) : Prop :=
  item ≠ .name → unclosed goals = s.depth + 1

theorem Behind.fits (behind : Behind item s goals) : Grammar.Agenda.Fits limit item (limit - s.depth) goals := by
  intro proper
  have := behind proper
  omega

theorem behind_of_unclosed {goal : Grammar.Goal} (one : goal.unclosed = 1) (count : unclosed goals = s.depth) :
    Behind item s (goal :: goals) := by
  intro _
  rw [Grammar.Agenda.unclosed_cons, one, count, Nat.add_comm]

theorem Behind.one {other : Item} (behind : Behind item s goals) : Behind item s (.one other within :: goals) :=
  fun proper => (Nat.zero_add _).trans (behind proper)

theorem Reads.ahead {shape : Shape} (reads : Reads limit (.one item) parent tokens [shape] s rest)
    (behind : Behind item s goals) :
    s.ahead limit (.one item within :: goals) = rest.ahead limit goals := by
  rw [State.ahead, reads.stream]
  exact Grammar.Agenda.problem?_append (takes_of_derives reads.derived within goals behind.fits)

/-- A reading that does what an item asks for, before any agenda. -/
def Implements (limit : Nat) (item : Item) (parent : Nat) (read : Reading Nat) : Prop :=
  ∀ {s : State} {within : List Node.Kind} {goals : Agenda}, s.tree.Trails parent within → Behind item s goals →
    Ends read s (fun id rest => id = s.tree.size ∧
      ∃ tokens shape, Reads limit (.one item) parent tokens [shape] s rest)
      (s.ahead limit (.one item within :: goals))

theorem leaf_ends {value : Node.Value} {token : Token} (found : s.lookahead.token = token) (proper : token ≠ .finish)
    (taken : ∀ span, step limit goals ⟨token, span⟩ = .ok next)
    (derived : ∀ span, Derives (.one item) (limit - s.depth) [⟨token, span⟩] [.node kind (some value) span []]) :
    Ends (leaf parent kind value) s (fun id rest => id = s.tree.size ∧
      ∃ tokens shape, Reads limit (.one item) parent tokens [shape] s rest) (s.ahead limit goals) := by
  have taken : step limit goals s.lookahead = .ok next := by rw [State.lookahead_eq found, taken]
  apply (advance_ends (found ▸ proper) taken).bind
  intro placed t done
  obtain ⟨rfl, done⟩ := done
  apply push_ends.weaken
  intro id rest added
  obtain ⟨rfl, depth, -, stream, grows⟩ := added
  rw [done.tree] at grows ⊢
  refine ⟨rfl, [⟨token, s.lookahead.span⟩], _, ?_, depth.trans done.depth, grows, derived _⟩
  rw [done.stream, stream, State.lookahead_eq found]
  rfl

theorem identifier_implements : Implements limit .name parent (identifier parent) := by
  intro s within goals trails _
  apply peek_ends.bind
  intro token rest found
  obtain ⟨rfl, rfl⟩ := found
  cases found : s.lookahead.token with
  | identifier name => exact leaf_ends found nofun (fun _ => rfl) fun _ => .identifier nofun
  | _ => exact unexpected_ends trails (by rw [State.lookahead_eq found]; rfl)

theorem untilClose_ends {read : Reading Nat} {again closed : Nat → Agenda}
    (implements : Implements limit item parent read) (repeats : Repeats limit item within again closed)
    (trails : s.tree.Trails parent within) (behind : ∀ count, Behind item s (again count)) (count : Nat) :
    Ends (untilClose parent read fuel) s (fun number rest => ∃ tokens shapes, shapes.length = number ∧
      Reads limit (.many item) parent tokens shapes s rest ∧ rest.lookahead.token = .rightParen ∧
      s.ahead limit (again count) = rest.ahead limit (again (count + number)))
      (s.ahead limit (again count)) := by
  -- Nothing is said where the fuel is spent; that it never is belongs to the measure of the reading.
  induction fuel generalizing s count with
  | zero => trivial
  | succ fuel ih =>
    apply (beforeClose_ends trails (repeats count _)).bind
    intro open' rest found
    obtain ⟨rfl, goesOn, closes⟩ := found
    cases open' with
    | false =>
      obtain ⟨below, -⟩ := trails
      exact Ends.pure ⟨[], [], rfl, ⟨rfl, rfl, .refl below, .nil⟩, (closes rfl).1, rfl⟩
    | true =>
      have same : s.ahead limit (again count) = s.ahead limit (.one item within :: again (count + 1)) :=
        State.ahead_congr (goesOn rfl)
      rw [same]
      apply (implements trails (behind _)).bind
      intro id t first
      obtain ⟨-, tokens, shape, first⟩ := first
      rw [first.ahead (behind _)]
      have behindRest (count) : Behind item t (again count) := by
        rw [Behind, first.depth]
        exact behind count
      apply (ih (first.grows.trails trails) behindRest (count + 1)).bind
      intro number u later
      obtain ⟨more, shapes, rfl, later, closing, ahead⟩ := later
      refine Ends.pure ⟨tokens ++ more, shape :: shapes, rfl, ⟨?_, ?_, ?_, ?_⟩, closing, ?_⟩
      · rw [first.stream, later.stream, List.map_append, List.append_assoc]
      · exact later.depth.trans first.depth
      · exact first.grows.trans later.grows
      · exact .cons first.derived (first.depth ▸ later.derived)
      · rw [ahead, Nat.add_right_comm, Nat.add_assoc]

structure Opens (s rest : State) : Prop where
  stream : s.stream = .ok s.lookahead :: rest.stream
  tree : rest.tree = s.tree
  depth : rest.depth = s.depth + 1

structure Closes (closing : Span) (s rest : State) : Prop where
  stream : s.stream = .ok ⟨.rightParen, closing⟩ :: rest.stream
  tree : rest.tree = s.tree
  depth : s.depth = rest.depth + 1

theorem Reads.enclosed {opened built : State} {closing : Span} (opens : Opens s opened)
    (builds : Builds parent kind span tokens shapes opened built) (closes : Closes closing built rest)
    (derived : Derives (.one item) (limit - s.depth) (s.lookahead :: (tokens ++ [⟨.rightParen, closing⟩]))
      [.node kind none span shapes]) :
    Reads limit (.one item) parent (s.lookahead :: (tokens ++ [⟨.rightParen, closing⟩])) [.node kind none span shapes]
      s rest where
  stream := by
    rw [opens.stream, builds.stream, closes.stream]
    simp only [List.map_cons, List.map_append, List.map_nil, List.cons_append, List.append_assoc, List.nil_append]
  depth := by
    have := opens.depth
    have := builds.depth
    have := closes.depth
    omega
  grows := by
    rw [closes.tree, ← opens.tree]
    exact builds.grows
  derived := derived

theorem opening_ends (passes : Passes s middle) (count : unclosed goals = s.depth + 1)
    (deep : ¬unclosed goals ≤ limit → step limit next middle.lookahead = .error (.nestedTooDeep span limit)) :
    Ends (enter limit span) middle
      (fun _ rest => unclosed goals ≤ limit ∧ Opens s rest ∧ rest.lookahead = middle.lookahead ∧
        middle.ahead limit next = rest.ahead limit next) (middle.ahead limit next) := by
  have same := passes.depth
  have refused : ¬middle.depth < limit → middle.ahead limit next = some (.nestedTooDeep span limit) := by
    intro full
    apply Grammar.Agenda.problem?_refused
    apply deep
    omega
  apply (enter_ends refused).weaken
  intro _ rest entered
  obtain ⟨room, tree, depth, lookahead, stream⟩ := entered
  refine ⟨?_, ⟨?_, tree.trans passes.tree, depth.trans (by rw [same])⟩, lookahead, ?_⟩
  · omega
  · rw [passes.stream, stream]
  · exact State.ahead_of_stream stream

theorem push_builds {trouble : Option Problem} : Ends (push parent kind none span) s (fun id rest => id = s.tree.size ∧
    rest.lookahead = s.lookahead ∧ Builds parent kind span [] [] s rest) trouble := by
  apply push_ends.weaken
  intro id rest added
  obtain ⟨rfl, depth, lookahead, stream, grows⟩ := added
  exact ⟨rfl, lookahead, stream.symm, depth, grows⟩

theorem closing_ends {node : Nat} {post : Nat → State → Prop} (trails : s.tree.Trails node within)
    (same : step limit goals s.lookahead = require .rightParen within next s.lookahead)
    (closed : ∀ closing rest, Closes closing s rest → post node rest) :
    Ends (do
      let _ ← expect .rightParen node
      leave
      return node) s post (s.ahead limit goals) := by
  apply (expect_ends .rightParen (by simp) nofun trails same).bind
  intro placed t done
  obtain ⟨rfl, closing, done, -⟩ := done
  apply leave_ends.bind
  intro _ u left
  apply Ends.pure
  obtain ⟨depth, tree, stream⟩ := left
  refine closed s.lookahead.span u ⟨?_, tree.trans done.tree, done.depth.symm.trans depth⟩
  rw [done.stream, stream, State.lookahead_eq closing]

theorem datum_implements : Implements limit .datum parent (datum limit fuel parent) := by
  induction fuel generalizing parent with
  | zero => exact fun _ _ => trivial
  | succ fuel ih =>
    intro s within goals trails behind
    apply peek_ends.bind
    intro token rest found
    obtain ⟨rfl, rfl⟩ := found
    cases found : s.lookahead.token with
    | number n => exact leaf_ends found nofun (fun _ => rfl) fun _ => .number nofun
    | boolean b => exact leaf_ends found nofun (fun _ => rfl) fun _ => .boolean nofun
    | leftParen =>
      have taken : step limit (.one .datum within :: goals) s.lookahead = .ok (.list within s.lookahead.span :: goals) := by
        rw [State.lookahead_eq found]
        rfl
      apply (advance_ends (by rw [found]; nofun) taken).bind
      intro opening t done
      obtain ⟨rfl, done⟩ := done
      rw [done.ahead taken]
      apply (opening_ends done (behind nofun) Grammar.Agenda.step_list_deep).bind
      intro _ u entered
      obtain ⟨fits, opens, -, ahead⟩ := entered
      rw [ahead]
      apply push_builds.bind
      intro list v added
      obtain ⟨rfl, -, builds⟩ := added
      have here := builds.trails (opens.tree ▸ trails)
      have count := behind nofun
      have depth := opens.depth
      have inside : u.ahead limit (.list within s.lookahead.span :: goals) =
          v.ahead limit (.items .datum (.list :: within) :: goals) :=
        builds.ahead.trans (State.ahead_congr (Grammar.Agenda.step_list fits))
      rw [inside]
      have behindItem : Behind .datum v (.items .datum (.list :: within) :: goals) :=
        behind_of_unclosed rfl (count.trans (depth.symm.trans builds.depth.symm))
      apply (untilClose_ends ih (Grammar.Agenda.repeats_items limit .datum (.list :: within) goals) here
        (fun _ => behindItem) 0).bind
      intro _ w read
      obtain ⟨tokens, shapes, -, read, closing, ahead'⟩ := read
      rw [ahead']
      have same : step limit (.items .datum (.list :: within) :: goals) w.lookahead =
          require .rightParen (.list :: within) goals w.lookahead := by
        rw [State.lookahead_eq closing]
        rfl
      apply closing_ends (read.grows.trails here) same
      intro closing x closes
      refine ⟨by rw [opens.tree], _, _, Reads.enclosed opens (builds.add read) closes ?_⟩
      have room : limit - s.depth = limit - v.depth + 1 := by
        rw [builds.depth]
        omega
      rw [room, State.lookahead_eq found]
      exact .list read.derived
    | _ => exact unexpected_ends trails (by rw [State.lookahead_eq found]; rfl)

theorem quotation_ends (trails : s.tree.Trails parent within) (count : unclosed goals = s.depth + 1) :
    Ends (quotation limit fuel parent span) s (fun id rest => id = s.tree.size ∧ ∃ tokens shape,
      Builds parent .quote span tokens [shape] s rest ∧ Derives (.one .datum) (limit - s.depth) tokens [shape] ∧
      s.ahead limit (.one .datum (.quote :: within) :: goals) = rest.ahead limit goals)
      (s.ahead limit (.one .datum (.quote :: within) :: goals)) := by
  apply push_builds.bind
  intro quote t added
  obtain ⟨rfl, -, builds⟩ := added
  have behind : Behind .datum t goals := fun _ => by rw [builds.depth, count]
  rw [builds.ahead]
  apply (datum_implements (builds.trails trails) behind).bind
  intro _ u read
  obtain ⟨-, tokens, shape, read⟩ := read
  exact Ends.pure ⟨rfl, tokens, shape, builds.add read, builds.depth ▸ read.derived, read.ahead behind⟩

/-- The inside of a form is read up to its parenthesis; `front` is what was taken of it before, and `begun` the agenda
then. -/
def Fills (limit parent : Nat) (within : List Node.Kind) (span : Span) (goals : Agenda) (front : List Token.Placed)
    (begun : Agenda) (s : State) (id : Nat) (rest : State) : Prop :=
  id = s.tree.size ∧ ∃ kind tokens shapes inside, Builds parent kind span tokens shapes s rest ∧
    (∀ closing, Derives (.one .expression) (limit - s.depth + 1)
      (⟨.leftParen, span⟩ :: (front ++ (tokens ++ [⟨.rightParen, closing⟩]))) [.node kind none span shapes]) ∧
    step limit inside rest.lookahead = require .rightParen (kind :: within) goals rest.lookahead ∧
    s.ahead limit begun = rest.ahead limit inside

theorem Fills.after {id : Nat} {begun : Agenda} (fills : Fills limit parent within span goals [s.lookahead] begun middle id rest)
    (passes : Passes s middle) (taken : step limit next s.lookahead = .ok begun) :
    Fills limit parent within span goals [] next s id rest := by
  obtain ⟨rfl, kind, tokens, shapes, inside, builds, derived, same, ahead⟩ := fills
  refine ⟨by rw [passes.tree], kind, s.lookahead :: tokens, shapes, inside, ⟨?_, ?_, ?_⟩, ?_, same, ?_⟩
  · rw [passes.stream, builds.stream]
    rfl
  · exact builds.depth.trans passes.depth
  · exact passes.tree ▸ builds.grows
  · exact passes.depth ▸ derived
  · exact (passes.ahead taken).trans ahead

def ifAgenda (within : List Node.Kind) (goals : Agenda) : Agenda :=
  .one .expression (.ifForm :: within) :: .one .expression (.ifForm :: within) :: .otherwise (.ifForm :: within) :: goals

theorem ifForm_ends {expression : Nat → Reading Nat}
    (implements : ∀ parent, Implements limit .expression parent (expression parent))
    (trails : s.tree.Trails parent within) (count : unclosed goals = s.depth) (word : Span) :
    Ends (ifForm expression parent span) s
      (Fills limit parent within span goals [⟨.ifWord, word⟩] (ifAgenda within goals) s)
      (s.ahead limit (ifAgenda within goals)) := by
  apply push_builds.bind
  intro node t added
  obtain ⟨rfl, -, begun⟩ := added
  rw [begun.ahead, ifAgenda]
  have behindFirst : Behind .expression t (.otherwise (.ifForm :: within) :: goals) :=
    behind_of_unclosed rfl (count.trans begun.depth.symm)
  apply (implements _ (begun.trails trails) behindFirst.one).bind
  intro _ u first
  obtain ⟨-, _, condition, first⟩ := first
  have tested := begun.add first
  rw [first.ahead behindFirst.one]
  have behindSecond : Behind .expression u (.otherwise (.ifForm :: within) :: goals) :=
    behind_of_unclosed rfl (count.trans tested.depth.symm)
  apply (implements _ (tested.trails trails) behindSecond).bind
  intro _ v second
  obtain ⟨-, _, branch, second⟩ := second
  have chosen := tested.add second
  have ahead : s.ahead limit (ifAgenda within goals) = v.ahead limit (.otherwise (.ifForm :: within) :: goals) :=
    begun.ahead.trans ((first.ahead behindFirst.one).trans (second.ahead behindSecond))
  rw [second.ahead behindSecond]
  have firstDerived := begun.depth ▸ first.derived
  have secondDerived := tested.depth ▸ second.derived
  apply (beforeClose_ends (chosen.trails trails) rfl).bind
  intro open' w found
  obtain ⟨rfl, goesOn, closes⟩ := found
  cases open' with
  | false =>
    obtain ⟨closing, taken⟩ := closes rfl
    refine Ends.pure ⟨rfl, _, _, _, _, chosen, fun closing => ?_, ?_, ahead⟩
    · simp only [List.nil_append, List.append_assoc, List.cons_append]
      exact .ifThen firstDerived secondDerived
    · rw [taken, State.lookahead_eq closing]
      rfl
  | true =>
    have behindThird : Behind .expression v (.close (.ifForm :: within) :: goals) :=
      behind_of_unclosed rfl (count.trans chosen.depth.symm)
    have more : v.ahead limit (.otherwise (.ifForm :: within) :: goals) =
        v.ahead limit (.one .expression (.ifForm :: within) :: .close (.ifForm :: within) :: goals) :=
      State.ahead_congr (goesOn rfl)
    rw [if_pos rfl, more]
    apply (implements _ (chosen.trails trails) behindThird).bind
    intro _ w third
    obtain ⟨-, _, other, third⟩ := third
    refine Ends.pure ⟨rfl, _, _, _, _, chosen.add third, fun closing => ?_, rfl,
      ahead.trans (more.trans (third.ahead behindThird))⟩
    simp only [List.nil_append, List.append_assoc, List.cons_append]
    exact .ifElse firstDerived secondDerived (chosen.depth ▸ third.derived)

theorem application_ends {expression : Nat → Reading Nat}
    (implements : ∀ parent, Implements limit .expression parent (expression parent))
    (trails : s.tree.Trails parent within) (count : unclosed goals = s.depth)
    (plain : step limit (.form within span :: goals) s.lookahead =
      begin .expression (.application :: within) (.items .expression (.application :: within) :: goals) s.lookahead) :
    Ends (application expression fuel parent span) s
      (Fills limit parent within span goals [] (.form within span :: goals) s)
      (s.ahead limit (.form within span :: goals)) := by
  apply push_builds.bind
  intro node t added
  obtain ⟨rfl, lookahead, begun⟩ := added
  have same : s.ahead limit (.form within span :: goals) =
      t.ahead limit (.one .expression (.application :: within) :: .items .expression (.application :: within) :: goals) :=
    begun.ahead.trans (State.ahead_congr (lookahead ▸ plain))
  rw [same]
  have behindHead : Behind .expression t (.items .expression (.application :: within) :: goals) :=
    behind_of_unclosed rfl (count.trans begun.depth.symm)
  apply (implements _ (begun.trails trails) behindHead).bind
  intro _ u head
  obtain ⟨-, _, operator, head⟩ := head
  have applied := begun.add head
  rw [head.ahead behindHead]
  have behindTail : Behind .expression u (.items .expression (.application :: within) :: goals) :=
    behind_of_unclosed rfl (count.trans applied.depth.symm)
  apply (untilClose_ends (implements _) (Grammar.Agenda.repeats_items limit .expression (.application :: within) goals)
    (applied.trails trails) (fun _ => behindTail) 0).bind
  intro _ v tail
  obtain ⟨_, operands, -, tail, closing, ahead⟩ := tail
  refine Ends.pure ⟨rfl, _, _, _, _, applied.add tail, fun closing => ?_, ?_,
    same.trans ((head.ahead behindHead).trans ahead)⟩
  · simp only [List.nil_append, List.append_assoc, List.cons_append]
    exact .application (begun.depth ▸ head.derived) (applied.depth ▸ tail.derived)
  · rw [State.lookahead_eq closing]
    rfl

theorem formBody_ends {expression : Nat → Reading Nat}
    (implements : ∀ parent, Implements limit .expression parent (expression parent))
    (trails : s.tree.Trails parent within) (count : unclosed goals = s.depth) (fits : unclosed goals ≤ limit) :
    Ends (formBody limit expression fuel parent span) s
      (Fills limit parent within span goals [] (.form within span :: goals) s)
      (s.ahead limit (.form within span :: goals)) := by
  apply peek_ends.bind
  intro token rest found
  obtain ⟨rfl, rfl⟩ := found
  have begins := @Grammar.Agenda.step_form limit s.lookahead within goals span fits
  cases found : s.lookahead.token with
  | ifWord =>
    have taken : step limit (.form within span :: goals) s.lookahead = .ok (ifAgenda within goals) := by
      rw [begins, State.lookahead_eq found]
      rfl
    apply (advance_ends (by rw [found]; nofun) taken).bind
    intro _ t done
    obtain ⟨rfl, done⟩ := done
    rw [done.ahead taken]
    apply (ifForm_ends implements (done.tree ▸ trails) (done.depth ▸ count) s.lookahead.span).weaken
    intro id u filled
    rw [← State.lookahead_eq found] at filled
    exact filled.after done taken
  | quote abbreviated =>
    cases abbreviated with
    | true => exact application_ends implements trails count (by rw [begins, State.lookahead_eq found]; rfl)
    | false =>
      have taken : step limit (.form within span :: goals) s.lookahead =
          .ok (.one .datum (.quote :: within) :: .close (.quote :: within) :: goals) := by
        rw [begins, State.lookahead_eq found]
        rfl
      apply (advance_ends (by rw [found]; nofun) taken).bind
      intro _ t done
      obtain ⟨rfl, done⟩ := done
      rw [done.ahead taken]
      have behind : unclosed (.close (.quote :: within) :: goals) = t.depth + 1 := by
        rw [done.depth, ← count]
        exact Nat.add_comm ..
      apply (quotation_ends (done.tree ▸ trails) behind).weaken
      intro id u read
      obtain ⟨rfl, tokens, shape, builds, derived, ahead⟩ := read
      refine Fills.after ⟨rfl, _, _, _, _, builds, fun closing => ?_, rfl, ahead⟩ done taken
      rw [State.lookahead_eq found]
      exact .quotation derived
  | _ => exact application_ends implements trails count (by rw [begins, State.lookahead_eq found]; rfl)

theorem form_ends {expression : Nat → Reading Nat}
    (implements : ∀ parent, Implements limit .expression parent (expression parent))
    (trails : s.tree.Trails parent within) (behind : Behind .expression s goals) (found : s.lookahead.token = .leftParen) :
    Ends (form limit expression fuel parent) s (fun id rest => id = s.tree.size ∧
      ∃ tokens shape, Reads limit (.one .expression) parent tokens [shape] s rest)
      (s.ahead limit (.one .expression within :: goals)) := by
  have taken : step limit (.one .expression within :: goals) s.lookahead = .ok (.form within s.lookahead.span :: goals) := by
    rw [State.lookahead_eq found]
    rfl
  have same : step limit (.one .expression within :: goals) s.lookahead =
      require .leftParen within (.form within s.lookahead.span :: goals) s.lookahead := by
    rw [taken, State.lookahead_eq found]
    rfl
  apply (expect_ends .leftParen (by simp) nofun trails same).bind
  intro opening t done
  obtain ⟨rfl, -, done, ahead⟩ := done
  rw [ahead]
  apply (opening_ends done (behind nofun) Grammar.Agenda.step_form_deep).bind
  intro _ u entered
  obtain ⟨fits, opens, -, ahead'⟩ := entered
  rw [ahead']
  have here : u.tree.Trails parent within := opens.tree ▸ trails
  have count : unclosed goals = u.depth := (behind nofun).trans opens.depth.symm
  apply (formBody_ends implements here count fits).bind
  intro node v filled
  obtain ⟨rfl, kind, tokens, shapes, inside, builds, derived, same, ahead''⟩ := filled
  rw [ahead'']
  apply closing_ends (builds.trails here) same
  intro closing rest closes
  refine ⟨by rw [opens.tree], _, _, Reads.enclosed opens builds closes ?_⟩
  have room : limit - s.depth = limit - u.depth + 1 := by
    have := behind nofun
    omega
  rw [room, State.lookahead_eq found]
  exact derived closing

theorem expression_implements : Implements limit .expression parent (expression limit fuel parent) := by
  induction fuel generalizing parent with
  | zero => exact fun _ _ => trivial
  | succ fuel ih =>
    intro s within goals trails behind
    apply peek_ends.bind
    intro token rest found
    obtain ⟨rfl, rfl⟩ := found
    cases found : s.lookahead.token with
    | number n => exact leaf_ends found nofun (fun _ => rfl) fun _ => .number nofun
    | boolean b => exact leaf_ends found nofun (fun _ => rfl) fun _ => .boolean nofun
    | identifier name => exact leaf_ends found nofun (fun _ => rfl) fun _ => .identifier nofun
    | quote abbreviated =>
      cases abbreviated with
      | false => exact unexpected_ends trails (by rw [State.lookahead_eq found]; rfl)
      | true =>
        have taken : step limit (.one .expression within :: goals) s.lookahead =
            .ok (.one .datum (.quote :: within) :: goals) := by
          rw [State.lookahead_eq found]
          rfl
        apply (advance_ends (by rw [found]; nofun) taken).bind
        intro tick t done
        obtain ⟨rfl, done⟩ := done
        rw [done.ahead taken]
        apply (quotation_ends (done.tree ▸ trails) ((behind nofun).trans (by rw [done.depth]))).weaken
        intro id u read
        obtain ⟨rfl, tokens, shape, builds, derived, -⟩ := read
        refine ⟨by rw [done.tree], s.lookahead :: tokens, _, ?_, builds.depth.trans done.depth, done.tree ▸ builds.grows, ?_⟩
        · rw [done.stream, builds.stream]
          rfl
        · rw [State.lookahead_eq found]
          exact .tick (done.depth ▸ derived)
    | leftParen => exact form_ends (fun _ => ih) trails behind found
    | _ => exact unexpected_ends trails (by rw [State.lookahead_eq found]; rfl)

end DefunReader.Reading

import DefunReader.Proofs.Productions

/-! What a whole reading gives: the tree of the program that its tokens are, or the problem of its agenda. -/
namespace DefunReader

namespace Reading

open Grammar (Item Phrase Derives Agenda Program)
open Grammar.Agenda (step require inDefinition Repeats)

variable {s middle rest : State} {limit parent fuel : Nat} {goals next : Agenda} {kind changed : Node.Kind}
  {span : Span} {within : List Node.Kind} {tokens : List Token.Placed} {shapes : List Shape}

theorem Builds.pass (builds : Builds parent kind span tokens shapes s middle) (passes : Passes middle rest) :
    Builds parent kind span (tokens ++ [middle.lookahead]) shapes s rest where
  stream := by
    rw [builds.stream, passes.stream, List.map_append, List.append_assoc]
    rfl
  depth := passes.depth.trans builds.depth
  grows := passes.tree ▸ builds.grows

theorem Builds.setKind (builds : Builds parent kind span tokens shapes s middle)
    (tree : rest.tree = middle.tree.setKind s.tree.size changed) (depth : rest.depth = middle.depth)
    (stream : rest.stream = middle.stream) : Builds parent changed span tokens shapes s rest where
  stream := stream ▸ builds.stream
  depth := depth.trans builds.depth
  grows := tree ▸ builds.grows.setKind

theorem expect_finish_ends {context : Nat} (trails : s.tree.Trails context [.program])
    (settled : s.Settled) :
    Ends (expect .finish context) s (fun _ rest => s.lookahead.token = .finish ∧ rest.tree = s.tree)
      (s.ahead limit [.finish]) := by
  apply peek_ends.bind
  intro token rest found
  obtain ⟨rfl, rfl⟩ := found
  cases found : s.lookahead.token with
  | finish =>
    simp only [Token.kind, ↓reduceIte, Ends, advance, Cursor.next_of_unread_nil (settled found), and_self]
  | _ => exact unexpected_ends trails (by rw [State.lookahead_eq found]; rfl)

theorem Builds.sequence_ends {α : Type} {item : Item} {read : Reading Nat} {later : Nat → Reading α}
    {post : α → State → Prop} {again closed : Nat → Agenda} (builds : Builds parent kind span tokens shapes s middle)
    (trails : s.tree.Trails parent within) (implements : Implements limit item s.tree.size read)
    (repeats : Repeats limit item (kind :: within) again closed) (behind : ∀ count, Behind item middle (again count))
    (then' : ∀ more others closing rest, Derives (.many item) (limit - middle.depth) more others →
      Builds parent kind span (tokens ++ more ++ [⟨.rightParen, closing⟩]) (shapes ++ others) s rest → rest.Settled →
      middle.ahead limit (again 0) = rest.ahead limit (closed others.length) →
      Ends (later others.length) rest post (rest.ahead limit (closed others.length))) :
    Ends (do
      let count ← untilClose s.tree.size read fuel
      let _ ← expect .rightParen s.tree.size
      later count) middle post (middle.ahead limit (again 0)) := by
  apply (untilClose_ends implements repeats (builds.trails trails) behind 0).bind
  intro _ t found
  obtain ⟨more, others, rfl, found, closing, ahead⟩ := found
  rw [Nat.zero_add] at ahead
  rw [ahead]
  have filled := builds.add found
  have closes : step limit (again others.length) t.lookahead =
      require .rightParen (kind :: within) (closed others.length) t.lookahead := by
    rw [repeats, State.lookahead_eq closing]
    rfl
  apply (expect_ends .rightParen (by simp) nofun (filled.trails trails) closes).bind
  intro _ u passed
  obtain ⟨-, -, passed, ahead'⟩ := passed
  have complete := filled.pass passed
  rw [State.lookahead_eq closing] at complete
  rw [ahead']
  exact then' more others _ u found.derived complete passed.settled (ahead.trans ahead')

/-- What is read when a definition is: all of a program but its end. -/
structure Defines (limit parent : Nat) (s rest : State) (tokens : List Token.Placed) (shape : Shape) : Prop where
  stream : s.stream = tokens.map .ok ++ rest.stream
  grows : s.tree.Grows parent [shape] rest.tree
  program : ∀ ending, Program limit (tokens ++ [⟨.finish, ending⟩]) (.node .program none s.lookahead.span [shape])
  settled : rest.Settled
  ahead : s.ahead limit Agenda.start = rest.ahead limit [.finish]
  noted : ∃ (earlier : Array Journal.Record) (arity : Nat) (opening : Span) (children : List Shape),
    shape = .node (.defun arity) none opening children ∧
    rest.journal = earlier.push (.definitionRead arity)

theorem definition_ends (trails : s.tree.Trails parent [.program]) (outside : s.depth = 0) :
    Ends (definition limit fuel parent) s (fun _ rest => ∃ tokens shape, Defines limit parent s rest tokens shape)
      (s.ahead limit Agenda.start) := by
  -- Both words of the head are taken before the branch is begun, so it stands at the first of them.
  apply (expect_ends .leftParen (by simp) nofun trails rfl).bind
  intro opening t opened
  obtain ⟨rfl, leftParen, opened, ahead⟩ := opened
  rw [ahead]
  have trails := opened.tree ▸ trails
  apply (expect_ends .defunWord (by simp) nofun trails rfl).bind
  intro _ u worded
  obtain ⟨-, defunWord, worded, ahead'⟩ := worded
  rw [ahead']
  have trails := worded.tree ▸ trails
  have shallow : u.depth = 0 := worded.depth.trans (opened.depth.trans outside)
  apply push_builds.bind
  intro defun v added
  obtain ⟨rfl, -, begun⟩ := added
  rw [begun.ahead]
  have ahead := ahead.trans (ahead'.trans begun.ahead)
  -- Names nest nothing, so they fit behind any agenda.
  have behind {w : State} {goals : Agenda} : Behind .name w goals := fun named => absurd rfl named
  apply (identifier_implements (begun.trails trails) behind).bind
  intro _ w name
  obtain ⟨-, name, title, named⟩ := name
  have titled := begun.add named
  have ahead := ahead.trans (named.ahead behind)
  rw [named.ahead behind]
  apply (expect_ends .leftParen (by simp) nofun (titled.trails trails) rfl).bind
  intro _ a listed
  obtain ⟨-, listOpening, listed, ahead'⟩ := listed
  have ahead := ahead.trans ahead'
  have listing := titled.pass listed
  rw [ahead']
  apply listing.sequence_ends trails identifier_implements (Grammar.Agenda.repeats_parameters limit [.finish]) fun _ => behind
  intro parameters formals listClosing c declared listed' _ ahead'
  have ahead := ahead.trans ahead'
  -- The definition was pushed without its arity, which is the count of the parameters.
  apply setKind_ends.bind
  intro _ d known
  obtain ⟨tree, depth, -, stream⟩ := known
  have defining := listed'.setKind tree depth stream
  rw [State.ahead_of_stream stream]
  have behindBody : Behind .expression d (.items .expression (inDefinition formals.length) :: [.finish]) :=
    behind_of_unclosed rfl (shallow.symm.trans defining.depth.symm)
  apply defining.sequence_ends trails expression_implements
    (Grammar.Agenda.repeats_items limit .expression (inDefinition formals.length) [.finish]) fun _ => behindBody
  intro body expressions closing e defined complete settled ahead'
  apply (note_ends _).bind
  intro _ f noted
  subst noted
  apply Ends.pure
  -- No form is open around the name, the parameters or the body, so each has the whole limit.
  have room {depth : Nat} (same : depth = u.depth) : limit - depth = limit := by rw [same, shallow, Nat.sub_zero]
  refine ⟨s.lookahead :: t.lookahead :: ([] ++ name ++ [w.lookahead] ++ parameters ++ [⟨.rightParen, listClosing⟩] ++ body ++
    [⟨.rightParen, closing⟩]), _, ⟨?_, opened.tree ▸ worded.tree ▸ complete.grows, fun ending => ?_, settled,
      ahead.trans ((State.ahead_of_stream stream).trans ahead'), ⟨_, _, _, _, rfl, rfl⟩⟩⟩
  · rw [opened.stream, worded.stream, complete.stream]
    rfl
  · rw [State.lookahead_eq leftParen, State.lookahead_eq defunWord, State.lookahead_eq listOpening]
    simp only [List.nil_append, List.append_assoc, List.cons_append]
    exact .intro (room begun.depth ▸ named.derived) (room listing.depth ▸ declared) (room defining.depth ▸ defined)

theorem program_ends (trails : s.tree.Trails Tree.root [.program]) (outside : s.depth = 0) :
    Ends (program limit fuel) s (fun _ rest => ∃ tokens shape, s.stream = tokens.map .ok ∧
      Program limit tokens (.node .program none s.lookahead.span [shape]) ∧ s.tree.Grows Tree.root [shape] rest.tree)
      (s.ahead limit Agenda.start) := by
  apply (definition_ends trails outside).bind
  intro _ t defined
  obtain ⟨tokens, shape, defined⟩ := defined
  rw [defined.ahead]
  apply (expect_finish_ends (defined.grows.trails trails) defined.settled).bind
  intro _ u ended
  obtain ⟨final, tree⟩ := ended
  apply get_ends.bind
  intro _ v found
  obtain ⟨rfl, rfl⟩ := found
  apply (note_ends _).weaken
  intro _ rest noted
  subst noted
  refine ⟨tokens ++ [t.lookahead], shape, ?_, ?_, tree ▸ defined.grows⟩
  · rw [defined.stream, State.stream, if_pos final, List.map_append]
    rfl
  · rw [State.lookahead_eq final]
    exact defined.program _

theorem seed_trails (span : Span) : (Tree.seed .program span).Trails Tree.root [.program] :=
  ⟨Nat.one_pos, Tree.trail_of_root rfl⟩

theorem lists_of_grows {tree : Tree} {shape : Shape} (grows : (Tree.seed .program span).Grows Tree.root [shape] tree) :
    tree.Lists (.node .program none span [shape]) := by
  rw [Tree.Lists, grows.nodes]
  simp [Tree.seed, Tree.adopt, Tree.size, Tree.root, Shape.numbers, Shape.listings, Shape.listing]

theorem complete_of_ok (run : program limit (s.left + 1) s = .ok () rest) : (complete limit s).result = .ok rest.tree := by
  unfold complete
  split <;> simp_all

theorem complete_of_problem {problem : Problem} (run : program limit (s.left + 1) s = .error (.problem problem) rest) :
    (complete limit s).result = .error problem := by
  unfold complete
  split <;> simp_all

/-- A transcript ends with the tree of the program that the text is, or with the problem of the agenda. -/
theorem transcript_result (text : String) (limit : Nat) :
    match (transcript text limit).result with
    | .ok tree => ∃ tokens shape, tokenize text = .ok tokens ∧ Program limit tokens shape ∧ tree.Lists shape
    | .error problem => Agenda.problem? limit Agenda.start (Cursor.start text).drain.1 = some problem := by
  rcases found : (Cursor.start text).next with ⟨answer, cursor⟩
  cases answer with
  | error problem =>
    simp only [transcript, start, found, Cursor.drain_of_error found, Agenda.problem?]
  | ok placed =>
    let s : State := { cursor, lookahead := placed, tree := .seed .program placed.span, depth := 0,
                       journal := noteLexed #[] placed }
    have stream : (Cursor.start text).drain.1 = s.stream := Cursor.drain_of_ok found
    have ended := @program_ends s limit (s.left + 1) (seed_trails placed.span) rfl
    have same : transcript text limit = complete limit s := by simp only [transcript, start, found, s]
    rw [same]
    cases run : program limit (s.left + 1) s with
    | ok _ rest =>
      rw [complete_of_ok run]
      rw [Ends, run] at ended
      obtain ⟨tokens, shape, all, program, grows⟩ := ended
      exact ⟨tokens, _, tokenize_eq_ok_iff.mpr (stream.trans all), program, lists_of_grows grows⟩
    | error stopped rest =>
      cases stopped with
      | problem problem =>
        rw [complete_of_problem run, stream]
        rw [Ends, run] at ended
        exact ended
      | defect defect => exact absurd run (program_no_defect limit (Nat.lt_succ_self s.left))

end Reading

end DefunReader

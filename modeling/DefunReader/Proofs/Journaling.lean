import DefunReader.Proofs.Branch
import DefunReader.Proofs.Contract
import DefunReader.Proofs.StreamOrder
import DefunReader.Proofs.Upkeep

/-! The journal of a reading, line by line. It tells of every token once, in order, up to the one that the reading has seen last,
and of what was read to its end. -/
namespace DefunReader

namespace Journal

def lexedLine (placed : Token.Placed) : String :=
  "TRACE lexed " ++ placed.token.text ++ " at " ++
    (toString placed.span.start.line ++ ":" ++ toString placed.span.start.column)

def definitionLine (parameters : Nat) : String :=
  "DEBUG parsed defun with " ++ toString parameters ++ " parameter(s)"

def programLine (nodes : Nat) : String :=
  "DEBUG parsed program into " ++ toString nodes ++ " nodes"

def announcement (bytes limit : Nat) : String :=
  "DEBUG parsing " ++ toString bytes ++ " bytes with max depth " ++ toString limit

/-- What is noted of tokens; the end of the text is none of them. -/
def scanned (tokens : List Token.Placed) : List String :=
  (tokens.filter fun placed => placed.token ≠ .finish).map lexedLine

/-- The lines of a journal, each with its level. -/
def log (journal : Array Record) : List String :=
  journal.toList.map Record.text

theorem scanned_append (tokens more : List Token.Placed) : scanned (tokens ++ more) = scanned tokens ++ scanned more := by
  simp [scanned]

theorem log_push (journal : Array Record) (record : Record) : log (journal.push record) = log journal ++ [record.text] := by
  simp [log]

theorem log_append (journal more : Array Record) : log (journal ++ more) = log journal ++ log more := by
  simp [log]

-- The texts of records are compared by evaluation: `simp` does not get through the overlapping cases of `Token.text`.
theorem text_lexed (placed : Token.Placed) : (Record.lexed placed).text = lexedLine placed := by rfl

theorem text_definitionRead (parameters : Nat) : (Record.definitionRead parameters).text = definitionLine parameters := by rfl

theorem text_programRead (nodes : Nat) : (Record.programRead nodes).text = programLine nodes := by rfl

theorem text_parsing (bytes limit : Nat) : (Record.parsing bytes limit).text = announcement bytes limit := by rfl

end Journal

open Journal (Record scanned log definitionLine programLine announcement)

/-- Tokens that begin a definition with so many names as its parameters. -/
inductive Declares : List Token.Placed → Nat → Prop
  | intro {opening word name title listOpening names closing rest}
      (named : ∀ placed ∈ names, ∃ name, placed.token = .identifier name) :
      Declares (⟨.leftParen, opening⟩ :: ⟨.defunWord, word⟩ :: ⟨.identifier name, title⟩ :: ⟨.leftParen, listOpening⟩ ::
        (names ++ ⟨.rightParen, closing⟩ :: rest)) names.length

theorem Declares.append {tokens : List Token.Placed} {arity : Nat} (declares : Declares tokens arity) (more : List Token.Placed) :
    Declares (tokens ++ more) arity := by
  cases declares with
  | intro named =>
    rw [List.cons_append, List.cons_append, List.cons_append, List.cons_append, List.append_assoc, List.cons_append]
    exact .intro named

/-- The log of a reading from its first token on, by its result. -/
def Tells (text : String) (limit : Nat) (lines : List String) : Except Problem Tree → Prop
  | .ok tree => ∃ tokens arity, tokenize text = .ok tokens ∧ Declares tokens arity ∧
      lines = scanned tokens ++ [definitionLine arity, programLine tree.size]
  | .error (.unexpectedToken span expected found _) => ∃ before placed more,
      (Cursor.start text).drain.1 = before.map .ok ++ .ok placed :: more ∧ placed.span = span ∧ placed.token.kind = found ∧
      if expected = .token .finish then
        ∃ arity, Declares before arity ∧ lines = scanned (before ++ [placed]) ++ [definitionLine arity]
      else lines = scanned (before ++ [placed])
  | .error (.nestedTooDeep span bound) => bound = limit ∧ ∃ before opening next more,
      (Cursor.start text).drain.1 = (before ++ [opening, next]).map .ok ++ more ∧ opening.token = .leftParen ∧
      opening.span = span ∧ lines = scanned (before ++ [opening, next])
  | .error problem => ∃ before, (Cursor.start text).drain.1 = before.map .ok ++ [.error problem] ∧ lines = scanned before

theorem tells_of_lexical {text : String} {limit : Nat} {problem : Problem} (before : List Token.Placed)
    (drained : (Cursor.start text).drain.1 = before.map .ok ++ [.error problem]) :
    Tells text limit (scanned before) (.error problem) := by
  have lexical := Cursor.lexical_of_drain drained
  cases problem with
  | strayCharacter | numberTooLarge => exact ⟨before, drained, rfl⟩
  | unexpectedToken | nestedTooDeep => simp [Problem.code] at lexical

namespace Grammar

theorem names_of_derives {phrase : Phrase} {room : Nat} {tokens : List Token.Placed} {shapes : List Shape}
    (derived : Derives phrase room tokens shapes) (named : phrase.item = .name) :
    tokens.length = shapes.length ∧ ∀ placed ∈ tokens, ∃ name, placed.token = .identifier name := by
  induction derived with
  | nil => exact ⟨rfl, List.forall_mem_nil _⟩
  | cons _ _ head tail =>
    obtain ⟨one, first⟩ := head named
    obtain ⟨length, others⟩ := tail named
    refine ⟨?_, List.forall_mem_append.mpr ⟨first, others⟩⟩
    rw [List.length_append, one, length, List.length_singleton, List.length_cons, Nat.add_comm]
  | identifier => exact ⟨rfl, List.forall_mem_singleton.mpr ⟨_, rfl⟩⟩
  | number valued | boolean valued => exact absurd named valued
  | tick | quotation | ifThen | ifElse | application | list => cases named

theorem declares_of_program {limit arity : Nat} {tokens : List Token.Placed} {ending span opening : Span} {children : List Shape}
    (program : Program limit (tokens ++ [⟨.finish, ending⟩])
      (.node .program none span [.node (.defun arity) none opening children])) : Declares tokens arity := by
  generalize whole : tokens ++ [⟨.finish, ending⟩] = all at program
  cases program with
  | @intro _ word listOpening listClosing closing final _ parameters body _ formals expressions named declared defined =>
    cases named with
    | @identifier _ _ name title =>
      obtain ⟨length, names⟩ := names_of_derives declared rfl
      have split : tokens ++ [⟨.finish, ending⟩] = ⟨.leftParen, span⟩ :: ⟨.defunWord, word⟩ :: ⟨.identifier name, title⟩ ::
          ⟨.leftParen, listOpening⟩ :: (parameters ++ ⟨.rightParen, listClosing⟩ :: (body ++ [⟨.rightParen, closing⟩])) ++
            [⟨.finish, final⟩] := by
        rw [whole]
        simp
      obtain ⟨rfl, -⟩ := List.append_inj' split rfl
      rw [← length]
      exact .intro names
    | number valued | boolean valued => contradiction

end Grammar

namespace Reading

variable {α : Type} {text : String} {limit fuel : Nat} {s t : State} {passed : List Token.Placed}

theorem log_noteLexed (journal : Array Record) (placed : Token.Placed) :
    log (noteLexed journal placed) = log journal ++ scanned [placed] := by
  unfold noteLexed
  by_cases final : placed.token = .finish
  · rw [if_pos final]
    simp [scanned, final]
  · rw [if_neg final, Journal.log_push, Journal.text_lexed]
    simp [scanned, final]

/-- The tokens that were taken and the lookahead are noted, and nothing else is. -/
structure Recorded (text : String) (passed : List Token.Placed) (s : State) : Prop where
  drained : (Cursor.start text).drain.1 = passed.map .ok ++ s.stream
  journal : log s.journal = scanned (passed ++ [s.lookahead])

def Stopped (text : String) (limit : Nat) : Stop → State → Prop
  | .problem problem, s => Tells text limit (log s.journal) (.error problem)
  | .defect _, _ => True

theorem Recorded.taken (recorded : Recorded text passed s) (proper : s.lookahead.token ≠ .finish) :
    (Cursor.start text).drain.1 = (passed ++ [s.lookahead]).map .ok ++ s.cursor.drain.1 := by
  rw [recorded.drained, State.stream, if_neg proper, List.map_append, List.append_assoc]
  rfl

theorem recorded_upkeep (text : String) (limit : Nat) :
    Upkeep limit (fun s => ∃ passed, Recorded text passed s) (Stopped text limit) where
  still _ _ holds := by
    obtain ⟨passed, drained, journal⟩ := holds
    exact ⟨passed, drained, journal⟩
  advance {s} holds proper := by
    obtain ⟨passed, recorded⟩ := holds
    have drained := recorded.taken proper
    unfold Ensures advance
    rcases found : s.cursor.next with ⟨answer, cursor⟩
    cases answer with
    | error problem =>
      rw [Cursor.drain_of_error found] at drained
      have tells := @tells_of_lexical _ limit _ _ drained
      rw [← recorded.journal] at tells
      exact tells
    | ok placed =>
      rw [Cursor.drain_of_ok found] at drained
      have noted : log (noteLexed s.journal placed) = scanned (passed ++ [s.lookahead] ++ [placed]) := by
        rw [log_noteLexed, recorded.journal, Journal.scanned_append (passed ++ _)]
      refine ⟨⟨_, drained, noted⟩, rfl, ?_⟩
      intro paren
      refine ⟨rfl, passed, s.lookahead, placed, if placed.token = .finish then [] else cursor.drain.1, ?_,
        Token.eq_of_kind (by simp) paren, rfl, ?_⟩
      · rw [drained]
        simp
      · rw [List.append_cons]
        exact noted
  unexpected {s} expected within holds proper := by
    obtain ⟨passed, drained, journal⟩ := holds
    refine ⟨passed, s.lookahead, _, drained, rfl, rfl, ?_⟩
    rw [if_neg proper]
    exact journal
  defect _ _ := trivial

theorem Ensures.and_ends {m : Reading α} {post also : α → State → Prop} {out : Stop → State → Prop} {trouble : Option Problem}
    (first : Ensures m s post out) (second : Ends m s also trouble) :
    Ensures m s (fun a rest => post a rest ∧ also a rest) out := by
  unfold Ensures Ends at *
  cases run : m s with
  | ok a rest =>
    rw [run] at first second
    exact ⟨first, second⟩
  | error e rest =>
    rw [run] at first
    exact first

/-- Behind the end of the text there is nothing more to note. -/
theorem expect_finish_ensures {context : Nat} {out : Stop → State → Prop} (settled : s.Settled)
    (defect : ∀ defect, out (.defect defect) s)
    (refused : ∀ within, out (.problem (.unexpectedToken s.lookahead.span (.token .finish) s.lookahead.token.kind within)) s) :
    Ensures (expect .finish context) s (fun _ rest => s.lookahead.token = .finish ∧ rest.journal = s.journal) out := by
  apply peek_ensures.bind
  intro token rest same
  obtain ⟨rfl, rfl⟩ := same
  by_cases fits : s.lookahead.token.kind = .finish
  · have last : s.lookahead.token = .finish := Token.eq_of_kind (by simp) fits
    rw [if_pos fits]
    simp [Ensures, advance, Cursor.next_of_unread_nil (settled last), last, noteLexed]
  · rw [if_neg fits]
    exact unexpected_ensures defect refused

theorem program_tells (trails : s.tree.Trails Tree.root [.program]) (outside : s.depth = 0) (recorded : Recorded text [] s) :
    Ensures (program limit fuel) s (fun _ rest => Tells text limit (log rest.journal) (.ok rest.tree)) (Stopped text limit) := by
  have upkept := @Upkeep.definition_ensures limit fuel Tree.root _ _ s (recorded_upkeep text limit) ⟨[], recorded⟩
  apply (upkept.and_ends (definition_ends trails outside)).bind
  intro _ u both
  obtain ⟨⟨t, arity, ⟨passed, drained, journal⟩, rfl⟩, tokens, shape, defined⟩ := both
  obtain ⟨earlier, count, opening, children, rfl, noted⟩ := defined.noted
  -- The parameters that are noted are those of the tokens, which are the ones that were taken.
  obtain ⟨same, -⟩ := Array.push_eq_push.mp noted
  cases same
  have taken : passed.map (.ok : Token.Placed → Answer) = tokens.map .ok :=
    List.append_cancel_right (drained.symm.trans (recorded.drained.trans defined.stream))
  have declares : Declares passed arity := by
    rw [(List.map_inj_right fun _ _ => Except.ok.inj).mp taken]
    exact Grammar.declares_of_program (defined.program t.lookahead.span)
  have lines : log (t.journal.push (.definitionRead arity)) = scanned (passed ++ [t.lookahead]) ++ [definitionLine arity] := by
    rw [Journal.log_push, journal, Journal.text_definitionRead]
  refine (expect_finish_ensures defined.settled (fun _ => trivial) ?_).bind ?_
  · intro within
    refine ⟨passed, t.lookahead, _, drained, rfl, rfl, ?_⟩
    rw [if_pos rfl]
    exact ⟨arity, declares, lines⟩
  · intro _ v ended
    obtain ⟨last, same⟩ := ended
    refine ⟨passed ++ [t.lookahead], arity, ?_, declares.append _, ?_⟩
    · rw [tokenize_eq_ok_iff, drained, State.stream, if_pos last, List.map_append]
      rfl
    · have all : log (v.journal.push (.programRead v.tree.size)) =
          scanned (passed ++ [t.lookahead]) ++ [definitionLine arity, programLine v.tree.size] := by
        rw [Journal.log_push, same, lines, Journal.text_programRead, List.append_assoc]
        rfl
      exact all

theorem complete_tells (told : Ensures (program limit (s.left + 1)) s
    (fun _ rest => Tells text limit (log rest.journal) (.ok rest.tree)) (Stopped text limit)) :
    Tells text limit (log (complete limit s).journal) (complete limit s).result := by
  unfold complete
  split
  · rename_i run
    rw [Ensures, run] at told
    exact told
  · rename_i run
    rw [Ensures, run] at told
    exact told
  · rename_i run
    exact absurd run (program_no_defect limit (Nat.lt_succ_self s.left))

/-- A reading notes every token once, in order: all of them where it succeeds, those up to the refused one, up to the one behind
a parenthesis that is nested too deep, or up to what is no token. A definition that was read and a program are noted last. What
is announced comes first and changes nothing else. -/
theorem transcript_tells (text : String) (limit : Nat) :
    Tells text limit (log (transcript text limit).journal) (parse text limit) ∧
    log (announced text limit).journal = announcement text.utf8ByteSize limit :: log (transcript text limit).journal ∧
    (announced text limit).result = parse text limit := by
  refine ⟨?_, ?_, rfl⟩
  · unfold parse
    rcases found : (Cursor.start text).next with ⟨answer, cursor⟩
    cases answer with
    | error problem =>
      simp only [transcript, start, found]
      exact tells_of_lexical [] (Cursor.drain_of_error found)
    | ok placed =>
      simp only [transcript, start, found]
      apply complete_tells
      apply program_tells (seed_trails placed.span) rfl
      refine ⟨Cursor.drain_of_ok found, ?_⟩
      exact log_noteLexed #[] placed
  · rw [announced, Journal.log_append, ← Journal.text_parsing]
    rfl

end Reading

end DefunReader

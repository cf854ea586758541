import DefunReader.Proofs.Interleaving

/-! Scanning by byte offsets. The scanner here keeps no text of its own: it cuts the text anew at every look, and a cut that is
not between characters of the text is a fault. There are no faults, and the answers are those of the scanner that keeps what it
has not read. -/
namespace DefunReader

namespace Text

theorem exists_of_dropBytes {n : Nat} {text rest : List Char} (dropped : dropBytes n text = some rest) :
    ∃ before, text = before ++ rest ∧ n = String.utf8Len before := by
  fun_induction dropBytes n text with
  | case1 text =>
    cases dropped
    exact ⟨[], rfl, rfl⟩
  | case2 n => cases dropped
  | case3 n c text fits ih =>
    obtain ⟨before, rfl, size⟩ := ih dropped
    refine ⟨c :: before, rfl, ?_⟩
    rw [String.utf8Len_cons]
    omega
  | case4 => cases dropped

theorem exists_of_takeBytes {n : Nat} {text stretch : List Char} (taken : takeBytes n text = some stretch) :
    ∃ behind, text = stretch ++ behind ∧ n = String.utf8Len stretch := by
  fun_induction takeBytes n text generalizing stretch with
  | case1 text =>
    cases taken
    exact ⟨text, rfl, rfl⟩
  | case2 n => cases taken
  | case3 n c text fits ih =>
    obtain ⟨rest, fewer, rfl⟩ := Option.map_eq_some_iff.mp taken
    obtain ⟨behind, rfl, size⟩ := ih fewer
    refine ⟨behind, rfl, ?_⟩
    rw [String.utf8Len_cons]
    omega
  | case4 => cases taken

/-- A cut is what lies between two stretches of the text, at the byte offsets where they meet. -/
theorem cut_eq_some_iff {text stretch : List Char} {start stop : Nat} : cut text start stop = some stretch ↔
    ∃ before behind, text = before ++ (stretch ++ behind) ∧ start = String.utf8Len before ∧
      stop = String.utf8Len (before ++ stretch) := by
  constructor
  · intro found
    unfold cut at found
    split at found
    · rename_i ordered
      obtain ⟨rest, dropped, taken⟩ := Option.bind_eq_some_iff.mp found
      obtain ⟨before, rfl, rfl⟩ := exists_of_dropBytes dropped
      obtain ⟨behind, rfl, size⟩ := exists_of_takeBytes taken
      refine ⟨before, behind, rfl, rfl, ?_⟩
      rw [String.utf8Len_append]
      omega
    · cases found
  · intro split
    obtain ⟨before, behind, rfl, rfl, rfl⟩ := split
    exact cut_append before stretch behind

theorem exists_of_isValid {text : String} {offset : Nat} (valid : String.Pos.Raw.IsValid text ⟨offset⟩) :
    ∃ before behind, text.toList = before ++ behind ∧ offset = String.utf8Len before := by
  obtain ⟨before, behind, rfl, same⟩ := String.Pos.Raw.isValid_iff_exists_append.mp valid
  refine ⟨before.toList, behind.toList, String.toList_append, ?_⟩
  rw [utf8Len_toList]
  exact congrArg String.Pos.Raw.byteIdx same

theorem prefix_of_utf8Len_le {text first second : List Char} (prefix₁ : first <+: text) (prefix₂ : second <+: text)
    (le : String.utf8Len first ≤ String.utf8Len second) : first <+: second := by
  rcases List.prefix_or_prefix_of_prefix prefix₁ prefix₂ with shorter | ⟨rest, rfl⟩
  · exact shorter
  · rw [String.utf8Len_append] at le
    have none : rest = [] := String.utf8Len_eq_zero.mp (by omega)
    simp [none]

/-- A text is cut between two of its character boundaries, in order, and nowhere else. -/
theorem isSome_cut_iff {text : String} {start stop : Nat} : (cut text.toList start stop).isSome ↔
    start ≤ stop ∧ stop ≤ text.utf8ByteSize ∧ String.Pos.Raw.IsValid text ⟨start⟩ ∧ String.Pos.Raw.IsValid text ⟨stop⟩ := by
  rw [Option.isSome_iff_exists]
  constructor
  · intro found
    obtain ⟨stretch, found⟩ := found
    obtain ⟨before, behind, split, rfl, rfl⟩ := cut_eq_some_iff.mp found
    have split' : text.toList = (before ++ stretch) ++ behind := by rw [split, List.append_assoc]
    refine ⟨?_, utf8Len_le_of_split split', isValid_of_split split, isValid_of_split split'⟩
    rw [String.utf8Len_append]
    exact Nat.le_add_right _ _
  · intro bounds
    obtain ⟨ordered, -, starts, stops⟩ := bounds
    obtain ⟨first, rest, split, rfl⟩ := exists_of_isValid starts
    obtain ⟨second, behind, split', rfl⟩ := exists_of_isValid stops
    obtain ⟨stretch, rfl⟩ := prefix_of_utf8Len_le ⟨rest, split.symm⟩ ⟨behind, split'.symm⟩ ordered
    refine ⟨stretch, cut_eq_some_iff.mpr ⟨first, behind, ?_, rfl, rfl⟩⟩
    rw [split', List.append_assoc]

end Text

/-- A scanner by byte offsets. What it answers is `none` where a cut is at fault, or a loop does not end. -/
structure Slicer where
  position : Position
  finished : Bool
deriving DecidableEq

namespace Slicer

variable (text : List Char)

def peek (p : Position) : Option (Option Char) :=
  (Text.cut text p.offset (String.utf8Len text)).map List.head?

def peekSecond (p : Position) : Option (Option Char) :=
  (Text.cut text p.offset (String.utf8Len text)).map fun rest => rest[1]?

def bump (p : Position) : Option Position := do
  match ← peek text p with
  | some c => return p.step c
  | none => return p

def bumpUpTo (class' : Char → Bool) : Nat → Position → Option Position
  | 0, _ => none
  | fuel + 1, p => do
    match ← peek text p with
    | some c => if class' c then bumpUpTo class' fuel (← bump text p) else return p
    | none => return p

/-- The position behind a run of characters. There are no more of them than in the text. -/
def bumpWhile (class' : Char → Bool) (p : Position) : Option Position :=
  bumpUpTo text class' (text.length + 1) p

def single (token : Token) (start : Position) : Option (Answer × Position) := do
  let stop ← bump text start
  return (.ok ⟨token, .between start stop⟩, stop)

def stray (found : Char) (start : Position) : Answer × Position :=
  (.error (.strayCharacter (.between start (start.step found)) found), start)

def boolean (start : Position) : Option (Answer × Position) := do
  match ← peekSecond text start with
  | some flag =>
    if flag = 't' ∨ flag = 'f' then
      let stop ← bump text (← bump text start)
      return (.ok ⟨.boolean (flag = 't'), .between start stop⟩, stop)
    else return stray '#' start
  | none => return stray '#' start

def digits (start : Position) : Option Position := do
  let unsigned ← if (← peek text start) = some '-' then bump text start else pure start
  bumpWhile text Char.isDigit unsigned

def number (start : Position) : Option (Answer × Position) := do
  let stop ← digits text start
  let lexeme ← Text.cut text start.offset stop.offset
  match Numeral.read? lexeme with
  | some n => return (.ok ⟨.number n, .between start stop⟩, stop)
  | none => return (.error (.numberTooLarge (.between start stop) (String.ofList lexeme)), stop)

def word (start : Position) : Option (Answer × Position) := do
  let stop ← bumpWhile text isSubsequent (← bump text start)
  let lexeme ← Text.cut text start.offset stop.offset
  return (.ok ⟨Front.wordToken (String.ofList lexeme), .between start stop⟩, stop)

def isNumber (first : Char) (start : Position) : Option Bool :=
  if first.isDigit then return true
  else if first = '-' then do
    match ← peekSecond text start with
    | some second => return second.isDigit
    | none => return false
  else return false

def token (first : Char) (start : Position) : Option (Answer × Position) := do
  if first = '(' then single text .leftParen start
  else if first = ')' then single text .rightParen start
  else if first = '\'' then single text (.quote true) start
  else if first = '#' then boolean text start
  else if ← isNumber text first start then number text start
  else if first = '+' || first = '-' then single text (.identifier (String.ofList [first])) start
  else if isInitial first then word text start
  else return stray first start

def next (p : Position) : Option (Answer × Position) := do
  let start ← bumpWhile text Text.isBlank p
  match ← peek text start with
  | some first => token text first start
  | none => return (.ok ⟨.finish, .between start start⟩, start)

def pull (s : Slicer) : Option (Answer × Slicer) := do
  let (answer, position) ← next text s.position
  return (answer, { s with position })

def next? (s : Slicer) : Option (Option Answer × Slicer) := do
  if s.finished then return (none, s)
  else
    let (answer, position) ← next text s.position
    return (some answer, ⟨position, Scanner.isFinal answer⟩)

def drainUpTo : Nat → Slicer → Option (List Answer × Slicer)
  | 0, _ => none
  | fuel + 1, s => do
    match ← next? text s with
    | (none, s) => return ([], s)
    | (some answer, s) =>
      let (answers, s) ← drainUpTo fuel s
      return (answer :: answers, s)

/-- Asks for the next element until there is none: once for each character, for the end, and once more. -/
def drain (s : Slicer) : Option (List Answer × Slicer) :=
  drainUpTo text (text.length + 2) s

def reply (s : Slicer) : Call → Option (List (Option Answer) × Slicer)
  | .pull => do
    let (answer, s) ← s.pull text
    return ([some answer], s)
  | .next => do
    let (answer, s) ← s.next? text
    return ([answer], s)
  | .drain => do
    let (answers, s) ← s.drain text
    return (answers.map some, s)

def run (s : Slicer) : List Call → Option (List (Option Answer) × Slicer)
  | [] => some ([], s)
  | call :: calls => do
    let (answers, s) ← s.reply text call
    let (others, s) ← s.run calls
    return (answers ++ others, s)

end Slicer

theorem Cursor.Follows.after {text read rest : List Char} {p : Position} (stretch : List Char)
    (follows : (Cursor.mk p (stretch ++ rest)).Follows text read) :
    (Cursor.mk (p.after stretch) rest).Follows text (read ++ stretch) where
  text_eq := by rw [follows.text_eq, List.append_assoc]
  position_eq := by
    rw [Position.after_append, ← follows.position_eq]

namespace Slicer

variable {text read rest : List Char} {c : Cursor} {d : Char} {p : Position}

theorem cut_of_follows {stretch : List Char} (follows : (Cursor.mk p (stretch ++ rest)).Follows text read) :
    Text.cut text p.offset (p.after stretch).offset = some stretch := by
  have position : p = Position.origin.after read := follows.position_eq
  rw [position, ← Position.after_append, Position.offset_after_origin, Position.offset_after_origin, Text.cut_eq_some_iff]
  exact ⟨read, rest, follows.text_eq, rfl, rfl⟩

theorem cut_unread (follows : (Cursor.mk p rest).Follows text read) :
    Text.cut text p.offset (String.utf8Len text) = some rest := by
  have position : p = Position.origin.after read := follows.position_eq
  have split : text = read ++ rest := follows.text_eq
  rw [position, Position.offset_after_origin, Text.cut_eq_some_iff]
  exact ⟨read, [], by rw [List.append_nil, split], rfl, by rw [split]⟩

theorem peek_eq (follows : (Cursor.mk p rest).Follows text read) : peek text p = some rest.head? := by
  rw [peek, cut_unread follows]
  rfl

theorem peekSecond_eq (follows : (Cursor.mk p rest).Follows text read) : peekSecond text p = some rest[1]? := by
  rw [peekSecond, cut_unread follows]
  rfl

theorem bump_eq (follows : (Cursor.mk p (d :: rest)).Follows text read) : bump text p = some (p.step d) := by
  rw [bump, peek_eq follows]
  rfl

theorem bumpUpTo_eq (class' : Char → Bool) {fuel : Nat} (follows : (Cursor.mk p rest).Follows text read)
    (enough : rest.length < fuel) : bumpUpTo text class' fuel p = some (p.after (rest.takeWhile class')) := by
  induction fuel generalizing p rest read with
  | zero => exact absurd enough (Nat.not_lt_zero _)
  | succ fuel ih =>
    rw [bumpUpTo, peek_eq follows]
    cases rest with
    | nil => rfl
    | cons d rest =>
      have next := ih (follows.after [d]) (Nat.lt_of_succ_lt_succ enough)
      rw [bump_eq follows]
      cases passes : class' d with
      | true => simpa [passes] using next
      | false => simp [passes]

theorem length_le_of_follows (follows : (Cursor.mk p rest).Follows text read) : rest.length ≤ text.length := by
  have split : text = read ++ rest := follows.text_eq
  rw [split, List.length_append]
  exact Nat.le_add_left _ _

theorem bumpWhile_eq (class' : Char → Bool) (follows : (Cursor.mk p rest).Follows text read) :
    bumpWhile text class' p = some (p.after (rest.takeWhile class')) :=
  bumpUpTo_eq class' follows (Nat.lt_succ_of_le (length_le_of_follows follows))

/-- What the scanner answers for what is at the front of its text, and where that leaves it. -/
def answer (start : Position) : Front → Answer × Position
  | .nothing => (.ok ⟨.finish, .between start start⟩, start)
  | .token lexeme token _ => (.ok ⟨token, .between start (start.after lexeme)⟩, start.after lexeme)
  | .tooLarge lexeme _ =>
    (.error (.numberTooLarge (.between start (start.after lexeme)) (String.ofList lexeme)), start.after lexeme)
  | .stray found => stray found start

theorem single_eq (token : Token) (follows : (Cursor.mk p (d :: rest)).Follows text read) :
    single text token p = some (answer p (.token [d] token rest)) := by
  rw [single, bump_eq follows]
  rfl

theorem boolean_eq (follows : (Cursor.mk p ('#' :: rest)).Follows text read) :
    boolean text p = some (answer p (Front.boolean rest)) := by
  rw [boolean, peekSecond_eq follows]
  cases rest with
  | nil => rfl
  | cons flag rest =>
    have first := bump_eq follows
    have second : bump text (p.step '#') = some ((p.step '#').step flag) := bump_eq (follows.after ['#'])
    by_cases yes : flag = 't'
    · simp [yes, first, second, Front.boolean, answer]
    · by_cases no : flag = 'f'
      · simp [no, first, second, Front.boolean, answer]
      · simp [yes, no, Front.boolean, answer]

theorem digits_eq (starts : d.isDigit ∨ d = '-') (follows : (Cursor.mk p (d :: rest)).Follows text read) :
    digits text p = some ((p.step d).after (rest.takeWhile Char.isDigit)) := by
  rw [digits, peek_eq follows, bump_eq follows]
  by_cases minus : d = '-'
  · subst minus
    exact bumpWhile_eq Char.isDigit (follows.after ['-'])
  · have digit := starts.resolve_right minus
    have stop := bumpWhile_eq Char.isDigit follows
    rw [List.takeWhile_cons_of_pos digit] at stop
    simpa [minus] using stop

theorem cut_run (class' : Char → Bool) (follows : (Cursor.mk p (d :: rest)).Follows text read) :
    Text.cut text p.offset ((p.step d).after (rest.takeWhile class')).offset = some (d :: rest.takeWhile class') := by
  rw [← List.takeWhile_append_dropWhile (p := class') (l := rest)] at follows
  exact @cut_of_follows _ _ _ _ (d :: rest.takeWhile class') follows

theorem number_eq (starts : d.isDigit ∨ d = '-') (follows : (Cursor.mk p (d :: rest)).Follows text read) :
    number text p = some (answer p (Front.numeral d rest)) := by
  simp only [number, digits_eq starts follows, cut_run Char.isDigit follows, Option.bind_eq_bind, Option.bind_some,
    Front.numeral]
  cases Numeral.read? (d :: rest.takeWhile Char.isDigit) <;> rfl

theorem word_eq (follows : (Cursor.mk p (d :: rest)).Follows text read) :
    word text p = some (answer p (Front.word d rest)) := by
  have stop : bumpWhile text isSubsequent (p.step d) = some ((p.step d).after (rest.takeWhile isSubsequent)) :=
    bumpWhile_eq isSubsequent (follows.after [d])
  rw [word, bump_eq follows, Option.bind_eq_bind, Option.bind_some, stop, Option.bind_eq_bind, Option.bind_some,
    cut_run isSubsequent follows]
  rfl

theorem isNumber_eq (follows : (Cursor.mk p (d :: rest)).Follows text read) :
    isNumber text d p = some (d.isDigit || (d == '-' && Front.startsWithDigit rest)) := by
  rw [isNumber, peekSecond_eq follows]
  by_cases digit : d.isDigit
  · simp [digit]
  · by_cases minus : d = '-'
    · cases rest <;> simp [minus, Front.startsWithDigit]
    · simp [digit, minus]

theorem token_eq (follows : (Cursor.mk p (d :: rest)).Follows text read) :
    token text d p = some (answer p (Front.of (d :: rest))) := by
  rw [token, isNumber_eq follows]
  unfold Front.of
  dsimp only
  split
  · exact single_eq _ follows
  split
  · exact single_eq _ follows
  split
  · exact single_eq _ follows
  split
  · rename_i hash
    subst hash
    exact boolean_eq follows
  simp only [Option.bind_eq_bind, Option.bind_some]
  split
  · rename_i starts
    exact number_eq (by simp at starts; tauto) follows
  split
  · exact single_eq _ follows
  split
  · exact word_eq follows
  · rfl

theorem answer_of_front (c : Cursor) :
    answer c.skipBlanks.position (Front.of c.skipBlanks.unread) = (c.next.1, c.next.2.position) := by
  unfold Cursor.next
  dsimp only
  cases Front.of c.skipBlanks.unread <;> rfl

theorem next_eq (follows : c.Follows text read) : next text c.position = some (c.next.1, c.next.2.position) := by
  have start : bumpWhile text Text.isBlank c.position = some c.skipBlanks.position := bumpWhile_eq _ follows
  rw [next, start, ← answer_of_front, Option.bind_eq_bind, Option.bind_some]
  have front := follows.skipBlanks
  rcases found : c.skipBlanks with ⟨start, left⟩
  rw [found] at front
  dsimp only
  rw [peek_eq front]
  cases left with
  | nil => rfl
  | cons first rest => exact token_eq front

def of (s : Scanner) : Slicer := ⟨s.cursor.position, s.finished⟩

variable {s : Scanner}

theorem pull_eq (follows : s.cursor.Follows text read) : (of s).pull text = some (s.pull.1, of s.pull.2) := by
  rw [pull, of, next_eq follows]
  rfl

theorem next?_eq (follows : s.cursor.Follows text read) : (of s).next? text = some (s.next?.1, of s.next?.2) := by
  cases finished : s.finished with
  | true => simp [next?, of, finished, Scanner.next?_of_finished]
  | false =>
    have taken : next text (of s).position = some (s.cursor.next.1, s.cursor.next.2.position) := next_eq follows
    have unfinished : (of s).finished = false := finished
    rw [Scanner.next?_of_unfinished finished, next?, unfinished, taken]
    rfl

theorem drain_of_finished {fuel : Nat} (finished : s.finished) : drainUpTo text (fuel + 1) (of s) = some ([], of s) := by
  have closed : (of s).finished := finished
  rw [drainUpTo, next?, if_pos closed]
  rfl

theorem drain_of_unfinished {fuel : Nat} (follows : c.Follows text read) (enough : c.drain.1.length < fuel) :
    drainUpTo text fuel (of ⟨c, false⟩) = some (c.drain.1, ⟨c.drain.2.position, true⟩) := by
  induction fuel generalizing c read with
  | zero => exact absurd enough (Nat.not_lt_zero _)
  | succ fuel ih =>
    have first : (of ⟨c, false⟩).next? text = some (some c.next.1, of ⟨c.next.2, Scanner.isFinal c.next.1⟩) := by
      rw [next?_eq follows, Scanner.next?_of_unfinished rfl]
    cases final : Scanner.isFinal c.next.1 with
    | true =>
      rw [Cursor.drain_of_ends final] at enough ⊢
      -- One more call finds the scanner finished, for which there is fuel left.
      obtain ⟨fuel, rfl⟩ := Nat.exists_eq_add_of_le' (Nat.le_of_lt_succ enough)
      have closed : drainUpTo text (fuel + 1) (of ⟨c.next.2, true⟩) = some ([], of ⟨c.next.2, true⟩) := drain_of_finished rfl
      rw [final] at first
      rw [drainUpTo, first]
      simp only [Option.bind_eq_bind, Option.bind_some, List.length_singleton, closed]
      rfl
    | false =>
      rw [Cursor.drain_of_goes final] at enough ⊢
      obtain ⟨stretch, behind, scans⟩ := exists_scans c
      have others := ih (follows.next scans) (Nat.lt_of_succ_lt_succ enough)
      rw [final] at first
      rw [drainUpTo, first]
      simp only [Option.bind_eq_bind, Option.bind_some, others]
      rfl

theorem drain_eq (follows : s.cursor.Follows text read) : (of s).drain text = some (s.drain.1, of s.drain.2) := by
  rcases s with ⟨c, finished⟩
  cases finished with
  | true =>
    rw [Scanner.drain_of_finished rfl]
    exact drain_of_finished rfl
  | false =>
    have shorter := length_le_of_follows follows
    have bound := c.length_drain_le
    rw [drain, drain_of_unfinished (c := c) follows (by omega), Scanner.drain_of_unfinished rfl]
    rfl

theorem reply_eq (follows : s.cursor.Follows text read) (call : Call) :
    (of s).reply text call = some ((s.reply call).1, of (s.reply call).2) := by
  cases call with
  | pull =>
    rw [reply, pull_eq follows]
    rfl
  | next =>
    rw [reply, next?_eq follows]
    rfl
  | drain =>
    rw [reply, drain_eq follows]
    rfl

/-- However the scanner is asked, no cut is at fault. -/
theorem run_eq (follows : s.cursor.Follows text read) (calls : List Call) :
    (of s).run text calls = some ((s.run calls).1, of (s.run calls).2) := by
  induction calls generalizing s read with
  | nil => rfl
  | cons call calls ih =>
    obtain ⟨count, -, moved⟩ := s.reply_answers call
    obtain ⟨read', later⟩ := follows.later count
    rw [← moved] at later
    simp only [run, reply_eq follows, ih later, Option.bind_eq_bind, Option.bind_some]
    rfl

end Slicer

end DefunReader

/-! Positions in a text and ranges of it. Only LF starts a new line; columns count characters and
offsets count UTF-8 bytes. -/
namespace DefunReader

structure Position where
  line : Nat
  column : Nat
  offset : Nat
deriving DecidableEq

namespace Position

def origin : Position := ⟨1, 1, 0⟩

instance : Inhabited Position := ⟨origin⟩

def step (p : Position) (c : Char) : Position :=
  if c = '\n' then ⟨p.line + 1, 1, p.offset + c.utf8Size⟩ else ⟨p.line, p.column + 1, p.offset + c.utf8Size⟩

def after (p : Position) (text : List Char) : Position :=
  text.foldl step p

@[simp] theorem after_nil (p : Position) : p.after [] = p := rfl

@[simp] theorem after_cons (p : Position) (c : Char) (text : List Char) :
    p.after (c :: text) = (p.step c).after text := rfl

@[simp] theorem after_append (p : Position) (s t : List Char) : p.after (s ++ t) = (p.after s).after t :=
  List.foldl_append

def text (p : Position) : String :=
  toString p.line ++ ":" ++ toString p.column

end Position

/-- A range of a text: where it starts, and the byte offset where it stops. -/
structure Span where
  start : Position
  stop : Nat
deriving DecidableEq

namespace Span

instance : Inhabited Span := ⟨⟨.origin, 0⟩⟩

def between (p q : Position) : Span := ⟨p, q.offset⟩

def size (s : Span) : Nat := s.stop - s.start.offset

def isEmpty (s : Span) : Bool := s.start.offset == s.stop

def text (s : Span) : String := s.start.text

end Span

end DefunReader

import DefunReader.Problem
import DefunReader.Text.Cut
import DefunReader.Text.Lines

/-! Reports of problems: a header, the place, the source line with carets below it, and a hint where
there is one. A report can be made of any problem and any text, also where the two do not fit. -/
namespace DefunReader

structure Report where
  file : String
  source : String
  problem : Problem
deriving DecidableEq

namespace Report

/-- The line of the text that a range starts in; empty where the text has no such line. -/
def sourceLine (r : Report) : List Char :=
  (Text.lines r.source.toList)[r.problem.span.start.line - 1]?.getD []

/-- The number of carets: as many as the range has characters on its first line, but at least one. -/
def width (r : Report) : Nat :=
  let span := r.problem.span
  let covered := ((Text.cut r.source.toList span.start.offset span.stop).bind fun text => (Text.lines text).head?).getD []
  max covered.length 1

/-- Moves the carets below the range. Tabs stay tabs, so that they are as wide as in the line above. -/
def padding (r : Report) : List Char :=
  (r.sourceLine.take (r.problem.span.start.column - 1)).map fun c => if c = '\t' then '\t' else ' '

def lineNumber (r : Report) : String :=
  toString r.problem.span.start.line

def gutter (r : Report) : String :=
  String.ofList (List.replicate r.lineNumber.length ' ')

def lines (r : Report) : List String :=
  [ "error[" ++ r.problem.code ++ "]: " ++ r.problem.message,
    r.gutter ++ " --> " ++ r.file ++ ":" ++ r.problem.span.text,
    r.gutter ++ " |",
    r.lineNumber ++ " | " ++ String.ofList r.sourceLine,
    r.gutter ++ " | " ++ String.ofList (r.padding ++ List.replicate r.width '^') ] ++
  match r.problem.help? with
  | some help => ["help: " ++ help]
  | none => []

def text (r : Report) : String :=
  Text.unlines r.lines

end Report

end DefunReader

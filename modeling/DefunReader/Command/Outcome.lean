import DefunReader.Command.Arguments
import DefunReader.Listing
import DefunReader.Report
import DefunReader.Tree.Dump
import DefunReader.Tree.Outline
import DefunReader.Tree.Sexp

/-! What a command comes to: two texts and an exit status. Only the name of the text and its content
matter, not where the content was found. -/
namespace DefunReader

structure Outcome where
  stdout : String
  stderr : String
  status : Nat
deriving DecidableEq

def Tree.print (t : Tree) : Format → String
  | .tree => t.outline
  | .sexp => t.sexp Tree.root t.root_lt_size ++ "\n"
  | .debug => t.dump ++ "\n"

def Task.answer (source : String) : Task → Except Problem String
  | .parse format limit => (DefunReader.parse source limit).map (·.print format)
  | .tokens => (tokenize source).map Listing.text
  | .check limit => (DefunReader.parse source limit).map fun _ => "ok\n"

/-- A problem leaves nothing but its report. What a run itself logs at debug level, the number of nodes that a check has passed
and the problem under the name of its text, is left out. -/
def Task.run (task : Task) (name source : String) : Outcome :=
  match task.answer source with
  | .ok stdout => ⟨stdout, "", 0⟩
  | .error problem => ⟨"", (Report.mk name source problem).text, 1⟩

structure SystemError where
  code : Nat
  kind : String
  message : String
deriving DecidableEq

namespace SystemError

def notFound : SystemError := ⟨2, "NotFound", "No such file or directory"⟩

def notADirectory : SystemError := ⟨20, "NotADirectory", "Not a directory"⟩

def isADirectory : SystemError := ⟨21, "IsADirectory", "Is a directory"⟩

def nameTooLong : SystemError := ⟨36, "InvalidFilename", "File name too long"⟩

def permissionDenied : SystemError := ⟨13, "PermissionDenied", "Permission denied"⟩

/-- The error of a code; `details` is its message where the code is not known here. -/
def ofCode (code : Nat) (details : String) : SystemError :=
  ([notFound, permissionDenied, notADirectory, isADirectory, nameTooLong].find? fun e => e.code == code).getD
    ⟨code, "Uncategorized", details⟩

end SystemError

inductive LoadFailure where
  | system (error : SystemError)
  /-- The bytes are not UTF-8. -/
  | notText
deriving DecidableEq

def LoadFailure.message : LoadFailure → String
  | system e =>
    "Error: Os \x7b code: " ++ toString e.code ++ ", kind: " ++ e.kind ++ ", message: \"" ++ e.message ++ "\" \x7d\n"
  | notText => "Error: Error \x7b kind: InvalidData, message: \"stream did not contain valid UTF-8\" \x7d\n"

structure Surroundings where
  file : String → Except SystemError ByteArray
  stdin : Except SystemError ByteArray

def decode (bytes : ByteArray) : Except LoadFailure String :=
  match String.fromUTF8? bytes with
  | some text => .ok text
  | none => .error .notText

def Origin.load (s : Surroundings) : Origin → Except LoadFailure String
  | .inline text => .ok text
  | .stdin => (s.stdin.mapError .system).bind decode
  | .file path => ((s.file path).mapError .system).bind decode

def Command.outcome (c : Command) (s : Surroundings) : Outcome :=
  match c.origin.load s with
  | .ok source => c.task.run c.origin.name source
  | .error failure => ⟨"", failure.message, 1⟩

end DefunReader

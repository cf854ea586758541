import DefunReader.Command.Outcome

/-! The program: finds the text that its arguments name and prints what the command comes to. -/
namespace DefunReader

def systemError : IO.Error → SystemError
  | .noFileOrDirectory _ code details | .inappropriateType _ code details | .permissionDenied _ code details |
    .invalidArgument _ code details | .resourceExhausted _ code details | .otherError code details =>
    .ofCode code.toNat details
  | error => ⟨5, "Uncategorized", toString error⟩

def attempt (action : IO ByteArray) : IO (Except SystemError ByteArray) := do
  try return .ok (← action) catch error => return .error (systemError error)

def surroundings : Origin → IO Surroundings
  | .inline _ => return ⟨fun _ => .error .notFound, .error .notFound⟩
  | .stdin => do
    let bytes ← attempt do (← IO.getStdin).readBinToEnd
    return ⟨fun _ => .error .notFound, bytes⟩
  | .file path => do
    let bytes ← attempt (IO.FS.readBinFile path)
    return ⟨fun _ => bytes, .error .notFound⟩

def perform (command : Command) : IO UInt32 := do
  let outcome := command.outcome (← surroundings command.origin)
  (← IO.getStdout).putStr outcome.stdout
  (← IO.getStderr).putStr outcome.stderr
  return outcome.status.toUInt32

end DefunReader

def main (arguments : List String) : IO UInt32 := do
  match DefunReader.Command.ofArguments arguments with
  | .ok command => DefunReader.perform command
  | .error refusal => return refusal.status.toUInt32

import EvmInspect.Command.Run

/-!
# The program

Runs its command line: files are read from disk, and what a command prints goes to
standard output. Questions to a node go out on standard error, one JSON-RPC request to a
line, and each is answered by one line of standard input, so that any carrier can stand
between the program and the node.
-/

namespace EvmInspect.Main

open Command

def fileError : IO.Error → FileError
  | .noFileOrDirectory .. => .notFound
  | .inappropriateType .. => .isDirectory
  | error => .other (toString error)

def fileText (path : String) : IO (Except FileError String) := do
  try
    return .ok (← IO.FS.readFile path)
  catch error =>
    return .error (fileError error)

/-- Sends a question over the standard streams. -/
def send (request : Node.Request) : IO Node.Reply := do
  IO.eprintln request.body.toText
  let answer ← (← IO.getStdin).getLine
  return if answer.isEmpty then .dropped "end of input" else .response 200 none answer

def surroundings : Surroundings IO where
  fileText := fileText
  connect _ := ⟨send, fun milliseconds => IO.sleep (UInt32.ofNat (min milliseconds (UInt32.size - 1)))⟩

/-- What stands on the last line of help. -/
def usage : String := "Usage: evm-inspect [OPTIONS] decode --result <RESULT_FILE> | account --address <ADDRESS>"

/-- Says why a command line is not run, and gives the exit code. -/
def refuse : UsageError → IO UInt32
  | .helpWanted => do IO.println usage; return 0
  | .versionWanted => do IO.println "evm-inspect 0.1.0"; return 0
  | _ => do IO.eprintln usage; return 2

end EvmInspect.Main

open EvmInspect in
def main (arguments : List String) : IO UInt32 := do
  match Command.Line.read arguments with
  | .error e => Main.refuse e
  | .ok line =>
    match ← (line.run Main.surroundings).run with
    | .ok printed => IO.print printed; return 0
    | .error e => IO.eprintln s!"Error: {e.message}"; return 1

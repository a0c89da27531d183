import MoveDesk.Program

/-!
# The command line

The outer layer of the program: it reads what the run needs, and writes what the run gives. A
session is led line by line, so that each question is seen before its answer is read.
-/

namespace MoveDesk.Main

/-- The error of the system as an error of a file. -/
def fileError : IO.Error → FileError
  | .noFileOrDirectory .. => .notFound
  | .inappropriateType _ 20 _ => .notFolder
  | .inappropriateType .. => .isFolder
  | .invalidArgument _ 36 _ => .tooLong
  | error => .refused (toString error)

/-- The content of a file. -/
def readFile (path : String) : IO (Except FileError Bytes) := do
  try return .ok (← IO.FS.readBinFile path).toList
  catch error => return .error (fileError error)

/-- The environment of the program. -/
def environment : IO Environment := do
  match ← readFile "/proc/self/environ" with
  | .error _ => return []
  | .ok content =>
    let texts := (Text.split 0 content).filterMap Text.decode?
    return texts.filterMap fun text =>
      (Text.cut? ['='] text.toList).map fun (name, value) =>
        (String.ofList name, String.ofList value)

/-- The files that the run may read. -/
def access (paths : List String) : IO FileAccess := do
  let contents ← paths.mapM fun path => return (path, ← readFile path)
  return fun path => (contents.lookup path).getD (.error .notFound)

/-- Writes a text at once. -/
def say (text : String) : IO Unit := do
  let output ← IO.getStdout
  output.putStr text
  output.flush

/-- The bytes up to the next line feed, or up to the end, behind the ones `read`. -/
partial def readLine (input : IO.FS.Stream) (read : ByteArray) : IO ByteArray := do
  let byte ← input.read 1
  if byte.isEmpty || byte.toList = [0x0a] then return read ++ byte
  readLine input (read ++ byte)

/-- The bytes up to the end, behind the ones `read`. -/
partial def readAll (input : IO.FS.Stream) (read : ByteArray) : IO ByteArray := do
  let bytes ← input.read 4096
  if bytes.isEmpty then return read
  readAll input (read ++ bytes)

/-- Leads the session to its end, from behind the text that it says first. -/
partial def talk (input : IO.FS.Stream) (session : Session) (text : String) :
    IO (Option CommandError) := do
  say text
  if session.stage = .over then return none
  let line ← readLine input .empty
  if line.isEmpty then
    say session.close.2
    return none
  match FileAccess.asText line.toList with
  | .error error => return some (.system error.message)
  | .ok line =>
    let (session, text) := session.read line
    talk input session text

/-- Writes what is written where errors are, and gives the code. -/
def finish (code : Nat) (errors : String) : IO UInt32 := do
  (← IO.getStderr).putStr errors
  return .ofNat code

end MoveDesk.Main

open MoveDesk in
/-- Runs the program. -/
def main (arguments : List String) : IO UInt32 := do
  let program : Program := { arguments, environment := ← Main.environment }
  let access ← Main.access program.paths
  let input ← IO.getStdin
  let serve (_ : SocketAddress) : Option ServeError := some (.stopped "no listener is at hand")
  let program := { program with sources := { access }, serve }
  match program.prepare with
  | .error outcome =>
    Main.say outcome.output
    Main.finish outcome.code outcome.errors
  | .ok (.interactive, bench) =>
    let session : Session := { desk := bench.desk, colors := bench.colors }
    let (session, text) := session.toMenu ""
    let failure ← Main.talk input session text
    let outcome := Program.finished bench.colors { beats := [], context := ∅, failure }
    Main.finish outcome.code outcome.errors
  | .ok (command, bench) =>
    let bytes ← if command.readsInput then Main.readAll input .empty else pure .empty
    let bench := { bench with sources := { bench.sources with input := bytes.toList } }
    let outcome := Program.finished bench.colors (command.run bench)
    Main.say outcome.output
    Main.finish outcome.code outcome.errors

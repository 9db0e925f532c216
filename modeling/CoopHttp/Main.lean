import CoopHttp.Server.CommandLine

/-!
# The program

Without sockets of its own, the program serves one client: what stands on standard input is what
the client sends, and what the client gets goes to standard output.
-/
namespace CoopHttp.CommandLine

/-- The machine that the program runs on. -/
def host : Host := { network := .connected }

/-- Reads all of an input. -/
partial def readAll (input : IO.FS.Stream) (read : ByteArray) : IO ByteArray := do
  let bytes ← input.read 65536
  if bytes.isEmpty then return read
  readAll input (read ++ bytes)

/-- Carries out a plan; the answer is the exit code. -/
def execute : Plan → IO UInt32
  | .finish code output errors => do
    IO.print output
    IO.eprint errors
    return code.toUInt32
  | .fail reason => do
    IO.eprintln reason
    return 1
  | .serve server => do
    let input ← readAll (← IO.getStdin) .empty
    match Server.serve host server [input.toList] with
    | .error _ => return 101
    | .ok replies =>
      let output ← IO.getStdout
      for reply in replies do
        output.write ⟨reply.received.toArray⟩
      output.flush
      return 0

end CoopHttp.CommandLine

def main (args : List String) : IO UInt32 :=
  match CoopHttp.CommandLine.plan CoopHttp.CommandLine.host args with
  | .error _ => return 101
  | .ok plan => CoopHttp.CommandLine.execute plan

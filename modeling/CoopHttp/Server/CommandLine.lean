import CoopHttp.Server

/-!
# The command line

What the program does with its arguments before it serves anybody: it prints the help text, refuses
a command line that cannot be understood, fails if it cannot listen, or has a server to run.
-/
namespace CoopHttp.CommandLine

inductive Plan
  /-- Ends the program with a code, after texts on its two outputs. -/
  | finish (code : UInt8) (output errors : String)
  /-- Ends the program because the server cannot be set up. -/
  | fail (reason : String)
  | serve (server : Server)

def plan (host : Host) (args : List String) : Except Crash Plan :=
  match ServerConfig.ofArgs args with
  | .error .help => .ok (.finish 0 (ServerConfig.usage ++ "\n") "")
  | .error error => .ok (.finish 2 "" (error.message ++ "\n\n" ++ ServerConfig.usage ++ "\n"))
  | .ok config => (Server.bind host config).map fun
    | .error error => .fail error.message
    | .ok server => .serve server

end CoopHttp.CommandLine

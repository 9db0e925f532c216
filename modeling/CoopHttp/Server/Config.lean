import CoopHttp.Decimal
import CoopHttp.Text.Quoted
import CoopHttp.Time

/-!
# Server configuration

The settings of a server and the command line that gives them. Options come in any order, the last
of several wins, and what is no option is an address. The first argument that cannot be understood
decides the error.
-/
namespace CoopHttp

inductive LogLevel
  | error
  | warn
  | info
  | debug
  | trace
  deriving DecidableEq, Repr

namespace LogLevel

/-- The levels by number, from one on. -/
def all : List LogLevel := [error, warn, info, debug, trace]

def name : LogLevel → String
  | error => "ERROR"
  | warn => "WARN"
  | info => "INFO"
  | debug => "DEBUG"
  | trace => "TRACE"

/-- Reads a number or a name in any case. -/
def ofText? (text : String) : Option LogLevel :=
  let bytes := Bytes.ofText text
  match Decimal.natural? UInt64.size bytes with
  | some 0 => none
  | some (n + 1) => all[n]?
  | none => all.find? fun level => Bytes.equalsIgnoringCase bytes (ascii level.name)

end LogLevel

/-- The settings of a server. Timeouts are durations. -/
structure ServerConfig where
  addresses : List String := ["127.0.0.1"]
  port : Nat := 2345
  backlog : Int := 50
  reusePort : Bool := false
  logLevel : LogLevel := .info
  headerTimeout : Nat := Duration.ofSeconds 10
  keepAliveTimeout : Nat := Duration.ofSeconds 60
  bodyTimeout : Nat := Duration.ofSeconds 30
  writeTimeout : Nat := Duration.ofSeconds 30
  /-- The granularity of the deadlines. -/
  timerGranularity : Nat := Duration.ofMilliseconds 100
  deriving DecidableEq, Repr

inductive ConfigError
  | missingValue (flag : String)
  | invalidValue (flag value : String)
  | unknownOption (flag : String)
  /-- The command line asks for help. -/
  | help
  deriving DecidableEq, Repr

namespace ConfigError

def message : ConfigError → String
  | missingValue flag => "option " ++ flag ++ " needs a value"
  | invalidValue flag value => "invalid value " ++ Quoted.quote value ++ " for option " ++ flag
  | unknownOption flag => "unknown option " ++ flag
  | help => "help requested"

end ConfigError

namespace ServerConfig

def usage : String :=
"usage: coro-server [OPTIONS] [ADDR...]

Listens on every ADDR (IPv4, or IPv6 with an optional %interface suffix),
127.0.0.1 when none is given.

options:
  --port N              port to listen on (default 2345)
  --backlog N           listen backlog (default 50)
  --reuse-port          set SO_REUSEPORT so several servers share the port
  --log-level L         trace, debug, info, warn or error (default info)
  --header-timeout S    seconds to receive the first request head (default 10)
  --keep-alive S        idle seconds between requests (default 60)
  --body-timeout S      seconds to receive a request body (default 30)
  --write-timeout S     seconds to write a response (default 30)
  -h, --help            print this text"

/-- The longest deadline that a connection may be under. -/
def maxTimeout (c : ServerConfig) : Nat :=
  max (max (max c.headerTimeout c.keepAliveTimeout) c.bodyTimeout) c.writeTimeout

def seconds? (text : String) : Option Nat :=
  (Decimal.natural? UInt64.size (Bytes.ofText text)).map Duration.ofSeconds

/-- An option with a value: how the value changes the settings, if it is valid. -/
def valued? (flag : String) : Option (ServerConfig → String → Option ServerConfig) :=
  match flag with
  | "--port" => some fun c text =>
    (Decimal.natural? UInt16.size (Bytes.ofText text)).map fun port => { c with port }
  | "--backlog" => some fun c text =>
    (Decimal.integer? (1 <<< 31) (Bytes.ofText text)).map fun backlog => { c with backlog }
  | "--log-level" => some fun c text =>
    (LogLevel.ofText? text).map fun logLevel => { c with logLevel }
  | "--header-timeout" => some fun c text =>
    (seconds? text).map fun headerTimeout => { c with headerTimeout }
  | "--keep-alive" => some fun c text =>
    (seconds? text).map fun keepAliveTimeout => { c with keepAliveTimeout }
  | "--body-timeout" => some fun c text =>
    (seconds? text).map fun bodyTimeout => { c with bodyTimeout }
  | "--write-timeout" => some fun c text =>
    (seconds? text).map fun writeTimeout => { c with writeTimeout }
  | _ => none

/-- The argument is written like an option: a dash and something behind it. -/
def isOption (arg : String) : Bool :=
  match arg.toList with
  | '-' :: _ :: _ => true
  | _ => false

/-- Reads arguments on top of settings; the addresses are collected apart. -/
def readArgs (c : ServerConfig) (addresses : List String) :
    List String → Except ConfigError (ServerConfig × List String)
  | [] => .ok (c, addresses)
  | arg :: rest =>
    if arg = "-h" ∨ arg = "--help" then .error .help
    else if arg = "--reuse-port" then readArgs { c with reusePort := true } addresses rest
    else match valued? arg with
      | some set =>
        match rest with
        | [] => .error (.missingValue arg)
        | value :: rest =>
          match set c value with
          | none => .error (.invalidValue arg value)
          | some c => readArgs c addresses rest
      | none =>
        if isOption arg then .error (.unknownOption arg)
        else readArgs c (addresses ++ [arg]) rest

/-- Reads a command line, the program's name excluded. -/
def ofArgs (args : List String) : Except ConfigError ServerConfig :=
  (readArgs {} [] args).map fun (c, addresses) =>
    if addresses = [] then c else { c with addresses }

end ServerConfig

end CoopHttp

import SealedPost.CommandLine.Execution
import SealedPost.Config.Sources
import SealedPost.Json.Printer
import SealedPost.Relay.Exchange

/-!
# The program

A run of the program: settings first, then the command. Results go to the output, everything else to
the error stream. A run ends with zero exactly when it has a result that is not a failed
registration, and with two when it gets no further than its arguments and settings.
-/

namespace SealedPost.CommandLine

/-- What a run leaves behind. -/
structure Report where
  exitCode : UInt8
  output : String
  error : String
deriving DecidableEq, Repr

namespace Report

def failure (exitCode : UInt8) (message : String) : Report :=
  ⟨exitCode, "", "Error: " ++ message ++ "\n"⟩

/-- Whether a result says that a registration failed. -/
def isFailed (result : Json) : Bool :=
  (result.member? "status").bind Json.text? = some Relay.Status.failed.word

def ofResult : Except CommandError Json → Report
  | .ok result => ⟨if isFailed result then 1 else 0, result.pretty ++ "\n", ""⟩
  | .error e => failure 1 e.message

/-- Settings that cannot be used; a fault of the file itself names its path. -/
def ofConfigError (path : Option String) (e : ConfigError) : Report :=
  match e, path with
  | .invalid _, _ | _, none => failure 2 e.message
  | .file, some path | .document, some path =>
      failure 2 ("loading config from " ++ path ++ ": " ++ e.message)

end Report

/-- The name and number of this version. -/
def versionText : String := "veil 0.1.0\n"

/-- What can be asked for. -/
def helpText : String := String.intercalate "\n" [
  "Veil CLI - identities, sealed messages and push registration",
  "",
  "Usage: veil [OPTIONS] <COMMAND>",
  "",
  "Commands:",
  "  keygen      Generate an identity, or derive one from a seed",
  "  encrypt     Sign and seal a message to a session id",
  "  decrypt     Open and verify a sealed message",
  "  register    Register a push token with the notification relay",
  "  unregister  Unregister a push token from the notification relay",
  "  help        Print this message or the help of the given subcommand(s)",
  "",
  "Options:",
  "      --config <CONFIG>        Config file path (TOML)",
  "      --log-level <LOG_LEVEL>  Log level or tracing filter directive",
  "  -h, --help                   Print help",
  "  -V, --version                Print version",
  ""]

/-- What is said of arguments that lead to no command. -/
def UsageError.message : UsageError → String
  | .help | .empty => helpText
  | .version => versionText
  | .missingCommand => "error: 'veil' requires a subcommand but one was not provided\n"
  | .unknownCommand => "error: unrecognized subcommand\n"
  | .unknownArgument => "error: unexpected argument found\n"
  | .noValue => "error: a value is required but none was supplied\n"
  | .unneededValue => "error: unexpected value found; no more were expected\n"
  | .repeated => "error: an argument cannot be used multiple times\n"
  | .missingArgument => "error: the required arguments were not provided\n"

/-- A run whose arguments lead to no command. Only what was asked for goes to the output. -/
def Report.ofUsageError (e : UsageError) : Report :=
  match e with
  | .help | .version => ⟨0, e.message, ""⟩
  | _ => ⟨2, "", e.message⟩

/-- How many random bytes a command may draw, draw by draw. -/
def Command.draws : Command → List Nat
  | .keygen none => List.replicate Identity.attemptLimit 16
  | .encrypt _ _ _ => [32]
  | _ => []

variable [Curve] {m : Type → Type} [Monad m]

/-- Runs a call. `file` is what the settings file holds, if the call names one. -/
def Invocation.run (carrier : Relay.Carrier m) (now : Int64) (source : Entropy)
    (file : Option (Option Bytes)) (vars : ClientConfig.Variables) (call : Invocation) : m Report :=
  match ClientConfig.load file vars call.logLevel with
  | .error e => return .ofConfigError call.config e
  | .ok config => do return .ofResult (← call.command.execute carrier now source config.push)

end SealedPost.CommandLine

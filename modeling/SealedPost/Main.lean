import SealedPost.Curve.Curve25519
import SealedPost.CommandLine.Program
import SealedPost.Relay.Http
import Std.Async.TCP
import Std.Async.DNS
import Std.Async.Timer

/-!
# The program's outer layer

Fetches what a call needs from outside (arguments, variables, the settings file, random bytes),
carries requests over plain connections, and puts out the report. What is done with all that is
`Invocation.run`.
-/

namespace SealedPost.Main
open Std.Async

/-! ## Connections -/

/-- How long a request may take, in milliseconds. -/
def patience : Std.Time.Millisecond.Offset := 20000

/-- What comes until the other side closes. -/
partial def receive (client : TCP.Socket.Client) (read : ByteArray) : Async ByteArray := do
  match ← client.recv? 65536 with
  | some more => receive client (read ++ more)
  | none => return read

def socketAddress (ip : Std.Net.IPAddr) (port : Nat) : Std.Net.SocketAddress :=
  match ip with
  | .v4 addr => .v4 ⟨addr, UInt16.ofNat port⟩
  | .v6 addr => .v6 ⟨addr, UInt16.ofNat port⟩

/-- Sends a request and waits for all of the response. -/
def converse (address : Relay.Address) (request : Bytes) : Async Relay.Exchange := do
  match (← DNS.getAddrInfo address.host (toString address.port)).toList with
  | [] => return .unreachable "the host has no address"
  | ip :: _ =>
    let client ← TCP.Socket.Client.mk
    client.connect (socketAddress ip address.port)
    client.send ⟨request.toArray⟩
    return Relay.Http.response (← receive client .empty).toList

/-- Waits as long as a request may take. -/
def expire : Async Relay.Exchange := do
  sleep patience
  return .timeout

/-- Carries a request over a plain connection. -/
def carry : Relay.Carrier IO := fun r => do
  match Relay.Address.ofUrl? r.url with
  | none => return (Relay.Exchange.unreachable "no plain web address").reply
  | some address =>
    let exchange := converse address (Relay.Http.request address r.body)
    match ← (Async.block (Async.race exchange expire)).toBaseIO with
    | .ok ended => return ended.reply
    | .error e => return (Relay.Exchange.unreachable (toString e)).reply

/-! ## What a call needs -/

def readVariables : IO ClientConfig.Variables := do
  let known ← (CommandLine.seedVariable :: ClientConfig.variableNames).filterMapM fun name => do
    return (← IO.getEnv name).map fun value => (name, value)
  return fun name => known.lookup name

/-- What a file holds; none if it cannot be read. -/
def readFile (path : String) : IO (Option Bytes) := do
  match ← (IO.FS.readBinFile path).toBaseIO with
  | .ok content => return some content.toList
  | .error _ => return none

/-- Random bytes for a command. -/
def readEntropy (command : CommandLine.Command) : IO Entropy :=
  command.draws.mapM fun n => do return some (← IO.getRandomBytes (USize.ofNat n)).toList

/-- The time, in milliseconds since the epoch. -/
def readClock : IO Int64 := do
  return Int64.ofInt (← Std.Time.Timestamp.now).toMillisecondsSinceUnixEpoch.toInt

/-! ## The run -/

def run (args : List String) : IO CommandLine.Report := do
  let vars ← readVariables
  match CommandLine.Invocation.ofArguments vars args with
  | .error e => return .ofUsageError e
  | .ok call =>
    let file ← call.config.mapM readFile
    call.run carry (← readClock) (← readEntropy call.command) file vars

end SealedPost.Main

/-- Runs the program and puts out its report. -/
def main (args : List String) : IO UInt32 := do
  let report ← SealedPost.Main.run args
  (← IO.getStdout).putStr report.output
  (← IO.getStderr).putStr report.error
  return report.exitCode.toUInt32

import SealedPost.Json.Reader
import SealedPost.Swarm.Snode
import SealedPost.Text.Utf8

/-!
# Exchanges with the relay

How an attempt to reach the relay over HTTP can end, and what it then counts as. Only a status of
200 carries a reply, and only a body that is one JSON text is one.
-/

namespace SealedPost.Relay

/-- The end of an attempt. -/
inductive Exchange
  /-- No response came. -/
  | unreachable (reason : String)
  | timeout
  /-- A response with a status and a body; the body is missing if it was cut off. -/
  | response (status : Nat) (body : Option Bytes)
deriving Repr, Inhabited

def Exchange.success : Nat := 200

/-- What an attempt gives. -/
def Exchange.reply : Exchange → Except NetworkError Json
  | .unreachable reason => .error (.transport reason)
  | .timeout => .error .timeout
  | .response status body =>
    if status = success then
      match (body.bind Text.readUtf8?).bind fun cs => Json.ofText? (String.ofList cs) with
      | some v => .ok v
      | none => .error (.badResponse "the body is no JSON text")
    else .error (.httpStatus status)

end SealedPost.Relay

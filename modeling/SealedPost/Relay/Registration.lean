import SealedPost.Config.Basic
import SealedPost.Store
import SealedPost.Swarm.Snode

/-!
# Push registration

Registers the device's token with the relay, keeps group subscriptions in step, and unregisters. A
request that gets no reply is sent again, without a pause, up to the allowed number of attempts. What
is remembered changes only when the relay confirms the token's own request; how the subscriptions
fare changes neither the outcome nor what is remembered.

`retry` is `retry_if_needed`, `setSubscription` is `set_group_subscription`; `Response.ofJson` is
`from_json`, and `Response.ofRecord?` the reading that is derived from the record.
-/

namespace SealedPost.Relay

/-! ## Bounded retry -/

/-- The attempts from number `attempt` on, of at most `limit`. -/
def retryFrom {m : Type → Type} [Monad m] {ε α : Type} (limit : UInt32) (operation : m (Except ε α))
    (attempt : UInt32) : m (Except ε α) := do
  match ← operation with
  | .ok value => return .ok value
  | .error e => if attempt < limit then retryFrom limit operation (attempt + 1) else return .error e
termination_by limit.toNat - attempt.toNat
decreasing_by
  rename_i h
  have h := UInt32.lt_iff_toNat_lt.1 h
  have hl := limit.toNat_lt
  have hs : (attempt + 1).toNat = attempt.toNat + 1 := by
    rw [UInt32.toNat_add]
    exact Nat.mod_eq_of_lt (by simp; omega)
  omega

/-- Tries an operation at most `maxAttempts` times; a failure is that of the last attempt. -/
def retry {m : Type → Type} [Monad m] {ε α : Type} (maxAttempts : UInt32)
    (operation : m (Except ε α)) : m (Except ε α) :=
  retryFrom (if maxAttempts = 0 then 1 else maxAttempts) operation 1

/-! ## Replies -/

/-- What the relay said. -/
structure Response where
  code : Option Int
  message : Option String
deriving DecidableEq, Repr

namespace Response

/-- Reads the code and the message of an object, each where it is of its type. -/
def ofJson (v : Json) : Response :=
  ⟨(v.member? "code").bind Json.int64?, (v.member? "message").bind Json.text?⟩

/-- Reads a record with a code and a message, both of which may be missing or null. -/
def ofRecord? (v : Json) : Option Response := do
  let f ← v.fields? true ["code", "message"]
  let code ← f.withDefault "code" none (Json.Fields.orNull Json.int64?)
  let message ← f.withDefault "message" none (Json.Fields.orNull Json.text?)
  return ⟨code, message⟩

/-- Whether the relay did what it was asked to. -/
def isSuccess (r : Response) : Bool := r.code = some 0

end Response

/-! ## What is asked of the relay -/

/-- A request to the relay: a JSON body for an address, and the host and key that it travels to. -/
structure Request where
  url : String
  body : Json
  host : String
  key : String

/-- How requests are carried. -/
abbrev Carrier (m : Type → Type) := Request → m (Except NetworkError Json)

/-- The outcome of a registration or subscription. -/
inductive Status
  /-- Nothing was sent. -/
  | skipped
  | succeeded
  | failed
deriving DecidableEq, Repr

def Status.word : Status → String
  | .skipped => "skipped"
  | .succeeded => "succeeded"
  | .failed => "failed"

/-- What is asked of the relay. -/
inductive Endpoint
  | register
  | unregister
  | subscribe
  | unsubscribe
deriving DecidableEq, Repr

/-- The last part of an endpoint's address. -/
def Endpoint.path : Endpoint → String
  | .register => "register"
  | .unregister => "unregister"
  | .subscribe => "subscribe_closed_group"
  | .unsubscribe => "unsubscribe_closed_group"

/-- An address without slashes at its end. -/
def withoutSlashes (url : String) : String :=
  String.ofList (url.toList.reverse.dropWhile (· = '/')).reverse

def request (config : PushConfig) (endpoint : Endpoint) (body : Json) : Request where
  url := withoutSlashes config.serverUrl ++ "/" ++ endpoint.path
  body := body
  host := config.serverUrl
  key := config.serverPublicKey

/-- The body that registers a token for a public key. -/
def registerBody (token publicKey : String) : Json :=
  .obj [("token", .str token), ("pubKey", .str publicKey)]

def unregisterBody (token : String) : Json := .obj [("token", .str token)]

/-- The body that subscribes a public key to a group, or ends that. -/
def subscriptionBody (group publicKey : String) : Json :=
  .obj [("closedGroupPublicKey", .str group), ("pubKey", .str publicKey)]

/-! ## When a registration is still fresh -/

/-- How long ago something was, in milliseconds, kept within 64 bits. -/
def age (now last : Int64) : Int :=
  min Int64.maxValue.toInt (max Int64.minValue.toInt (now.toInt - last.toInt))

/-- How long a token lasts, in milliseconds, as many of them as 64 bits hold. -/
def lifetime (config : PushConfig) : Int :=
  (Int64.ofInt (config.tokenExpirationSecs.toNat * 1000)).toInt

/-- Whether a token was registered so lately that it need not be registered again. -/
def isFresh (config : PushConfig) (now : Int64) (state : PushState) (token : String) : Bool :=
  state.token = some token && decide (age now state.lastUpload < lifetime config)

/-! ## Requests -/

variable {m : Type → Type} [Monad m]

/-- Sends a request, again where it gets no reply; the outcome is a success if the reply says so. -/
def send (carrier : Carrier m) (config : PushConfig) (endpoint : Endpoint) (body : Json) :
    m Status := do
  match ← retry config.maxRetryCount (carrier (request config endpoint body)) with
  | .ok reply => return if (Response.ofJson reply).isSuccess then .succeeded else .failed
  | .error _ => return .failed

/-- Subscribes a public key to a group, or ends that; nothing is sent while
notifications are off. -/
def setSubscription (carrier : Carrier m) (config : PushConfig) (state : PushState)
    (endpoint : Endpoint) (group publicKey : String) : m Status :=
  if state.enabled then send carrier config endpoint (subscriptionBody group publicKey)
  else return .skipped

/-- The same for group after group. -/
def setSubscriptions (carrier : Carrier m) (config : PushConfig) (state : PushState)
    (endpoint : Endpoint) (publicKey : String) : List String → m Unit
  | [] => return ()
  | group :: rest => do
    let _ ← setSubscription carrier config state endpoint group publicKey
    setSubscriptions carrier config state endpoint publicKey rest

/-- What is remembered after a registration with that outcome. -/
def afterRegister (status : Status) (now : Int64) (token : String) (state : PushState) :
    PushState :=
  match status with
  | .succeeded => { state with enabled := true, token := some token, lastUpload := now }
  | _ => state

/-- What is remembered after an unregistration with that outcome. -/
def afterUnregister (status : Status) (state : PushState) : PushState :=
  match status with
  | .succeeded => { state with enabled := false }
  | _ => state

/-- Registers a token for a public key, unless that is fresh and not forced, and then subscribes
to every group. -/
def register (carrier : Carrier m) (config : PushConfig) (groups : List String) (now : Int64)
    (token publicKey : String) (force : Bool) (state : PushState) : m (Status × PushState) :=
  if !force && isFresh config now state token then return (.skipped, state)
  else do
    let status ← send carrier config .register (registerBody token publicKey)
    let state := afterRegister status now token state
    setSubscriptions carrier config state .subscribe publicKey groups
    return (status, state)

/-- Ends the subscription to every group, if there is a local identity, and then
unregisters a token. -/
def unregister (carrier : Carrier m) (config : PushConfig) (groups : List String) (token : String)
    (state : PushState) : m (Status × PushState) := do
  match state.sessionId with
  | some publicKey => setSubscriptions carrier config state .unsubscribe publicKey groups
  | none => pure ()
  let status ← send carrier config .unregister (unregisterBody token)
  return (status, afterUnregister status state)

/-! ## A relay that answers from a script -/

/-- Replies in the order in which they are given, the reply to everything after them, and the
requests so far. -/
structure Script where
  replies : List (Except NetworkError Json)
  fallback : Except NetworkError Json
  requests : List Request

/-- Carries a request to a scripted relay. -/
def Script.carry : Carrier (StateM Script) := fun r => do
  let s ← get
  set { s with replies := s.replies.tail, requests := s.requests ++ [r] }
  return s.replies.headD s.fallback

end SealedPost.Relay

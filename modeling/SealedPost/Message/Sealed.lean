import SealedPost.SealedBox
import SealedPost.Identity.KeyPair
import SealedPost.Message.Payload

/-!
# Sealed messages

A payload in a sealed box. The box hides the sender from everybody but the recipient, the signature
inside it tells the recipient who it was.
-/

namespace SealedPost.SealedMessage
variable [Curve]

/-- How many bytes longer a sealed message is than its plaintext. -/
def overhead : Nat := Payload.overhead + SealedBox.overhead

/-- Signs and seals a plaintext. The secret key made for the box is `none` if none
could be drawn. -/
def encrypt (sender : SigningKey) (recipient : Octets 32) (ephemeral : Option (Octets 32))
    (plaintext : Bytes) : Except MessageError Bytes :=
  match ephemeral with
  | some secret =>
      .ok (SealedBox.close secret recipient (Payload.sign sender recipient plaintext).toBytes)
  | none => .error .encryptionFailed

/-- Opens the box of a sealed message. -/
def unbox (pair : KeyPair) (b : Bytes) : Except MessageError Bytes :=
  if b.isEmpty then .error .noData
  else
    match SealedBox.open? pair.secret b with
    | some payload => .ok payload
    | none => .error .decryptionFailed

/-- Opens a sealed message and checks its signature. -/
def decrypt (pair : KeyPair) (b : Bytes) : Except MessageError Message :=
  match unbox pair b with
  | .ok payload => Payload.verify pair.publicKey payload
  | .error e => .error e

end SealedPost.SealedMessage

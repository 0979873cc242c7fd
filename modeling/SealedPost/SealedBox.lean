import SealedPost.Curve.Basic
import SealedPost.Hash.Blake2b
import SealedPost.Cipher.SecretBox

/-!
# Sealed boxes

A box that anybody can close for a public key and only its owner can open. A pair of keys is made
for the one box; its public key stands in front, and the nonce is a hash of it and the recipient's.
The secret factor is taken modulo the order of the base point.
-/

namespace SealedPost.SealedBox
variable [Curve]

/-- How many bytes longer a sealed box is than the message in it. -/
def overhead : Nat := 32 + SecretBox.overhead

/-- The factor that a secret key stands for. -/
def factor (secret : Octets 32) : Nat := Curve.clampNat secret.toNat % Curve.order

/-- The public key of a secret key. -/
def publicOf (secret : Octets 32) : Octets 32 := Curve.ladder (factor secret) Curve.baseCoordinate

/-- The key shared between a secret key and somebody's public key. -/
def sharedKey (secret other : Octets 32) : Octets 32 :=
  Salsa20.subkey (Curve.ladder (factor secret) other) (Octets.zero 16)

def nonce (ephemeral recipient : Octets 32) : Octets 24 :=
  Blake2b.hash 24 (ephemeral.bytes ++ recipient.bytes)

/-- Closes a box for `recipient`, with the secret key that is made for it. -/
def close (ephemeral recipient : Octets 32) (message : Bytes) : Bytes :=
  let own := publicOf ephemeral
  own.bytes ++ SecretBox.close (sharedKey ephemeral recipient) (nonce own recipient) message

/-- Opens a box with the recipient's secret key. -/
def open? (secret : Octets 32) (box : Bytes) : Option Bytes := do
  let ephemeral ← Octets.ofBytes? 32 (box.take 32)
  SecretBox.open? (sharedKey secret ephemeral) (nonce ephemeral (publicOf secret)) (box.drop 32)

end SealedPost.SealedBox

import SealedPost.Cipher.Salsa20

/-!
# Secret boxes

Authenticated encryption under a shared key: the first 32 bytes of the key stream are the key of the
authenticator, the bytes after them hide the message. The tag stands in front of the hidden message,
and a box opens only if its tag is the one that its contents give.

The authenticator is Poly1305. The message is cut into blocks of sixteen bytes, each read as a number
with a one above its top byte; they are the coefficients of a polynomial, evaluated at a clamped
secret point modulo `2^130 - 5`. A second secret number added at the end hides the value.
-/

namespace SealedPost

namespace Poly1305

/-- The prime that the polynomial is evaluated modulo. -/
def prime : Nat := 0x3fffffffffffffffffffffffffffffffb

/-- The bits of the secret point that may be set. -/
def pointMask : Nat := 0x0ffffffc0ffffffc0ffffffc0fffffff

/-- The value of the polynomial after taking up `count` more blocks of `message`. -/
def evaluate (point : Nat) : (count : Nat) → (value : Nat) → (message : Bytes) → Nat
  | 0, value, _ => value
  | count + 1, value, message =>
    let coefficient := LittleEndian.toNat (message.take 16 ++ [1])
    evaluate point count ((value + coefficient) * point % prime) (message.drop 16)

/-- The tag of a message under a one-time key: the point, then the number added at the end. -/
def tag (key : Octets 32) (message : Bytes) : Octets 16 :=
  let point := LittleEndian.toNat (key.bytes.take 16) &&& pointMask
  let pad := LittleEndian.toNat (key.bytes.drop 16)
  Octets.ofNat 16 (evaluate point ((message.length + 15) / 16) 0 message + pad)

end Poly1305

namespace SecretBox

/-- How many bytes longer a box is than the message in it. -/
def overhead : Nat := 16

/-- Bytes hidden under, or recovered from, a stream at least as long. -/
def mask (stream message : Bytes) : Bytes := List.zipWith (· ^^^ ·) message stream

/-- The authenticator's key and the stream for a message of that size. -/
def keys (key : Octets 32) (nonce : Octets 24) (size : Nat) : Octets 32 × Bytes :=
  let stream := Salsa20.stream key nonce (32 + size)
  (Octets.ofNat 32 (LittleEndian.toNat (stream.take 32)), stream.drop 32)

/-- Puts a message into a box. -/
def close (key : Octets 32) (nonce : Octets 24) (message : Bytes) : Bytes :=
  let (tagKey, stream) := keys key nonce message.length
  let hidden := mask stream message
  (Poly1305.tag tagKey hidden).bytes ++ hidden

/-- The message in a box, if the box is intact. -/
def open? (key : Octets 32) (nonce : Octets 24) (box : Bytes) : Option Bytes := do
  let tag ← Octets.ofBytes? 16 (box.take 16)
  let hidden := box.drop 16
  let (tagKey, stream) := keys key nonce hidden.length
  if Poly1305.tag tagKey hidden = tag then some (mask stream hidden) else none

end SecretBox

end SealedPost

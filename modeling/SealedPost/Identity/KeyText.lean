import SealedPost.Text.Hex

/-!
# Public keys as text

A public key travels as 64 hexadecimal digits, or as a session id: the same digits in lower case
after the mark `05`. A text is taken for a session id by its size of 66 bytes and its first two
characters alone, so a bare key that happens to begin with `05` keeps all its digits. `strip`,
`sessionId` and `decode` are `remove_prefix_if_needed`, `encode_session_id` and
`decode_x25519_public_hex`.
-/

namespace SealedPost.KeyText

/-- The mark in front of a session id. -/
def mark : List Char := ['0', '5']

/-- How many bytes a session id has as text. -/
def sessionIdSize : Nat := 66

/-- Whether a text looks like a session id. -/
def isMarked (s : String) : Bool := s.utf8ByteSize = sessionIdSize && mark.isPrefixOf s.toList

/-- A text without the mark of a session id, if it has one. -/
def strip (s : String) : String := if isMarked s then String.ofList (s.toList.drop 2) else s

/-- The session id of a public key. -/
def sessionId (key : Octets 32) : String := String.ofList mark ++ Text.Hex.encode key.bytes

/-- Why a text is no public key. -/
inductive Error
  | hex (reason : Text.Hex.Error)
  /-- It is hexadecimal, but of `got` bytes. -/
  | length (got : Nat)
deriving DecidableEq, Repr

/-- The wording of a failed reading. -/
def Error.message : Error → String
  | .hex reason => "invalid hex: " ++ reason.message
  | .length got => "invalid key length: expected 32, got " ++ toString got

/-- Reads a public key, with or without the mark of a session id. -/
def decode (s : String) : Except Error (Octets 32) :=
  match Text.Hex.decode (strip s) with
  | .error reason => .error (.hex reason)
  | .ok b =>
    match Octets.ofBytes? 32 b with
    | some key => .ok key
    | none => .error (.length b.length)

end SealedPost.KeyText

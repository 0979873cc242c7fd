import SealedPost.Envelope
import SealedPost.Keyring
import SealedPost.Message.Sealed

/-!
# Sealing and opening with the local keys

A message goes out under the stored signing key. An envelope is opened with the one pair that it is
sealed to: the stored one, or that of the closed group it names (`closed_group_keypair`, here
`groupPair`). Which check fails first decides what is reported.
-/

namespace SealedPost.Messenger
variable [Curve]

/-- Signs a plaintext with the stored key and seals it to a session id or bare public key. -/
def encrypt (slots : IdentitySlots) (ephemeral : Option (Octets 32)) (plaintext : Bytes)
    (recipient : String) : Except MessageError Bytes :=
  match Keyring.loadSigningKey? slots with
  | none => .error .noIdentity
  | some key =>
    match KeyText.decode recipient with
    | .error _ => .error .invalidPublicKey
    | .ok recipient => SealedMessage.encrypt key recipient ephemeral plaintext

/-- The secret key that a text with white space around it gives. -/
def secretOfText? (text : String) : Option (Octets 32) :=
  match Text.Hex.decode (Text.trim text) with
  | .ok b => Octets.ofBytes? 32 b
  | .error _ => none

/-- The pair of the closed group that an envelope names. -/
def groupPair (groups : GroupTable) (source : Option String) : Except MessageError KeyPair :=
  match source.filter groups.isKnown with
  | none => .error .invalidGroupPublicKey
  | some key =>
    match groups.privateKey? key with
    | none => .error .noGroupPrivateKey
    | some privateKey =>
      match KeyText.decode key with
      | .error _ => .error .invalidGroupPublicKey
      | .ok publicKey =>
        match secretOfText? privateKey with
        | none => .error .noGroupPrivateKey
        | some secret =>
          match KeyPair.ofParts secret publicKey with
          | .ok pair => .ok pair
          | .error _ => .error .noGroupPrivateKey

/-- The pair that an envelope is sealed to. -/
def recipientPair (slots : IdentitySlots) (groups : GroupTable) (envelope : Envelope) :
    Except MessageError KeyPair :=
  match envelope.kind with
  | .direct =>
    match Keyring.loadPair? slots with
    | some pair => .ok pair
    | none => .error .noIdentity
  | .closedGroup => groupPair groups envelope.source

/-- Opens an envelope and checks the signature in it. -/
def decrypt (slots : IdentitySlots) (groups : GroupTable) (envelope : Envelope) :
    Except MessageError Message :=
  match envelope.content.filter fun content => !content.isEmpty with
  | none => .error .noData
  | some content =>
    match recipientPair slots groups envelope with
    | .ok pair => SealedMessage.decrypt pair content
    | .error e => .error e

end SealedPost.Messenger

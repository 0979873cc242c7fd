import SealedPost.Octets

/-!
# Envelopes

A sealed message as it comes from a swarm: to the local identity, or to a closed group that is
named in it.
-/

namespace SealedPost

/-- Whom an envelope is sealed to. -/
inductive EnvelopeKind
  | direct
  | closedGroup
deriving DecidableEq, Repr

/-- The number that stands for a kind of envelope. -/
def EnvelopeKind.wire : EnvelopeKind → Int
  | .direct => 6
  | .closedGroup => 7

/-- The kind that a number stands for. -/
def EnvelopeKind.ofWire? (n : Int) : Option EnvelopeKind :=
  if n = 6 then some .direct else if n = 7 then some .closedGroup else none

/-- What is said of a number that stands for no kind. -/
def EnvelopeKind.unknownMessage (n : Int) : String := "unknown envelope type: " ++ toString n

/-- A sealed message and where it came from. -/
structure Envelope where
  kind : EnvelopeKind
  /-- The public key of the group, in an envelope of a group. -/
  source : Option String
  content : Option Bytes
  /-- When it was stored, in milliseconds. -/
  timestamp : Nat
deriving DecidableEq, Repr

namespace Envelope

/-- An envelope to the local identity. -/
def direct (content : Bytes) : Envelope := ⟨.direct, none, some content, 0⟩

def closedGroup (source : String) (content : Bytes) (timestamp : Nat) : Envelope :=
  ⟨.closedGroup, some source, some content, timestamp⟩

end Envelope

end SealedPost

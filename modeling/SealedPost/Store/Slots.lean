/-!
# Identity slots

Where the local identity is kept: five named slots of text. Saving may fail; a fault says how many
saves still succeed and how the next one fails, and several saves stop at the first that fails.
-/

namespace SealedPost

/-- The slots that hold an identity. -/
inductive IdentitySlot
  /-- The seed, as hexadecimal digits. -/
  | seed
  /-- The public key for receiving, as base64, like all that follow. -/
  | identityPublic
  | identityPrivate
  | signingPublic
  /-- The signing seed followed by its public key. -/
  | signingSecret
deriving DecidableEq, Repr

namespace IdentitySlot

/-- Every slot, in the order in which an identity is saved. -/
def all : List IdentitySlot :=
  [.seed, .identityPublic, .identityPrivate, .signingPublic, .signingSecret]

def key : IdentitySlot → String
  | .seed => "loki_seed"
  | .identityPublic => "pref_identity_public_v3"
  | .identityPrivate => "pref_identity_private_v3"
  | .signingPublic => "pref_ed25519_public_key"
  | .signingSecret => "pref_ed25519_secret_key"

def ofKey? (name : String) : Option IdentitySlot := all.find? fun slot => slot.key = name

end IdentitySlot

/-- Why a store refused an operation. -/
inductive StoreError
  | notFound (text : String)
  | operationFailed (text : String)
  | dataCorruption (text : String)
deriving DecidableEq, Repr

/-- The wording of a failure. -/
def StoreError.message : StoreError → String
  | .notFound text => "record not found: " ++ text
  | .operationFailed text => "storage operation failed: " ++ text
  | .dataCorruption text => "data corruption detected: " ++ text

/-- What the slots hold. -/
structure IdentitySlots where
  seed : Option String
  identityPublic : Option String
  identityPrivate : Option String
  signingPublic : Option String
  signingSecret : Option String
deriving DecidableEq, Repr

/-- The save after the next `after` ones fails. -/
structure SaveFault where
  after : Nat
  error : StoreError
deriving DecidableEq, Repr

namespace IdentitySlots

def empty : IdentitySlots := ⟨none, none, none, none, none⟩

def get? (slots : IdentitySlots) : IdentitySlot → Option String
  | .seed => slots.seed
  | .identityPublic => slots.identityPublic
  | .identityPrivate => slots.identityPrivate
  | .signingPublic => slots.signingPublic
  | .signingSecret => slots.signingSecret

/-- The slots with a text put into one of them. -/
def set (slots : IdentitySlots) (slot : IdentitySlot) (value : String) : IdentitySlots :=
  match slot with
  | .seed => { slots with seed := some value }
  | .identityPublic => { slots with identityPublic := some value }
  | .identityPrivate => { slots with identityPrivate := some value }
  | .signingPublic => { slots with signingPublic := some value }
  | .signingSecret => { slots with signingSecret := some value }

@[simp] theorem get?_set (slots : IdentitySlots) (slot other : IdentitySlot) (value : String) :
    (slots.set slot value).get? other = if other = slot then some value else slots.get? other := by
  cases slot <;> cases other <;> rfl

@[ext] theorem ext {a b : IdentitySlots} (h : ∀ slot, a.get? slot = b.get? slot) : a = b := by
  have h1 := h .seed
  have h2 := h .identityPublic
  have h3 := h .identityPrivate
  have h4 := h .signingPublic
  have h5 := h .signingSecret
  cases a; cases b
  simp_all [get?]

/-- Saves texts one after the other, up to the first save that fails; answers that failure. -/
def saveAll : Option SaveFault → List (IdentitySlot × String) → IdentitySlots →
    IdentitySlots × Option StoreError
  | _, [], slots => (slots, none)
  | some ⟨0, error⟩, _ :: _, slots => (slots, some error)
  | some ⟨after + 1, error⟩, (slot, value) :: rest, slots =>
    saveAll (some ⟨after, error⟩) rest (slots.set slot value)
  | none, (slot, value) :: rest, slots => saveAll none rest (slots.set slot value)

end IdentitySlots

end SealedPost

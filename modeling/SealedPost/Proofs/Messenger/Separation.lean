import SealedPost.Proofs.Messenger.Opening

/-!
# Keys are kept apart

Two stores side by side, with anything in them: slots that cannot be read, groups whose keys do not
fit. Each operation looks at its own keys alone, so two stores that agree on those cannot be told
apart by it, in what it returns or in how it fails (`Messenger.keys_kept_apart`).

* Sending asks for the signing slot.
* Opening what was sent to the local identity asks for the two slots of the receiving pair.
* Opening what was sent to a group asks whether the group is known and for its secret key.
-/

namespace SealedPost

/-! ## What a key is loaded from -/

namespace Keyring

/-- What a slot reads back as hangs on the text in it. -/
theorem slotOctets?_congr {n : Nat} {slots slots' : IdentitySlots} {slot : IdentitySlot}
    (same : slots.get? slot = slots'.get? slot) :
    slotOctets? n slots slot = slotOctets? n slots' slot := by
  simp only [slotOctets?, same]

variable [Curve]

theorem loadSigningKey?_congr {slots slots' : IdentitySlots}
    (secret : slots.get? .signingSecret = slots'.get? .signingSecret) :
    loadSigningKey? slots = loadSigningKey? slots' := by
  rw [loadSigningKey?, loadSigningKey?, slotOctets?_congr secret]

theorem loadPair?_congr {slots slots' : IdentitySlots}
    (publicKey : slots.get? .identityPublic = slots'.get? .identityPublic)
    (secret : slots.get? .identityPrivate = slots'.get? .identityPrivate) :
    loadPair? slots = loadPair? slots' := by
  rw [loadPair?, loadPair?, slotOctets?_congr publicKey, slotOctets?_congr secret]

end Keyring

namespace Messenger
variable [Curve]

/-! ## What an operation hangs on -/

theorem encrypt_congr {slots slots' : IdentitySlots}
    (secret : slots.get? .signingSecret = slots'.get? .signingSecret)
    (ephemeral : Option (Octets 32)) (plaintext : Bytes) (recipient : String) :
    encrypt slots ephemeral plaintext recipient = encrypt slots' ephemeral plaintext recipient := by
  unfold encrypt
  rw [Keyring.loadSigningKey?_congr secret]

theorem recipientPair_direct_congr {slots slots' : IdentitySlots} {groups groups' : GroupTable}
    {source source' : Option String} {content content' : Option Bytes} {timestamp timestamp' : Nat}
    (publicKey : slots.get? .identityPublic = slots'.get? .identityPublic)
    (secret : slots.get? .identityPrivate = slots'.get? .identityPrivate) :
    recipientPair slots groups ⟨.direct, source, content, timestamp⟩ =
      recipientPair slots' groups' ⟨.direct, source', content', timestamp'⟩ := by
  simp only [recipientPair, Keyring.loadPair?_congr publicKey secret]

/-- An envelope without a source names no group, so the tables need only agree on a source that
there is. -/
theorem groupPair_source_congr {groups groups' : GroupTable} {source : Option String}
    (agree : ∀ key ∈ source, groups.isKnown key = groups'.isKnown key ∧
      groups.privateKey? key = groups'.privateKey? key) :
    groupPair groups source = groupPair groups' source := by
  cases source with
  | none => rfl
  | some key => exact groupPair_congr rfl (GroupTable.secret?_eq_iff.2 (agree key rfl))

/-- **Each operation looks at its own keys alone.** Of two stores, whatever they hold: they seal
alike where their signing slots are equal; they open alike what was sent to the local identity where
the two slots of the receiving pair are equal, whatever source and time it bears; and they open
alike what was sent to a group where they agree on whether the group is known and on its secret key.
So what is sent to the local identity opens with the stored pair and with no other, and what is sent
to a group with the pair of the group that it names. -/
theorem keys_kept_apart (slots slots' : IdentitySlots) (groups groups' : GroupTable) :
    (slots.get? .signingSecret = slots'.get? .signingSecret →
      ∀ ephemeral plaintext recipient,
        encrypt slots ephemeral plaintext recipient =
          encrypt slots' ephemeral plaintext recipient) ∧
    (slots.get? .identityPublic = slots'.get? .identityPublic →
      slots.get? .identityPrivate = slots'.get? .identityPrivate →
      ∀ content source source' timestamp timestamp',
        decrypt slots groups ⟨.direct, source, content, timestamp⟩ =
          decrypt slots' groups' ⟨.direct, source', content, timestamp'⟩) ∧
    (∀ source : Option String,
      (∀ key ∈ source, groups.isKnown key = groups'.isKnown key ∧
        groups.privateKey? key = groups'.privateKey? key) →
      ∀ content timestamp timestamp',
        decrypt slots groups ⟨.closedGroup, source, content, timestamp⟩ =
          decrypt slots' groups' ⟨.closedGroup, source, content, timestamp'⟩) ∧
    (∀ source content timestamp message,
      decrypt slots groups ⟨.direct, source, some content, timestamp⟩ = .ok message ↔
        ∃ pair, Keyring.loadPair? slots = some pair ∧
          SealedMessage.decrypt pair content = .ok message) ∧
    (∀ source content timestamp message,
      decrypt slots groups ⟨.closedGroup, source, some content, timestamp⟩ = .ok message ↔
        ∃ key secret, source = some key ∧ Authentic groups key content message secret) := by
  refine ⟨?sealing, ?direct, ?group, ?ownPair, ?groupPair⟩
  case sealing =>
    intro secret ephemeral plaintext recipient
    exact encrypt_congr secret ephemeral plaintext recipient
  case direct =>
    intro publicKey secret content source source' timestamp timestamp'
    apply decrypt_congr
    · rfl
    · exact recipientPair_direct_congr publicKey secret
  case group =>
    intro source agree content timestamp timestamp'
    apply decrypt_congr
    · rfl
    · exact groupPair_source_congr agree
  case ownPair =>
    intro source content timestamp message
    rw [decrypt_eq_ok_iff]
    constructor
    · rintro ⟨c, pair, given, found, opens⟩
      obtain rfl := Option.some.inj given
      exact ⟨pair, recipientPair_direct_eq_ok_iff.1 found, opens⟩
    · rintro ⟨pair, loaded, opens⟩
      exact ⟨content, pair, rfl, recipientPair_direct_eq_ok_iff.2 loaded, opens⟩
  case groupPair =>
    intro source content timestamp message
    cases source with
    | none =>
      have refused : decrypt slots groups ⟨.closedGroup, none, some content, timestamp⟩ ≠
          .ok message := by
        intro h
        obtain ⟨_, _, -, found, -⟩ := decrypt_eq_ok_iff.1 h
        cases found
      simpa using refused
    | some key =>
      have opens : decrypt slots groups (.closedGroup key content timestamp) = .ok message ↔
          ∃ secret, Authentic groups key content message secret := decrypt_closedGroup_eq_ok_iff
      constructor
      · intro h
        obtain ⟨secret, authentic⟩ := opens.1 h
        exact ⟨key, secret, rfl, authentic⟩
      · rintro ⟨key', secret, same, authentic⟩
        obtain rfl := Option.some.inj same
        exact opens.2 ⟨secret, authentic⟩

/-! ## Two stores that agree on little else -/

/-- The slots of an identity that can only send: its pair for receiving is damaged. -/
def sendingOnly (identity : Identity) : IdentitySlots :=
  { Keyring.holding identity with
    seed := none
    identityPublic := none
    identityPrivate := some "?" }

/-- The slots of an identity that can only receive: its signing key is damaged. -/
def receivingOnly (identity : Identity) : IdentitySlots :=
  { Keyring.holding identity with seed := some "?", signingSecret := none }

end Messenger

namespace Messenger
open Text

/-- The readers under the bare key and with a member, beside a group whose key cannot be read. -/
def readersElsewhere : GroupTable :=
  let known : GroupRecord :=
    ⟨Hex.encode readers.publicKey.bytes, readersRecord.privateKey, ["m"], []⟩
  (GroupTable.empty.add known).add ⟨"broken", some "no key", [], ["a"]⟩

/-- Messages go where their keys are, past everything that is damaged; and what is sealed for the
local identity does not open as the envelope of a group that goes by its name. -/
theorem keys_kept_apart_when_damaged :
    ∃ c c', Keyring.loadPair? (sendingOnly writer) = none ∧
      Keyring.loadSigningKey? (receivingOnly reader) = none ∧
      encrypt (sendingOnly writer) (some (Octets.ofNat 32 3)) [104, 105] readers.sessionId =
        .ok c ∧
      decrypt (receivingOnly reader) readersElsewhere
        ⟨.closedGroup, some readers.sessionId, some c, 7⟩ = .ok ⟨[104, 105], writer.sessionId⟩ ∧
      encrypt (sendingOnly writer) (some (Octets.ofNat 32 3)) [104, 105] reader.sessionId =
        .ok c' ∧
      decrypt (receivingOnly reader) readersElsewhere
        ⟨.direct, some readers.sessionId, some c', 7⟩ = .ok ⟨[104, 105], writer.sessionId⟩ ∧
      ∀ message, decrypt (receivingOnly reader) readersElsewhere
        ⟨.closedGroup, some reader.sessionId, some c', 7⟩ ≠ .ok message := by
  -- What whole stores send and open.
  obtain ⟨c, sent, -, opens⟩ := delivered ofSeed_writer (KeyText.names_sessionId readers.publicKey)
    (List.cons_ne_nil _ _) agrees_readers
  obtain ⟨c', sent', -, opens'⟩ := delivered ofSeed_writer
    (KeyText.names_sessionId reader.pair.publicKey) (List.cons_ne_nil _ _) agrees_reader
  have filed : KeyText.strip readers.sessionId = readersRecord.fileKey :=
    (KeyText.strip_sessionId readers.publicKey).trans readersRecord_fileKey.symm
  have found : groupPair (GroupTable.empty.add readersRecord) (some readers.sessionId) =
      .ok readers := groupPair_of_tells (GroupTable.mem_records_add _ _) readersRecord_tells filed
  have group : recipientPair (Keyring.holding reader) (GroupTable.empty.add readersRecord)
      ⟨.closedGroup, some readers.sessionId, some c, 7⟩ = .ok readers := by
    rw [← found, recipientPair]
  -- The damaged stores agree with them on what each operation asks for.
  obtain ⟨sealing, -, -, -, -⟩ := keys_kept_apart (sendingOnly writer) (Keyring.holding writer)
    readersElsewhere readersElsewhere
  obtain ⟨-, opening, grouped, -, opened⟩ := keys_kept_apart (receivingOnly reader)
    (Keyring.holding reader) readersElsewhere (GroupTable.empty.add readersRecord)
  refine ⟨c, c', rfl, rfl, ?_, ?_, ?_, ?_, ?_⟩
  · rw [sealing rfl]
    exact sent
  · have agree : readersElsewhere.isKnown readers.sessionId =
          (GroupTable.empty.add readersRecord).isKnown readers.sessionId ∧
        readersElsewhere.privateKey? readers.sessionId =
          (GroupTable.empty.add readersRecord).privateKey? readers.sessionId := by
      decide +kernel
    rw [grouped (some readers.sessionId) (by simpa using agree) (some c) 7 7]
    exact opens _ _ _ rfl group
  · rw [sealing rfl]
    exact sent'
  · rw [opening rfl rfl (some c') (some readers.sessionId) none 7 7]
    exact opens' _ _ _ rfl (recipientPair_direct reader _ none (some c') 7)
  · intro message h
    obtain ⟨key, secret, same, authentic⟩ := (opened _ _ _ _).1 h
    obtain rfl := Option.some.inj same
    have unknown : readersElsewhere.isKnown reader.sessionId = false := by decide +kernel
    rw [authentic.known] at unknown
    cases unknown

end Messenger

end SealedPost

import SealedPost.Proofs.Messenger

/-!
# What opens an envelope

An envelope opens exactly if there is a pair for it and the pair opens its content
(`Messenger.decrypt_eq_ok_iff`). For an envelope of a group everything else about the stores cancels
out: it opens exactly if it is `Authentic` for the table of groups
(`Messenger.decrypt_closedGroup_eq_ok_iff`), and it opens alike wherever the same is kept of the
group's secret key, in whichever spelling it names the group (`Messenger.groupPair_congr`).
-/

namespace SealedPost.Messenger
open Text

theorem secretOfText?_eq_some_iff {text : String} {secret : Octets 32} :
    secretOfText? text = some secret ↔ Hex.Spells (trim text).toList secret.bytes := by
  rw [← Hex.exists_octets_iff, secretOfText?]
  cases Hex.decode (trim text) <;> simp

theorem encloses_encode (secret : Octets 32) : Encloses (Hex.encode secret.bytes) secret := by
  refine ⟨[], (Hex.encode secret.bytes).toList, [], ?_, ?_, ?_, Hex.spells_encode _⟩
  · rw [List.nil_append, List.append_nil]
  · simp
  · simp

variable [Curve]

/-! ## Opening with a pair -/

/-- An envelope opens exactly if the pair that it is sealed to is at hand and opens its content. -/
theorem decrypt_eq_ok_iff {slots : IdentitySlots} {groups : GroupTable} {envelope : Envelope}
    {message : Message} :
    decrypt slots groups envelope = .ok message ↔
      ∃ content pair, envelope.content = some content ∧
        recipientPair slots groups envelope = .ok pair ∧
        SealedMessage.decrypt pair content = .ok message := by
  constructor
  · intro h
    unfold decrypt at h
    split at h
    · cases h
    rename_i content kept
    split at h
    · rename_i pair found
      exact ⟨content, pair, (Option.filter_eq_some_iff.1 kept).1, found, h⟩
    · cases h
  · rintro ⟨content, pair, given, found, opens⟩
    have nonempty : content ≠ [] := by
      rintro rfl
      obtain ⟨payload, opened, -⟩ := SealedMessage.decrypt_eq_ok_iff.1 opens
      cases opened
    rwa [decrypt_of_pair given nonempty found]

/-- Two envelopes with one content open alike where they are sealed to one pair. -/
theorem decrypt_congr {slots slots' : IdentitySlots} {groups groups' : GroupTable}
    {envelope envelope' : Envelope} (content : envelope.content = envelope'.content)
    (pair : recipientPair slots groups envelope = recipientPair slots' groups' envelope') :
    decrypt slots groups envelope = decrypt slots' groups' envelope' := by
  simp only [decrypt, content, pair]

/-! ## Envelopes to the local identity -/

theorem recipientPair_direct_eq_ok_iff {slots : IdentitySlots} {groups : GroupTable}
    {source : Option String} {content : Option Bytes} {timestamp : Nat} {pair : KeyPair} :
    recipientPair slots groups ⟨.direct, source, content, timestamp⟩ = .ok pair ↔
      Keyring.loadPair? slots = some pair := by
  simp only [recipientPair]
  cases Keyring.loadPair? slots <;> simp

/-! ## Envelopes of a group -/

/-- The content of an envelope to the group `source` is a message for it: the group is known, what
is kept of its secret key are the digits of `secret`, which belongs to the key that the envelope
names, and this pair opens a payload that is accepted under it as this message. -/
structure Authentic (groups : GroupTable) (source : String) (content : Bytes) (message : Message)
    (secret : Octets 32) : Prop where
  known : groups.isKnown source = true
  kept : ∃ text, groups.privateKey? source = some text ∧
    Hex.Spells (trim text).toList secret.bytes
  owned : KeyText.decode source = .ok (publicKeyOf secret)
  accepted : ∃ payload, SealedMessage.unbox (KeyPair.ofSecret secret) content = .ok payload ∧
    Payload.verify (publicKeyOf secret) payload = .ok message

theorem groupPair_eq_ok_iff {groups : GroupTable} {source : String} {pair : KeyPair} :
    groupPair groups (some source) = .ok pair ↔ groups.isKnown source = true ∧
      (∃ text, groups.privateKey? source = some text ∧
        Hex.Spells (trim text).toList pair.secret.bytes) ∧
      KeyText.decode source = .ok pair.publicKey := by
  constructor
  · intro h
    unfold groupPair at h
    split at h
    · cases h
    rename_i key named
    obtain ⟨same, known⟩ := Option.filter_eq_some_iff.1 named
    obtain rfl := Option.some.inj same
    split at h
    · cases h
    rename_i text stored
    split at h
    · cases h
    rename_i publicKey read
    split at h
    · cases h
    rename_i secret kept
    split at h
    · rename_i owned
      obtain rfl := Except.ok.inj h
      obtain ⟨rfl, rfl⟩ := KeyPair.ofParts_eq_ok_iff.1 owned
      exact ⟨known, ⟨text, stored, secretOfText?_eq_some_iff.1 kept⟩, read⟩
    · cases h
  · rintro ⟨known, ⟨text, stored, spells⟩, read⟩
    have owned : KeyPair.ofParts pair.secret pair.publicKey = .ok pair :=
      KeyPair.ofParts_eq_ok_iff.2 ⟨KeyPair.ext rfl, pair.publicKey_eq⟩
    simp only [groupPair, Option.filter_some, known, if_true, stored, read,
      secretOfText?_eq_some_iff.2 spells, owned]

/-- A message is authentic for a group exactly if the group's own pair opens it. -/
theorem exists_authentic_iff {groups : GroupTable} {source : String} {content : Bytes}
    {message : Message} :
    (∃ secret, Authentic groups source content message secret) ↔
      ∃ pair, groupPair groups (some source) = .ok pair ∧
        SealedMessage.decrypt pair content = .ok message := by
  constructor
  · rintro ⟨secret, known, stored, owned, accepted⟩
    exact ⟨KeyPair.ofSecret secret, groupPair_eq_ok_iff.2 ⟨known, stored, owned⟩,
      SealedMessage.decrypt_eq_ok_iff.2 accepted⟩
  · rintro ⟨pair, found, opens⟩
    obtain ⟨known, stored, owned⟩ := groupPair_eq_ok_iff.1 found
    have same : pair = KeyPair.ofSecret pair.secret := KeyPair.ext rfl
    rw [pair.publicKey_eq] at owned
    have accepted := SealedMessage.decrypt_eq_ok_iff.1 opens
    rw [pair.publicKey_eq, same] at accepted
    exact ⟨pair.secret, known, stored, owned, accepted⟩

/-- **An envelope of a group opens exactly if it is authentic**: the identity slots and the time on
the envelope do not matter. -/
theorem decrypt_closedGroup_eq_ok_iff {slots : IdentitySlots} {groups : GroupTable}
    {source : String} {content : Bytes} {timestamp : Nat} {message : Message} :
    decrypt slots groups (.closedGroup source content timestamp) = .ok message ↔
      ∃ secret, Authentic groups source content message secret := by
  rw [decrypt_eq_ok_iff, exists_authentic_iff]
  constructor
  · rintro ⟨c, pair, given, found, opens⟩
    obtain rfl := Option.some.inj given
    exact ⟨pair, found, opens⟩
  · rintro ⟨pair, found, opens⟩
    exact ⟨content, pair, rfl, found, opens⟩

theorem Authentic.nonempty {groups : GroupTable} {source : String} {content : Bytes}
    {message : Message} {secret : Octets 32}
    (h : Authentic groups source content message secret) : message.plaintext ≠ [] := by
  obtain ⟨payload, -, accepted⟩ := h.accepted
  obtain ⟨p, -, nonempty, -, point, -, rfl⟩ := Payload.verify_eq_ok_iff.1 accepted
  exact nonempty

/-! ## Two tables, two spellings -/

/-- Two spellings of a key name one pair wherever the same is kept of the group's secret key. -/
theorem groupPair_congr {groups groups' : GroupTable} {key key' : String}
    (spelling : KeyText.strip key = KeyText.strip key')
    (secret : groups.secret? key = groups'.secret? key') :
    groupPair groups (some key) = groupPair groups' (some key') := by
  obtain ⟨known, stored⟩ := GroupTable.secret?_eq_iff.1 secret
  have read : KeyText.decode key = KeyText.decode key' := by simp only [KeyText.decode, spelling]
  unfold groupPair
  by_cases h : groups'.isKnown key' = true
  · simp only [Option.filter_some, known, h, if_true, stored, read]
  · simp only [Option.filter_some, known, h, if_false, Bool.false_eq_true]

/-- An envelope of a group opens alike wherever the same is kept of the group's secret key. -/
theorem decrypt_closedGroup {slots slots' : IdentitySlots} {groups groups' : GroupTable}
    {key : String} (secret : groups.secret? key = groups'.secret? key) (content : Bytes)
    (timestamp : Nat) :
    decrypt slots groups (.closedGroup key content timestamp) =
      decrypt slots' groups' (.closedGroup key content timestamp) :=
  decrypt_congr rfl (groupPair_congr rfl secret)

/-- What is authentic under one spelling of a group's key is so under every other, wherever the same
is kept of the group's secret key. -/
theorem Authentic.congr {groups groups' : GroupTable} {source source' : String} {content : Bytes}
    {message : Message} {secret : Octets 32}
    (spelling : KeyText.strip source = KeyText.strip source')
    (same : groups.secret? source' = groups'.secret? source')
    (h : Authentic groups source content message secret) :
    Authentic groups' source' content message secret := by
  have found : groups.secret? source = groups'.secret? source' := by
    rw [← same, GroupTable.secret?, GroupTable.secret?, GroupTable.find?_congr spelling]
  obtain ⟨known, kept⟩ := GroupTable.secret?_eq_iff.1 found
  obtain ⟨isKnown, ⟨text, stored, spells⟩, owned, accepted⟩ := h
  refine ⟨known ▸ isKnown, ⟨text, kept ▸ stored, spells⟩, ?_, accepted⟩
  rw [KeyText.decode_eq_ok_iff_spells] at owned ⊢
  exact spelling ▸ owned

end SealedPost.Messenger

/-! ## A store with a group -/

namespace SealedPost.Messenger

def readersStore : Store := ⟨.empty, GroupTable.empty.add readersRecord, .empty⟩

/-- There is a message that opens for its group. -/
theorem exists_authentic : ∃ content message secret,
    Authentic readersStore.groups readers.sessionId content message secret := by
  obtain ⟨content, -, -, opens⟩ := delivered ofSeed_writer
    (KeyText.names_sessionId readers.publicKey) (List.cons_ne_nil _ _) agrees_readers
  have pair : groupPair readersStore.groups (some readers.sessionId) = .ok readers :=
    groupPair_of_tells (GroupTable.mem_records_add _ _) readersRecord_tells rfl
  have opened := opens .empty readersStore.groups (.closedGroup readers.sessionId content 0) rfl pair
  exact ⟨content, _, decrypt_closedGroup_eq_ok_iff.1 opened⟩

end SealedPost.Messenger

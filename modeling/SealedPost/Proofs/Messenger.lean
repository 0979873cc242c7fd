import SealedPost.Messenger
import SealedPost.Curve.Curve25519
import SealedPost.Proofs.Identity.Derivation
import SealedPost.Proofs.Identity.KeyText
import SealedPost.Proofs.Keyring
import SealedPost.Proofs.Message.Acceptance
import SealedPost.Proofs.Store.Groups

/-!
# Delivery

A message that leaves one store arrives in another. The way leads through the texts of both: the
slots that an identity was restored into, the address it is sent to, the record of a group. Of the
curve it takes three equations, for the keys of this one message (`Agrees`).

* `SealedMessage.decrypt_close`: a sealed message opens for whom it was sealed.
* `SealedMessage.decrypt_short`: what could only hold an empty plaintext is undecipherable.
* `Messenger.restored_delivers`: from a restored sender to a restored recipient or a known group.
-/

namespace SealedPost
open Text

/-! ## Sealed messages -/

/-- What a message from `signing` to the owner of `pair` takes of the curve: that the signature made
for it holds, that the box finds the pair's own public key, and that both ends of the box share one
key. -/
structure Agrees [Curve] (signing : SigningKey) (pair : KeyPair) (ephemeral : Octets 32)
    (plaintext : Bytes) : Prop where
  holds : Signature.verify signing.publicKey
    (Payload.signedData plaintext signing.publicKey pair.publicKey)
    (signing.sign (Payload.signedData plaintext signing.publicKey pair.publicKey)) = true
  owns : SealedBox.publicOf pair.secret = pair.publicKey
  shares : SealedBox.sharedKey ephemeral pair.publicKey =
    SealedBox.sharedKey pair.secret (SealedBox.publicOf ephemeral)

namespace SealedMessage
variable [Curve]

theorem length_close (ephemeral recipient : Octets 32) (signing : SigningKey) (plaintext : Bytes) :
    (SealedBox.close ephemeral recipient
      (Payload.sign signing recipient plaintext).toBytes).length = plaintext.length + overhead := by
  rw [SealedBox.length_close, Payload.length_toBytes, overhead, Payload.sign, Nat.add_assoc]

theorem close_ne_nil (ephemeral recipient : Octets 32) (signing : SigningKey) (plaintext : Bytes) :
    SealedBox.close ephemeral recipient (Payload.sign signing recipient plaintext).toBytes ≠ [] := by
  apply List.length_pos_iff.1
  rw [length_close, overhead, SealedBox.overhead]
  omega

/-- **A sealed message opens for whom it was sealed**, and names whoever signed it. -/
theorem decrypt_close {signing : SigningKey} {pair : KeyPair} {ephemeral key : Octets 32}
    {plaintext : Bytes} (agrees : Agrees signing pair ephemeral plaintext)
    (nonempty : plaintext ≠ []) (hkey : Curve.montgomery? signing.publicKey = some key) :
    decrypt pair (SealedBox.close ephemeral pair.publicKey
      (Payload.sign signing pair.publicKey plaintext).toBytes) =
        .ok ⟨plaintext, KeyText.sessionId key⟩ := by
  have opened := unbox_eq_ok_iff.2 (SealedBox.open?_close
    (Payload.sign signing pair.publicKey plaintext).toBytes agrees.owns agrees.shares)
  obtain ⟨point, hpoint, -, rfl⟩ := Curve.montgomery?_eq_some_iff.1 hkey
  exact decrypt_eq_ok_iff.2 ⟨_, opened, Payload.verify_of_signed nonempty agrees.holds hpoint⟩

/-- Too few bytes for a plaintext are undecipherable, whoever opens them. -/
theorem decrypt_short {pair : KeyPair} {b : Bytes} (nonempty : b ≠ [])
    (short : b.length ≤ overhead) : decrypt pair b = .error .decryptionFailed := by
  unfold decrypt
  cases h : unbox pair b with
  | ok payload =>
    have := SealedBox.length_of_open? (unbox_eq_ok_iff.1 h)
    refine Payload.verify_eq_decryptionFailed_iff.2 ?_
    rw [overhead] at short
    omega
  | error e =>
    obtain rfl := unbox_error nonempty h
    rfl

end SealedMessage

/-! ## The keys at both ends -/

namespace Messenger

/-- A text gives a secret key if it is its digits, with white space around them. -/
def Encloses (text : String) (secret : Octets 32) : Prop :=
  ∃ front digits back, text.toList = front ++ digits ++ back ∧
    (∀ c ∈ front, isBlank c = true) ∧ (∀ c ∈ back, isBlank c = true) ∧
    Hex.Spells digits secret.bytes

theorem secretOfText?_of_encloses {text : String} {secret : Octets 32}
    (h : Encloses text secret) : secretOfText? text = some secret := by
  obtain ⟨front, digits, back, htext, hfront, hback, hdigits⟩ := h
  have read : Hex.decode (trim text) = .ok secret.bytes := by
    rw [Hex.decode_eq_ok_iff, toList_trim, htext,
      trimChars_append hfront hdigits.isBlank hback]
    exact hdigits
  simp only [secretOfText?, read, Octets.ofBytes?_bytes]

variable [Curve]

/-- A group's record tells its pair: it names the public key, and encloses the secret one. -/
structure Tells (record : GroupRecord) (pair : KeyPair) : Prop where
  names : KeyText.Names record.publicKey pair.publicKey
  encloses : ∃ text, record.privateKey = some text ∧ Encloses text pair.secret

/-- The pair of a group is found under each spelling of its key. -/
theorem groupPair_of_tells {groups : GroupTable} {record : GroupRecord} {pair : KeyPair}
    {source : String} (mem : record ∈ groups.records) (tells : Tells record pair)
    (spells : KeyText.strip source = record.fileKey) :
    groupPair groups (some source) = .ok pair := by
  have found : groups.find? source = some record :=
    GroupTable.find?_eq_some_iff.2 ⟨mem, spells.symm⟩
  have known : groups.isKnown source = true := by rw [GroupTable.isKnown, found]; rfl
  obtain ⟨text, htext, hsecret⟩ := tells.encloses
  have stored : groups.privateKey? source = some text := by
    rw [GroupTable.privateKey?, found, Option.bind_some, htext]
  have read : KeyText.decode source = .ok pair.publicKey := by
    rw [KeyText.decode_eq_ok_iff_spells, spells, GroupRecord.fileKey,
      ← KeyText.decode_eq_ok_iff_spells, KeyText.decode_eq_ok_iff]
    exact tells.names
  have owned : KeyPair.ofParts pair.secret pair.publicKey = .ok pair :=
    KeyPair.ofParts_eq_ok_iff.2 ⟨KeyPair.ext rfl, pair.publicKey_eq⟩
  simp only [groupPair, Option.filter_some, known, if_true, stored, read,
    secretOfText?_of_encloses hsecret, owned]

/-- What a restored identity sends is signed with its key and sealed for whom the address names. -/
theorem encrypt_holding {sender : Identity} {ephemeral recipient : Octets 32} {plaintext : Bytes}
    {address : String} (names : KeyText.Names address recipient) :
    encrypt (Keyring.holding sender) (some ephemeral) plaintext address =
      .ok (SealedBox.close ephemeral recipient
        (Payload.sign sender.signing recipient plaintext).toBytes) := by
  simp only [encrypt, Keyring.loadSigningKey?_holding, KeyText.decode_eq_ok_iff.2 names,
    SealedMessage.encrypt]

theorem decrypt_of_pair {slots : IdentitySlots} {groups : GroupTable} {envelope : Envelope}
    {pair : KeyPair} {content : Bytes} (hcontent : envelope.content = some content)
    (nonempty : content ≠ []) (hpair : recipientPair slots groups envelope = .ok pair) :
    decrypt slots groups envelope = SealedMessage.decrypt pair content := by
  have kept : (!content.isEmpty) = true := by simpa using nonempty
  simp only [decrypt, hcontent, Option.filter_some, kept, if_true, hpair]

/-! ## From store to store -/

/-- Where the keys agree, a message from a restored identity is delivered under its name to every
envelope that is opened with the pair it was sealed for. -/
theorem delivered {seed : Seed} {sender : Identity} (derived : Identity.ofSeed seed = .ok sender)
    {pair : KeyPair} {ephemeral : Octets 32} {plaintext : Bytes} {address : String}
    (names : KeyText.Names address pair.publicKey) (nonempty : plaintext ≠ [])
    (agrees : Agrees sender.signing pair ephemeral plaintext) :
    ∃ c, encrypt (Keyring.holding sender) (some ephemeral) plaintext address = .ok c ∧
      c.length = plaintext.length + SealedMessage.overhead ∧
      ∀ slots groups envelope, envelope.content = some c →
        recipientPair slots groups envelope = .ok pair →
        decrypt slots groups envelope = .ok ⟨plaintext, sender.sessionId⟩ := by
  obtain ⟨hsender, meets⟩ := Identity.ofSeed_eq_ok_iff.1 derived
  rw [← hsender] at meets
  have hlength := SealedMessage.length_close ephemeral pair.publicKey sender.signing plaintext
  refine ⟨_, encrypt_holding names, hlength, ?_⟩
  intro slots groups envelope hcontent hpair
  rw [decrypt_of_pair hcontent (SealedMessage.close_ne_nil _ _ _ _) hpair]
  exact SealedMessage.decrypt_close agrees nonempty meets

/-- An empty message is sealed like any other, and opened by nobody. -/
theorem empty_undelivered {sender : Identity} {ephemeral key : Octets 32} {address : String}
    (names : KeyText.Names address key) :
    ∃ c, encrypt (Keyring.holding sender) (some ephemeral) [] address = .ok c ∧
      c.length = SealedMessage.overhead ∧
      ∀ slots groups envelope pair, envelope.content = some c →
        recipientPair slots groups envelope = .ok pair →
        decrypt slots groups envelope = .error .decryptionFailed := by
  have hlength := SealedMessage.length_close ephemeral key sender.signing []
  rw [List.length_nil, Nat.zero_add] at hlength
  refine ⟨_, encrypt_holding names, hlength, ?_⟩
  intro slots groups envelope pair hcontent hpair
  rw [decrypt_of_pair hcontent (SealedMessage.close_ne_nil _ _ _ _) hpair]
  exact SealedMessage.decrypt_short (SealedMessage.close_ne_nil _ _ _ _) (Nat.le_of_eq hlength)

theorem recipientPair_direct (recipient : Identity) (groups : GroupTable) (source : Option String)
    (content : Option Bytes) (timestamp : Nat) :
    recipientPair (Keyring.holding recipient) groups ⟨.direct, source, content, timestamp⟩ =
      .ok recipient.pair := by
  simp only [recipientPair, Keyring.loadPair?_holding]

/-- **A restored identity reaches restored identities and groups.** Whatever the two stores held
before, a message to the session id or the bare key of the recipient is opened from the other store,
and one to the key of a group from every store that has its record. An empty message is sealed as
well and never opened. -/
theorem restored_delivers {fault fault' : Option SaveFault} {senderSeed recipientSeed : Seed}
    {prior prior' slots slots' : IdentitySlots} {sender recipient : Identity}
    (sending : Keyring.restore fault senderSeed prior = (.ok sender, slots))
    (receiving : Keyring.restore fault' recipientSeed prior' = (.ok recipient, slots'))
    (ephemeral : Octets 32) (plaintext : Bytes) :
    (plaintext ≠ [] → Agrees sender.signing recipient.pair ephemeral plaintext →
      ∀ address, address = recipient.sessionId ∨
          address = Hex.encode recipient.pair.publicKey.bytes →
      ∃ c, encrypt slots (some ephemeral) plaintext address = .ok c ∧
        c.length = plaintext.length + 144 ∧
        ∀ groups source timestamp,
          decrypt slots' groups ⟨.direct, source, some c, timestamp⟩ =
            .ok ⟨plaintext, sender.sessionId⟩) ∧
    (∀ group, plaintext ≠ [] → Agrees sender.signing group ephemeral plaintext →
      ∀ address, KeyText.Names address group.publicKey →
      ∃ c, encrypt slots (some ephemeral) plaintext address = .ok c ∧
        c.length = plaintext.length + 144 ∧
        ∀ receiver groups record source timestamp, record ∈ groups.records → Tells record group →
          KeyText.strip source = record.fileKey →
          decrypt receiver groups (Envelope.closedGroup source c timestamp) =
            .ok ⟨plaintext, sender.sessionId⟩) ∧
    (∀ address key, KeyText.Names address key →
      ∃ c, encrypt slots (some ephemeral) [] address = .ok c ∧ c.length = 144 ∧
        (∀ groups source timestamp,
          decrypt slots' groups ⟨.direct, source, some c, timestamp⟩ =
            .error .decryptionFailed) ∧
        (∀ receiver groups record group source timestamp, record ∈ groups.records →
          Tells record group → KeyText.strip source = record.fileKey →
          decrypt receiver groups (Envelope.closedGroup source c timestamp) =
            .error .decryptionFailed)) := by
  obtain ⟨derived, rfl⟩ := Keyring.restore_ok sending
  obtain ⟨-, rfl⟩ := Keyring.restore_ok receiving
  refine ⟨?direct, ?group, ?empty⟩
  case direct =>
    intro nonempty agrees address haddress
    have names : KeyText.Names address recipient.pair.publicKey := by
      rcases haddress with rfl | rfl
      · exact KeyText.names_sessionId recipient.pair.publicKey
      · exact KeyText.names_encode recipient.pair.publicKey
    obtain ⟨c, sealed, hlength, opens⟩ := delivered derived names nonempty agrees
    refine ⟨c, sealed, hlength, fun groups source timestamp => ?_⟩
    exact opens _ _ _ rfl (recipientPair_direct recipient groups source (some c) timestamp)
  case group =>
    intro group nonempty agrees address names
    obtain ⟨c, sealed, hlength, opens⟩ := delivered derived names nonempty agrees
    refine ⟨c, sealed, hlength, ?_⟩
    intro receiver groups record source timestamp mem tells spells
    exact opens _ _ _ rfl (groupPair_of_tells mem tells spells)
  case empty =>
    intro address key names
    obtain ⟨c, sealed, hlength, fails⟩ := empty_undelivered names
    refine ⟨c, sealed, hlength, fun groups source timestamp => ?_, ?_⟩
    · exact fails _ _ _ _ rfl (recipientPair_direct recipient groups source (some c) timestamp)
    · intro receiver groups record group source timestamp mem tells spells
      exact fails _ _ _ _ rfl (groupPair_of_tells mem tells spells)

end Messenger

/-! ## Two people and a group on the curve itself -/

namespace Messenger

/-- Somebody who writes, and somebody who reads. -/
def writer : Identity := Identity.derived ⟨Octets.ofNat 16 1⟩

def reader : Identity := Identity.derived ⟨Octets.ofNat 16 2⟩

theorem ofSeed_writer : Identity.ofSeed ⟨Octets.ofNat 16 1⟩ = .ok writer :=
  (Identity.ofSeed_eq _).1

theorem ofSeed_reader : Identity.ofSeed ⟨Octets.ofNat 16 2⟩ = .ok reader :=
  (Identity.ofSeed_eq _).1

theorem agrees_reader : Agrees writer.signing reader.pair (Octets.ofNat 32 3) [104, 105] :=
  ⟨by decide +kernel, by decide +kernel, by decide +kernel⟩

/-- A group, and its record with the secret key in capitals and white space around it. -/
def readers : KeyPair := KeyPair.ofSecret (Octets.ofNat 32 0xAB)

theorem agrees_readers : Agrees writer.signing readers (Octets.ofNat 32 3) [104, 105] :=
  ⟨by decide +kernel, by decide +kernel, by decide +kernel⟩

def readersRecord : GroupRecord where
  publicKey := readers.sessionId
  privateKey := some ("\tAB" ++ String.ofList (List.replicate 62 '0') ++ " \n")
  members := []
  admins := []

theorem readersRecord_tells : Tells readersRecord readers where
  names := KeyText.names_sessionId readers.publicKey
  encloses := by
    refine ⟨_, rfl, ['\t'], 'A' :: 'B' :: List.replicate 62 '0', [' ', '\n'], ?_, ?_, ?_, ?_⟩
    · decide
    · exact List.all_eq_true.1 (by decide)
    · exact List.all_eq_true.1 (by decide)
    · decide

theorem readersRecord_fileKey : readersRecord.fileKey = Hex.encode readers.publicKey.bytes :=
  KeyText.strip_sessionId readers.publicKey

theorem restored_delivers_between_seeds :
    ∃ sender recipient slots slots' c c',
      Keyring.restore none ⟨Octets.ofNat 16 1⟩ .empty = (.ok sender, slots) ∧
      Keyring.restore none ⟨Octets.ofNat 16 2⟩ slots = (.ok recipient, slots') ∧
      encrypt slots (some (Octets.ofNat 32 3)) [104, 105] recipient.sessionId = .ok c ∧
      decrypt slots' .empty (Envelope.direct c) = .ok ⟨[104, 105], sender.sessionId⟩ ∧
      encrypt slots (some (Octets.ofNat 32 3)) [104, 105] readers.sessionId = .ok c' ∧
      decrypt .empty (GroupTable.empty.add readersRecord)
          (Envelope.closedGroup (Hex.encode readers.publicKey.bytes) c' 0) =
        .ok ⟨[104, 105], sender.sessionId⟩ := by
  have sending := Keyring.restore_none .empty ofSeed_writer
  have receiving := Keyring.restore_none (Keyring.holding writer) ofSeed_reader
  obtain ⟨direct, group, -⟩ :=
    restored_delivers sending receiving (Octets.ofNat 32 3) [104, 105]
  obtain ⟨c, hc, -, opens⟩ :=
    direct (List.cons_ne_nil _ _) agrees_reader reader.sessionId (.inl rfl)
  obtain ⟨c', hc', -, opens'⟩ :=
    group readers (List.cons_ne_nil _ _) agrees_readers
      readers.sessionId (KeyText.names_sessionId readers.publicKey)
  refine ⟨_, _, _, _, c, c', sending, receiving, hc, opens _ _ _, hc', ?_⟩
  exact opens' _ _ readersRecord _ _ (GroupTable.mem_records_add _ _) readersRecord_tells
    (by rw [KeyText.strip_encode, readersRecord_fileKey])

end Messenger

end SealedPost

import SealedPost.Proofs.Messenger.Opening

/-!
# Which failure is reported

Several things can be wrong with an envelope at once, and one of them is reported. An envelope
without content is not looked into any further. For a group the order is: that it is known, that
there is something kept as its secret key, that the name it goes by is a key, that what is kept is
one too, that the two belong together; `NamesNoGroup` and `LacksSecret` sort the ways to fail by
what they are reported as. Past these, the pair alone decides (`Messenger.failures_classified`).
-/

namespace SealedPost.Messenger
open Text

/-! ## Texts that hold no key -/

/-- Whether the text, without the white space around it, is 64 hexadecimal digits. -/
def IsSecretText (text : String) : Prop :=
  (trim text).toList.length = 64 ∧ ∀ c ∈ (trim text).toList, c ∈ Hex.alphabet

theorem secretOfText?_eq_none_iff {text : String} :
    secretOfText? text = none ↔ ¬IsSecretText text := by
  have spelled : IsSecretText text ↔
      ∃ b : Bytes, Hex.Spells (trim text).toList b ∧ b.length = 32 := by
    rw [Hex.exists_spells_iff]
    rfl
  rw [spelled]
  constructor
  · rintro unread ⟨b, spells, length⟩
    have read : secretOfText? text = some ⟨b, length⟩ := secretOfText?_eq_some_iff.2 spells
    rw [unread] at read
    cases read
  · intro unspelled
    refine Option.eq_none_iff_forall_ne_some.2 fun secret read => unspelled ?_
    exact ⟨secret.bytes, secretOfText?_eq_some_iff.1 read, secret.length_bytes⟩

/-- What names no key is not read as one. -/
theorem exists_decode_error {s : String} (unnamed : ∀ key, ¬KeyText.Names s key) :
    ∃ reason, KeyText.decode s = .error reason := by
  cases read : KeyText.decode s with
  | error reason => exact ⟨reason, rfl⟩
  | ok key => exact absurd (KeyText.decode_eq_ok_iff.1 read) (unnamed key)

variable [Curve] {groups : GroupTable}

/-! ## Groups -/

/-- What an envelope names as its group is none. -/
inductive NamesNoGroup (groups : GroupTable) : (source : Option String) → Prop
  | absent : NamesNoGroup groups none
  | unknown {key : String} : groups.isKnown key = false → NamesNoGroup groups (some key)
  /-- It is known, but its name is no key. If nothing is kept as its secret key, that is reported
  instead. -/
  | unreadable {key text : String} : groups.isKnown key = true →
      groups.privateKey? key = some text → (∀ publicKey, ¬KeyText.Names key publicKey) →
      NamesNoGroup groups (some key)

/-- A group is known, and its secret key is not. -/
inductive LacksSecret (groups : GroupTable) : (source : Option String) → Prop
  | missing {key : String} : groups.isKnown key = true → groups.privateKey? key = none →
      LacksSecret groups (some key)
  | unreadable {key text : String} {publicKey : Octets 32} : groups.isKnown key = true →
      groups.privateKey? key = some text → KeyText.Names key publicKey → ¬IsSecretText text →
      LacksSecret groups (some key)
  /-- What is kept is the secret key of somebody else. -/
  | foreign {key text : String} {publicKey secret : Octets 32} : groups.isKnown key = true →
      groups.privateKey? key = some text → KeyText.Names key publicKey →
      Hex.Spells (trim text).toList secret.bytes → publicKeyOf secret ≠ publicKey →
      LacksSecret groups (some key)

theorem groupPair_of_namesNoGroup {source : Option String} (h : NamesNoGroup groups source) :
    groupPair groups source = .error .invalidGroupPublicKey := by
  cases h with
  | absent => rfl
  | unknown unknown =>
    simp only [groupPair, Option.filter_some, unknown, Bool.false_eq_true, if_false]
  | unreadable known stored unnamed =>
    obtain ⟨reason, unread⟩ := exists_decode_error unnamed
    simp only [groupPair, Option.filter_some, known, if_true, stored, unread]

theorem groupPair_of_lacksSecret {source : Option String} (h : LacksSecret groups source) :
    groupPair groups source = .error .noGroupPrivateKey := by
  cases h with
  | missing known missing => simp only [groupPair, Option.filter_some, known, if_true, missing]
  | unreadable known stored names garbled =>
    have read := KeyText.decode_eq_ok_iff.2 names
    have kept := secretOfText?_eq_none_iff.2 garbled
    simp only [groupPair, Option.filter_some, known, if_true, stored, read, kept]
  | @foreign key text publicKey secret known stored names spells foreign =>
    have read := KeyText.decode_eq_ok_iff.2 names
    have kept := secretOfText?_eq_some_iff.2 spells
    have refused : KeyPair.ofParts secret publicKey = .error .keyPairMismatch := if_neg foreign
    simp only [groupPair, Option.filter_some, known, if_true, stored, read, kept, refused]

/-- There is no other way for a group to be without a pair. -/
theorem groupPair_cases (groups : GroupTable) (source : Option String) :
    NamesNoGroup groups source ∨ LacksSecret groups source ∨
      ∃ pair, groupPair groups source = .ok pair := by
  -- The cases are split in the order of the checks: of two failures the one that comes first here
  -- is reported.
  cases source with
  | none => exact .inl .absent
  | some key =>
    cases known : groups.isKnown key with
    | false => exact .inl (.unknown known)
    | true =>
      cases stored : groups.privateKey? key with
      | none => exact .inr (.inl (.missing known stored))
      | some text =>
        by_cases named : ∃ publicKey, KeyText.Names key publicKey
        · obtain ⟨publicKey, names⟩ := named
          cases kept : secretOfText? text with
          | none =>
            have garbled := secretOfText?_eq_none_iff.1 kept
            exact .inr (.inl (.unreadable known stored names garbled))
          | some secret =>
            have spells := secretOfText?_eq_some_iff.1 kept
            by_cases owned : publicKeyOf secret = publicKey
            · have read : KeyText.decode key = .ok (publicKeyOf secret) := by
                rw [KeyText.decode_eq_ok_iff, owned]
                exact names
              exact .inr (.inr ⟨KeyPair.ofSecret secret,
                groupPair_eq_ok_iff.2 ⟨known, ⟨text, stored, spells⟩, read⟩⟩)
            · exact .inr (.inl (.foreign known stored names spells owned))
        · have unnamed : ∀ publicKey, ¬KeyText.Names key publicKey :=
            fun publicKey names => named ⟨publicKey, names⟩
          exact .inl (.unreadable known stored unnamed)

theorem groupPair_eq_invalidGroupPublicKey_iff {source : Option String} :
    groupPair groups source = .error .invalidGroupPublicKey ↔ NamesNoGroup groups source := by
  refine ⟨fun failed => ?_, groupPair_of_namesNoGroup⟩
  rcases groupPair_cases groups source with h | h | ⟨pair, found⟩
  · exact h
  · rw [groupPair_of_lacksSecret h] at failed
    cases failed
  · rw [found] at failed
    cases failed

theorem groupPair_eq_noGroupPrivateKey_iff {source : Option String} :
    groupPair groups source = .error .noGroupPrivateKey ↔ LacksSecret groups source := by
  refine ⟨fun failed => ?_, groupPair_of_lacksSecret⟩
  rcases groupPair_cases groups source with h | h | ⟨pair, found⟩
  · rw [groupPair_of_namesNoGroup h] at failed
    cases failed
  · exact h
  · rw [found] at failed
    cases failed

/-! ## Envelopes -/

/-- The pair that an envelope is to be opened with: the stored one, or that of the group. -/
def Selected (slots : IdentitySlots) (groups : GroupTable) (envelope : Envelope)
    (pair : KeyPair) : Prop :=
  match envelope.kind with
  | .direct => Keyring.loadPair? slots = some pair
  | .closedGroup => ∃ key, envelope.source = some key ∧ groups.isKnown key = true ∧
      (∃ text, groups.privateKey? key = some text ∧
        Hex.Spells (trim text).toList pair.secret.bytes) ∧
      KeyText.Names key pair.publicKey

section
variable {slots : IdentitySlots} {envelope : Envelope} {content : Bytes}

theorem recipientPair_eq_ok_iff {pair : KeyPair} :
    recipientPair slots groups envelope = .ok pair ↔ Selected slots groups envelope pair := by
  unfold recipientPair Selected
  cases envelope.kind with
  | direct => cases Keyring.loadPair? slots <;> simp
  | closedGroup =>
    cases envelope.source with
    | none => simp [groupPair_of_namesNoGroup .absent]
    | some key => simp [groupPair_eq_ok_iff, KeyText.decode_eq_ok_iff]

theorem recipientPair_eq_noIdentity_iff :
    recipientPair slots groups envelope = .error .noIdentity ↔
      envelope.kind = .direct ∧ Keyring.loadPair? slots = none := by
  unfold recipientPair
  cases envelope.kind with
  | direct => cases Keyring.loadPair? slots <;> simp
  | closedGroup =>
    rcases groupPair_cases groups envelope.source with h | h | ⟨pair, found⟩
    · simp [groupPair_of_namesNoGroup h]
    · simp [groupPair_of_lacksSecret h]
    · simp [found]

theorem recipientPair_eq_invalidGroupPublicKey_iff :
    recipientPair slots groups envelope = .error .invalidGroupPublicKey ↔
      envelope.kind = .closedGroup ∧ NamesNoGroup groups envelope.source := by
  unfold recipientPair
  cases envelope.kind with
  | direct => cases Keyring.loadPair? slots <;> simp
  | closedGroup => simp [groupPair_eq_invalidGroupPublicKey_iff]

theorem recipientPair_eq_noGroupPrivateKey_iff :
    recipientPair slots groups envelope = .error .noGroupPrivateKey ↔
      envelope.kind = .closedGroup ∧ LacksSecret groups envelope.source := by
  unfold recipientPair
  cases envelope.kind with
  | direct => cases Keyring.loadPair? slots <;> simp
  | closedGroup => simp [groupPair_eq_noGroupPrivateKey_iff]

/-- The errors of an envelope for which there is no pair. -/
def unpaired : List MessageError := [.noIdentity, .invalidGroupPublicKey, .noGroupPrivateKey]

theorem mem_unpaired {e : MessageError}
    (failed : recipientPair slots groups envelope = .error e) : e ∈ unpaired := by
  unfold recipientPair at failed
  split at failed
  · split at failed
    · cases failed
    · obtain rfl := Except.error.inj failed
      decide
  · rcases groupPair_cases groups envelope.source with h | h | ⟨pair, found⟩
    · rw [groupPair_of_namesNoGroup h] at failed
      obtain rfl := Except.error.inj failed
      decide
    · rw [groupPair_of_lacksSecret h] at failed
      obtain rfl := Except.error.inj failed
      decide
    · rw [found] at failed
      cases failed

theorem exists_pair (loads : ¬(envelope.kind = .direct ∧ Keyring.loadPair? slots = none))
    (named : ¬(envelope.kind = .closedGroup ∧ NamesNoGroup groups envelope.source))
    (kept : ¬(envelope.kind = .closedGroup ∧ LacksSecret groups envelope.source)) :
    ∃ pair, recipientPair slots groups envelope = .ok pair := by
  cases found : recipientPair slots groups envelope with
  | ok pair => exact ⟨pair, rfl⟩
  | error e =>
    have reported := mem_unpaired found
    simp only [unpaired, List.mem_cons, List.not_mem_nil, or_false] at reported
    rcases reported with rfl | rfl | rfl
    · exact absurd (recipientPair_eq_noIdentity_iff.1 found) loads
    · exact absurd (recipientPair_eq_invalidGroupPublicKey_iff.1 found) named
    · exact absurd (recipientPair_eq_noGroupPrivateKey_iff.1 found) kept

/-! ## Opening and sealing -/

theorem decrypt_of_empty (empty : envelope.content = none ∨ envelope.content = some []) :
    decrypt slots groups envelope = .error .noData := by
  unfold decrypt
  rcases empty with absent | empty
  · rw [absent]
    rfl
  · rw [empty]
    rfl

theorem decrypt_of_error {e : MessageError} (given : envelope.content = some content)
    (nonempty : content ≠ []) (failed : recipientPair slots groups envelope = .error e) :
    decrypt slots groups envelope = .error e := by
  have kept : (!content.isEmpty) = true := by simpa using nonempty
  simp only [decrypt, given, Option.filter_some, kept, if_true, failed]

/-- Once there is content, the errors of opening are those of the pair and those of the message in
it, and never the same. -/
theorem decrypt_eq_error_iff {e : MessageError} (given : envelope.content = some content)
    (nonempty : content ≠ []) (h : e ∈ unpaired) :
    decrypt slots groups envelope = .error e ↔
      recipientPair slots groups envelope = .error e := by
  refine ⟨fun failed => ?_, decrypt_of_error given nonempty⟩
  cases found : recipientPair slots groups envelope with
  | ok pair =>
    rw [decrypt_of_pair given nonempty found] at failed
    rcases SealedMessage.decrypt_error nonempty failed with rfl | rfl
    · exact absurd h (by decide)
    · exact absurd h (by decide)
  | error reason =>
    rw [decrypt_of_error given nonempty found] at failed
    rw [Except.error.inj failed]

theorem decrypt_eq_noData_iff : decrypt slots groups envelope = .error .noData ↔
    envelope.content = none ∨ envelope.content = some [] := by
  refine ⟨fun failed => ?_, decrypt_of_empty⟩
  cases given : envelope.content with
  | none => exact .inl rfl
  | some content =>
    by_cases empty : content = []
    · exact .inr (congrArg some empty)
    cases found : recipientPair slots groups envelope with
    | ok pair =>
      rw [decrypt_of_pair given empty found] at failed
      rcases SealedMessage.decrypt_error empty failed with h | h <;> cases h
    | error reason =>
      rw [decrypt_of_error given empty found] at failed
      obtain rfl := Except.error.inj failed
      exact absurd (mem_unpaired found) (by decide)

end

section
variable {slots : IdentitySlots} {ephemeral : Option (Octets 32)} {plaintext : Bytes}
  {recipient : String}

theorem encrypt_of_keys {signing : SigningKey} {key : Octets 32}
    (loaded : Keyring.loadSigningKey? slots = some signing)
    (names : KeyText.Names recipient key) :
    encrypt slots ephemeral plaintext recipient =
      SealedMessage.encrypt signing key ephemeral plaintext := by
  simp only [encrypt, loaded, KeyText.decode_eq_ok_iff.2 names]

/-- With both keys, only a secret key for the box can still be missing. -/
theorem sealing_error {signing : SigningKey} {key : Octets 32} {e : MessageError}
    (h : SealedMessage.encrypt signing key ephemeral plaintext = .error e) :
    e = .encryptionFailed := by
  cases ephemeral with
  | none => exact (Except.error.inj h).symm
  | some secret => cases h

theorem encrypt_eq_noIdentity_iff :
    encrypt slots ephemeral plaintext recipient = .error .noIdentity ↔
      Keyring.loadSigningKey? slots = none := by
  unfold encrypt
  cases Keyring.loadSigningKey? slots with
  | none => simp
  | some signing =>
    cases KeyText.decode recipient with
    | error reason => simp
    | ok key =>
      simp only [reduceCtorEq, iff_false]
      intro failed
      cases sealing_error failed

theorem encrypt_eq_invalidPublicKey_iff :
    encrypt slots ephemeral plaintext recipient = .error .invalidPublicKey ↔
      Keyring.loadSigningKey? slots ≠ none ∧ ∀ key, ¬KeyText.Names recipient key := by
  unfold encrypt
  simp only [← KeyText.decode_eq_ok_iff]
  cases Keyring.loadSigningKey? slots with
  | none => simp
  | some signing =>
    cases KeyText.decode recipient with
    | error reason => simp
    | ok key =>
      simp only [Except.ok.injEq, forall_eq', and_false, iff_false]
      intro failed
      cases sealing_error failed

end

/-- **Which failure is reported**, whatever the stores hold. For an envelope: that it carries no
data, exactly if it has no content or an empty one; else, for one to the local identity, that there
is no identity exactly if the stored pair does not load; for one of a group, that the group's public
key is invalid or that there is no secret key for it, exactly as `NamesNoGroup` and `LacksSecret`
tell; and in all other cases there is one pair for it, and the result is that of the pair on the
content, which fails in other ways or not at all. For a plaintext: that there is no identity exactly
if the signing key does not load, else that the recipient is invalid exactly if the text names no
key; and in all other cases the result is that of the keys. -/
theorem failures_classified (slots : IdentitySlots) (groups : GroupTable) (envelope : Envelope)
    (ephemeral : Option (Octets 32)) (plaintext : Bytes) (recipient : String) :
    (decrypt slots groups envelope = .error .noData ↔
      envelope.content = none ∨ envelope.content = some []) ∧
    (∀ content, envelope.content = some content → content ≠ [] →
      (decrypt slots groups envelope = .error .noIdentity ↔
        envelope.kind = .direct ∧ Keyring.loadPair? slots = none) ∧
      (decrypt slots groups envelope = .error .invalidGroupPublicKey ↔
        envelope.kind = .closedGroup ∧ NamesNoGroup groups envelope.source) ∧
      (decrypt slots groups envelope = .error .noGroupPrivateKey ↔
        envelope.kind = .closedGroup ∧ LacksSecret groups envelope.source) ∧
      (¬(envelope.kind = .direct ∧ Keyring.loadPair? slots = none) →
        ¬(envelope.kind = .closedGroup ∧ NamesNoGroup groups envelope.source) →
        ¬(envelope.kind = .closedGroup ∧ LacksSecret groups envelope.source) →
        ∃ pair, Selected slots groups envelope pair ∧
          decrypt slots groups envelope = SealedMessage.decrypt pair content ∧
          ∀ e ∈ MessageError.noData :: unpaired, SealedMessage.decrypt pair content ≠ .error e)) ∧
    (encrypt slots ephemeral plaintext recipient = .error .noIdentity ↔
      Keyring.loadSigningKey? slots = none) ∧
    (encrypt slots ephemeral plaintext recipient = .error .invalidPublicKey ↔
      Keyring.loadSigningKey? slots ≠ none ∧ ∀ key, ¬KeyText.Names recipient key) ∧
    (∀ signing key, Keyring.loadSigningKey? slots = some signing → KeyText.Names recipient key →
      encrypt slots ephemeral plaintext recipient =
        SealedMessage.encrypt signing key ephemeral plaintext) := by
  refine ⟨decrypt_eq_noData_iff, ?opening, ?unsigned, ?unaddressed, ?sealing⟩
  case opening =>
    intro content given nonempty
    refine ⟨?_, ?_, ?_, ?paired⟩
    · rw [decrypt_eq_error_iff given nonempty (by decide), recipientPair_eq_noIdentity_iff]
    · rw [decrypt_eq_error_iff given nonempty (by decide),
        recipientPair_eq_invalidGroupPublicKey_iff]
    · rw [decrypt_eq_error_iff given nonempty (by decide),
        recipientPair_eq_noGroupPrivateKey_iff]
    case paired =>
      intro loads named kept
      obtain ⟨pair, found⟩ := exists_pair loads named kept
      refine ⟨pair, recipientPair_eq_ok_iff.1 found, decrypt_of_pair given nonempty found, ?_⟩
      intro e reported failed
      rcases SealedMessage.decrypt_error nonempty failed with rfl | rfl
      · exact absurd reported (by decide)
      · exact absurd reported (by decide)
  case unsigned => exact encrypt_eq_noIdentity_iff
  case unaddressed => exact encrypt_eq_invalidPublicKey_iff
  case sealing =>
    intro signing key loaded names
    exact encrypt_of_keys loaded names

end SealedPost.Messenger

/-! ## Several failures at once -/

namespace SealedPost.Messenger

/-- A group whose name is no key, with this kept as its secret key. -/
def nameless (privateKey : Option String) : GroupTable :=
  GroupTable.empty.add ⟨"broken", privateKey, [], []⟩

/-- If nothing is kept of a group whose name is no key, that is reported, and if anything is, its
name is. Without content neither is looked at, and to the local identity neither matters. -/
theorem failures_classified_at_once :
    decrypt .empty (nameless none) (.closedGroup "broken" [1] 0) = .error .noGroupPrivateKey ∧
      decrypt .empty (nameless (some "?")) (.closedGroup "broken" [1] 0) =
        .error .invalidGroupPublicKey ∧
      decrypt .empty (nameless none) (.closedGroup "broken" [] 0) = .error .noData ∧
      decrypt .empty (nameless none) (.direct [1]) = .error .noIdentity ∧
      encrypt .empty none [1] "broken" = .error .noIdentity := by
  have unnamed : ∀ publicKey, ¬KeyText.Names "broken" publicKey := by
    intro publicKey names
    rw [← KeyText.decode_eq_ok_iff] at names
    cases names
  have classified := fun groups envelope =>
    failures_classified .empty groups envelope none [1] "broken"
  refine ⟨?_, ?_, ?_, ?_, ?_⟩
  · exact ((classified _ _).2.1 [1] rfl (by decide)).2.2.1.2 ⟨rfl, .missing rfl rfl⟩
  · exact ((classified _ _).2.1 [1] rfl (by decide)).2.1.2 ⟨rfl, .unreadable rfl rfl unnamed⟩
  · exact (classified _ _).1.2 (.inr rfl)
  · exact ((classified _ _).2.1 [1] rfl (by decide)).1.2 ⟨rfl, rfl⟩
  · exact (classified (nameless none) (.direct [])).2.2.1.2 rfl

end SealedPost.Messenger

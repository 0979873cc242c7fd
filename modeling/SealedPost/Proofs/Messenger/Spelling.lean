import SealedPost.Proofs.Messenger.Opening
import SealedPost.Proofs.Store.Spelling

/-!
# The spelling of a key does not matter

The mark of a session id may stand in front of a key, or not, in everything that is asked of the
groups and of the messenger. Two runs side by side, with the same requests in other spellings, get
the same answers (`Messenger.spelling_interchangeable`): only the records that are handed back, and
the listing, show how each run spells its keys.

* `Messenger.perform_alike` is the step, one case for each operation: between two such runs the
  tables stay `GroupTable.Respelled`.
* `Messenger.run_alike` is the run.
-/

namespace SealedPost.Messenger

/-! ## Runs in two spellings -/

/-- What can be asked of the groups and of the messenger. -/
inductive Operation
  | add (record : GroupRecord)
  | remove (key : String)
  | isKnown (key : String)
  | privateKey (key : String)
  | count
  | list
  | encrypt (ephemeral : Option (Octets 32)) (plaintext : Bytes) (recipient : String)
  | decrypt (envelope : Envelope)

/-- What is answered. -/
inductive Answer
  | added
  | removed (record : Option GroupRecord)
  | known (isKnown : Bool)
  | kept (privateKey : Option String)
  | counted (count : Nat)
  | listed (keys : List String)
  | encrypted (result : Except MessageError Bytes)
  | decrypted (result : Except MessageError Message)

/-- One operation is another with the keys in its arguments respelled. -/
inductive Operation.Respelled : Operation → Operation → Prop
  | add {r r' : GroupRecord} (record : r.Respelled r') : Respelled (.add r) (.add r')
  | remove {k k' : String} (key : KeyText.Respelled k k') : Respelled (.remove k) (.remove k')
  | isKnown {k k' : String} (key : KeyText.Respelled k k') : Respelled (.isKnown k) (.isKnown k')
  | privateKey {k k' : String} (key : KeyText.Respelled k k') :
      Respelled (.privateKey k) (.privateKey k')
  | count : Respelled .count .count
  | list : Respelled .list .list
  | encrypt (ephemeral : Option (Octets 32)) (plaintext : Bytes) {k k' : String}
      (recipient : KeyText.Respelled k k') :
      Respelled (.encrypt ephemeral plaintext k) (.encrypt ephemeral plaintext k')
  | decrypt (kind : EnvelopeKind) (content : Option Bytes) (timestamp : Nat)
      {k k' : Option String} (source : Option.Rel KeyText.Respelled k k') :
      Respelled (.decrypt ⟨kind, k, content, timestamp⟩) (.decrypt ⟨kind, k', content, timestamp⟩)

/-- Two answers are the same but for the spelling of the keys in records, and in a listing for the
order that goes with it. -/
inductive Answer.Alike : Answer → Answer → Prop
  | same (a : Answer) : Alike a a
  | removed {r r' : Option GroupRecord} (record : Option.Rel GroupRecord.Respelled r r') :
      Alike (.removed r) (.removed r')
  | listed {ks ls ks' : List String} (spelled : List.Forall₂ KeyText.Respelled ks ls)
      (ordered : ls.Perm ks') : Alike (.listed ks) (.listed ks')

variable [Curve]

/-- Does one operation: answers it, and the groups afterwards. -/
def perform (slots : IdentitySlots) : Operation → GroupTable → Answer × GroupTable
  | .add record, groups => (.added, groups.add record)
  | .remove key, groups => (.removed (groups.find? key), groups.remove key)
  | .isKnown key, groups => (.known (groups.isKnown key), groups)
  | .privateKey key, groups => (.kept (groups.privateKey? key), groups)
  | .count, groups => (.counted groups.count, groups)
  | .list, groups => (.listed groups.publicKeys, groups)
  | .encrypt ephemeral plaintext recipient, groups =>
    (.encrypted (encrypt slots ephemeral plaintext recipient), groups)
  | .decrypt envelope, groups => (.decrypted (decrypt slots groups envelope), groups)

/-- Does operations one after the other. -/
def run (slots : IdentitySlots) : List Operation → GroupTable → List Answer × GroupTable
  | [], groups => ([], groups)
  | operation :: rest, groups =>
    let (answer, groups) := perform slots operation groups
    let (answers, groups) := run slots rest groups
    (answer :: answers, groups)

theorem encrypt_respelled {slots : IdentitySlots} {k k' : String} (h : KeyText.Respelled k k')
    (ephemeral : Option (Octets 32)) (plaintext : Bytes) :
    encrypt slots ephemeral plaintext k = encrypt slots ephemeral plaintext k' := by
  unfold encrypt
  rw [h.decode_eq]

theorem decrypt_respelled {slots : IdentitySlots} {groups groups' : GroupTable}
    (h : groups.Respelled groups') {k k' : Option String}
    (source : Option.Rel KeyText.Respelled k k')
    (kind : EnvelopeKind) (content : Option Bytes) (timestamp : Nat) :
    decrypt slots groups ⟨kind, k, content, timestamp⟩ =
      decrypt slots groups' ⟨kind, k', content, timestamp⟩ := by
  apply decrypt_congr
  · rfl
  · cases kind with
    | direct => rfl
    | closedGroup =>
      cases source with
      | none => rfl
      | some key => exact groupPair_congr (KeyText.respelled_iff.1 key) (h.secret? key)

/-- **One operation in two spellings**: the answers are alike, and the tables stay so. -/
theorem perform_alike (slots : IdentitySlots) {operation operation' : Operation}
    (respelled : operation.Respelled operation') {groups groups' : GroupTable}
    (h : groups.Respelled groups') :
    (perform slots operation groups).1.Alike (perform slots operation' groups').1 ∧
      (perform slots operation groups).2.Respelled (perform slots operation' groups').2 := by
  cases respelled with
  | add record => exact ⟨.same _, h.add record⟩
  | remove key => exact ⟨.removed (h.find? key), h.remove key⟩
  | isKnown key =>
    refine ⟨?_, h⟩
    simp only [perform, (GroupTable.secret?_eq_iff.1 (h.secret? key)).1]
    exact .same _
  | privateKey key =>
    refine ⟨?_, h⟩
    simp only [perform, (GroupTable.secret?_eq_iff.1 (h.secret? key)).2]
    exact .same _
  | count =>
    refine ⟨?_, h⟩
    simp only [perform, h.count]
    exact .same _
  | list =>
    obtain ⟨keys, spelled, ordered⟩ := h.publicKeys
    exact ⟨.listed spelled ordered, h⟩
  | encrypt ephemeral plaintext recipient =>
    refine ⟨?_, h⟩
    simp only [perform, encrypt_respelled recipient]
    exact .same _
  | decrypt kind content timestamp source =>
    refine ⟨?_, h⟩
    simp only [perform, decrypt_respelled h source]
    exact .same _

/-- **Runs in two spellings**: answer for answer alike, and so are the tables that they leave. -/
theorem run_alike (slots : IdentitySlots) {operations operations' : List Operation}
    (respelled : List.Forall₂ Operation.Respelled operations operations')
    {groups groups' : GroupTable} (h : groups.Respelled groups') :
    List.Forall₂ Answer.Alike (run slots operations groups).1 (run slots operations' groups').1 ∧
      (run slots operations groups).2.Respelled (run slots operations' groups').2 := by
  induction respelled generalizing groups groups' with
  | nil => exact ⟨.nil, h⟩
  | cons first rest ih =>
    obtain ⟨answer, after⟩ := perform_alike slots first h
    obtain ⟨answers, final⟩ := ih after
    exact ⟨.cons answer answers, final⟩

/-- **The spelling of a key is interchangeable.** Of two runs from one table, the second with every
key in its arguments spelled with or without the mark as it likes, each answer is alike. In
particular a group that was added under one spelling is found, replaced, opened for and removed
under every other, and listed once. -/
theorem spelling_interchangeable (slots : IdentitySlots) (groups : GroupTable)
    {operations operations' : List Operation}
    (respelled : List.Forall₂ Operation.Respelled operations operations') :
    List.Forall₂ Answer.Alike (run slots operations groups).1 (run slots operations' groups).1 ∧
    ∀ (table : GroupTable) (record : GroupRecord) (key : String),
      KeyText.Respelled record.publicKey key →
      (table.add record).isKnown key = true ∧
      (table.add record).privateKey? key = record.privateKey ∧
      (∀ newer, KeyText.Respelled record.publicKey newer.publicKey →
        (table.add record).add newer = table.add newer) ∧
      (∀ pair content timestamp, Tells record pair → content ≠ [] →
        decrypt slots (table.add record) (.closedGroup key content timestamp) =
          SealedMessage.decrypt pair content) ∧
      (perform slots (.remove key) (table.add record)).1 = .removed (some record) ∧
      ((table.add record).remove key).isKnown record.publicKey = false ∧
      ((table.add record).publicKeys.filter fun k => KeyText.strip k = KeyText.strip key) =
        [record.publicKey] := by
  refine ⟨(run_alike slots respelled (GroupTable.Respelled.refl groups)).1, ?_⟩
  intro table record key spelling
  have found := table.find?_add spelling
  refine ⟨?known, ?kept, fun newer h => table.add_add h, ?opened, ?removed, ?gone,
    table.filter_publicKeys_add spelling⟩
  case known => rw [GroupTable.isKnown, found, Option.isSome_some]
  case kept => rw [GroupTable.privateKey?, found, Option.bind_some]
  case opened =>
    intro pair content timestamp tells nonempty
    apply decrypt_of_pair
    · rfl
    · exact nonempty
    · exact groupPair_of_tells (GroupTable.mem_records_add table record) tells
        (KeyText.respelled_iff.1 spelling).symm
  case removed => rw [perform, found]
  case gone => rw [GroupTable.isKnown, GroupTable.find?_remove _ spelling, Option.isSome_none]

end SealedPost.Messenger

/-! ## A key that begins with the mark -/

namespace SealedPost.Messenger
open Text

/-- A group whose bare key begins like a session id. -/
def early : KeyPair := KeyPair.ofSecret (Octets.ofNat 32 600)

def earlyText : String := "053795ee4df46ba07e932db33cf9129555619ba13b05ad4a1a7e211bd095f411"

def earlyRecord : GroupRecord where
  publicKey := earlyText
  privateKey := some (Hex.encode early.secret.bytes)
  members := []
  admins := []

theorem names_early : KeyText.Names earlyText early.publicKey := .inl (by decide +kernel)

theorem earlyRecord_tells : Tells earlyRecord early where
  names := names_early
  encloses := ⟨_, rfl, encloses_encode early.secret⟩

/-- The group comes under one text, gets a message under another, and goes again. -/
def earlyRun (added asked : String) (c : Bytes) : List Operation :=
  [.add { earlyRecord with publicKey := added },
    .encrypt (some (Octets.ofNat 32 3)) [104, 105] asked,
    .decrypt (.closedGroup asked c 0), .list, .remove asked, .isKnown added]

theorem earlyRun_respelled {added added' asked asked' : String}
    (hadded : KeyText.Respelled added added') (hasked : KeyText.Respelled asked asked')
    (c : Bytes) :
    List.Forall₂ Operation.Respelled (earlyRun added asked c) (earlyRun added' asked' c) :=
  .cons (.add ⟨hadded, rfl, rfl, rfl⟩) <| .cons (.encrypt _ _ hasked) <|
    .cons (.decrypt _ _ _ (.some hasked)) <| .cons .list <| .cons (.remove hasked) <|
    .cons (.isKnown hadded) .nil

theorem spelling_interchangeable_early :
    ∃ c, List.Forall₂ Answer.Alike
      [.added, .encrypted (.ok c), .decrypted (.ok ⟨[104, 105], writer.sessionId⟩),
        .listed [earlyText], .removed (some earlyRecord), .known false]
      (run (Keyring.holding writer) (earlyRun (KeyText.marked earlyText) earlyText c)
        .empty).1 := by
  have size : earlyText.utf8ByteSize = KeyText.bareSize := by decide +kernel
  have marked : KeyText.Respelled earlyText (KeyText.marked earlyText) := .marked _ size
  have agrees : Agrees writer.signing early (Octets.ofNat 32 3) [104, 105] :=
    ⟨by decide +kernel, by decide +kernel, by decide +kernel⟩
  have names : KeyText.Names (KeyText.marked earlyText) early.publicKey := by
    rw [← KeyText.decode_eq_ok_iff, ← marked.decode_eq, KeyText.decode_eq_ok_iff]
    exact names_early
  obtain ⟨c, sent, -, opens⟩ := delivered ofSeed_writer names (List.cons_ne_nil _ _) agrees
  obtain ⟨alike, particular⟩ := spelling_interchangeable (Keyring.holding writer) .empty
    (earlyRun_respelled marked (.bare _ size) c)
  obtain ⟨-, -, -, -, removed, unknown, -⟩ := particular .empty earlyRecord _ marked
  have pair : groupPair (GroupTable.empty.add earlyRecord) (some (KeyText.marked earlyText)) =
      .ok early := groupPair_of_tells (GroupTable.mem_records_add _ _) earlyRecord_tells
    (KeyText.respelled_iff.1 marked).symm
  have opened := opens (Keyring.holding writer) (GroupTable.empty.add earlyRecord)
    (.closedGroup (KeyText.marked earlyText) c 0) rfl pair
  have listed : (GroupTable.empty.add earlyRecord).publicKeys = [earlyText] := by
    simp [GroupTable.publicKeys, GroupTable.add, GroupTable.empty, earlyRecord]
  have answers : (run (Keyring.holding writer) (earlyRun earlyText (KeyText.marked earlyText) c)
      .empty).1 = [.added, .encrypted (.ok c), .decrypted (.ok ⟨[104, 105], writer.sessionId⟩),
        .listed [earlyText], .removed (some earlyRecord), .known false] := by
    have added : { earlyRecord with publicKey := earlyText } = earlyRecord := rfl
    have text : earlyRecord.publicKey = earlyText := rfl
    rw [text] at unknown
    rw [perform, Answer.removed.injEq] at removed
    simp only [earlyRun, run, perform, added, sent, opened, listed, removed, unknown]
  rw [answers] at alike
  exact ⟨c, alike⟩

end SealedPost.Messenger

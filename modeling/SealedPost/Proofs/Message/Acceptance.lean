import SealedPost.Message.Sealed
import SealedPost.Curve.Curve25519
import SealedPost.Proofs.SealedBox

/-!
# Which payloads are accepted

A payload comes from whoever could close a box, so its bytes may be any. They are taken apart from
the end, and there is one way to do it: `Payload.ofBytes?_eq_some_iff`. What the signature is made
over determines its three parts (`Payload.signedData_inj`), which binds a payload to one recipient.
`Payload.accepted_exactly` puts this together with the checks of a signature and of a box.
-/

namespace SealedPost

/-! ## What a strict verification refuses -/

namespace Signature
variable [Curve]

/-- A key under which anything verifies is a point, and not one of small order. -/
theorem decode?_of_verify {key : Octets 32} {message : Bytes} {signature : Octets 64}
    (h : verify key message signature = true) :
    ∃ point, Curve.decode? key = some point ∧ Curve.smallOrder point = false := by
  simp only [verify] at h
  split at h
  · rename_i a r ha _
    simp only [Bool.and_eq_true, Bool.not_eq_true', decide_eq_true_eq] at h
    obtain ⟨⟨⟨-, -⟩, hsmall⟩, -⟩ := h
    exact ⟨a, ha, hsmall⟩
  · cases h

end Signature

/-- The Montgomery form is refused exactly to points of small order. -/
theorem Curve.montgomery?_eq_some_iff [Curve] {encoded key : Octets 32} :
    Curve.montgomery? encoded = some key ↔ ∃ point, Curve.decode? encoded = some point ∧
      Curve.smallOrder point = false ∧ key = Curve.montgomery point := by
  unfold Curve.montgomery?
  cases Curve.decode? encoded with
  | none => simp
  | some point =>
    simp only [Option.some.injEq, exists_eq_left']
    by_cases small : Curve.smallOrder point = true
    · simp [small]
    · simp [small, eq_comm]

theorem Signature.montgomery?_of_verify [Curve] {key : Octets 32} {message : Bytes}
    {signature : Octets 64} {point : Curve.Point} (hp : Curve.decode? key = some point)
    (h : Signature.verify key message signature = true) :
    Curve.montgomery? key = some (Curve.montgomery point) := by
  obtain ⟨q, hq, hsmall⟩ := Signature.decode?_of_verify h
  obtain rfl : q = point := Option.some.inj (hq.symm.trans hp)
  exact Curve.montgomery?_eq_some_iff.2 ⟨q, hq, hsmall, rfl⟩

/-! ## Taking a payload apart -/

namespace Payload

@[simp] theorem length_toBytes (p : Payload) :
    p.toBytes.length = p.plaintext.length + overhead := by
  simp only [toBytes, List.length_append, Octets.length_bytes, overhead, Nat.add_assoc,
    Nat.reduceAdd]

theorem ofBytes?_toBytes {p : Payload} (h : p.plaintext ≠ []) : ofBytes? p.toBytes = some p := by
  have long : ¬ p.toBytes.length ≤ overhead := by
    have := List.length_pos_iff.2 h
    rw [length_toBytes]
    omega
  have hfront : p.toBytes.take (p.toBytes.length - 64) = p.plaintext ++ p.sender.bytes := by
    refine List.take_left' ?_
    simp only [length_toBytes, List.length_append, Octets.length_bytes, overhead]
    omega
  have hback : p.toBytes.drop (p.toBytes.length - 64) = p.signature.bytes := by
    refine List.drop_left' ?_
    simp only [length_toBytes, List.length_append, Octets.length_bytes, overhead]
    omega
  have hlen : (p.plaintext ++ p.sender.bytes).length - 32 = p.plaintext.length := by simp
  simp only [ofBytes?, if_neg long, hfront, hback, hlen, List.drop_left, List.take_left,
    Octets.ofBytes?_bytes, Option.bind_eq_bind, Option.bind_some, Option.pure_def]

/-- **Bytes are taken apart exactly into the parts that they are put together of**, none of
which may be an empty plaintext. -/
theorem ofBytes?_eq_some_iff {b : Bytes} {p : Payload} :
    ofBytes? b = some p ↔ b = p.toBytes ∧ p.plaintext ≠ [] := by
  constructor
  · intro h
    unfold ofBytes? at h
    split at h
    · cases h
    · rename_i long
      simp only [Option.bind_eq_bind, Option.bind_eq_some_iff, Octets.ofBytes?_eq_some_iff,
        Option.pure_def, Option.some.injEq] at h
      obtain ⟨sender, hs, signature, hg, rfl⟩ := h
      constructor
      · rw [toBytes, hs, hg, List.take_append_drop, List.take_append_drop]
      · apply List.length_pos_iff.1
        simp only [List.length_take, overhead] at long ⊢
        omega
  · rintro ⟨rfl, h⟩
    exact ofBytes?_toBytes h

theorem ofBytes?_eq_none_iff {b : Bytes} : ofBytes? b = none ↔ b.length ≤ overhead := by
  constructor
  · intro h
    by_cases long : b.length ≤ overhead
    · exact long
    · have h32 : ((b.take (b.length - 64)).drop ((b.take (b.length - 64)).length - 32)).length =
          32 := by
        simp only [List.length_drop, List.length_take, overhead] at long ⊢
        omega
      have h64 : (b.drop (b.length - 64)).length = 64 := by
        simp only [List.length_drop, overhead] at long ⊢
        omega
      simp only [ofBytes?, if_neg long, Octets.ofBytes?, dif_pos h32, dif_pos h64,
        Option.bind_eq_bind, Option.bind_some, Option.pure_def, reduceCtorEq] at h
  · intro h
    rw [ofBytes?, if_pos h]

/-- The parts of what is signed are no more than put next to each other, and still no two
choices of them give the same bytes. -/
theorem signedData_inj {plaintext plaintext' : Bytes} {sender sender' recipient recipient' : Octets 32} :
    signedData plaintext sender recipient = signedData plaintext' sender' recipient' ↔
      plaintext = plaintext' ∧ sender = sender' ∧ recipient = recipient' := by
  constructor
  · intro h
    obtain ⟨h, hr⟩ := List.append_inj' h (by simp)
    obtain ⟨hp, hs⟩ := List.append_inj' h (by simp)
    exact ⟨hp, Octets.ext hs, Octets.ext hr⟩
  · rintro ⟨rfl, rfl, rfl⟩
    rfl

/-! ## Acceptance -/

variable [Curve]

/-- A payload whose signature holds is a message: its sender is never refused afterwards. -/
theorem verify_of_signed {p : Payload} {recipient : Octets 32} {point : Curve.Point}
    (nonempty : p.plaintext ≠ []) (signed : p.isSignedFor recipient = true)
    (hpoint : Curve.decode? p.sender = some point) :
    verify recipient p.toBytes = .ok ⟨p.plaintext, KeyText.sessionId (Curve.montgomery point)⟩ := by
  simp only [verify, ofBytes?_toBytes nonempty, if_pos signed,
    Signature.montgomery?_of_verify hpoint signed]

theorem verify_of_not_signed {p : Payload} {recipient : Octets 32} (nonempty : p.plaintext ≠ [])
    (forged : p.isSignedFor recipient ≠ true) :
    verify recipient p.toBytes = .error .invalidSignature := by
  simp only [verify, ofBytes?_toBytes nonempty, if_neg forged]

theorem verify_eq_ok_iff {recipient : Octets 32} {b : Bytes} {m : Message} :
    verify recipient b = .ok m ↔
      ∃ p : Payload, b = p.toBytes ∧ p.plaintext ≠ [] ∧ p.isSignedFor recipient = true ∧
        ∃ point, Curve.decode? p.sender = some point ∧
          m = ⟨p.plaintext, KeyText.sessionId (Curve.montgomery point)⟩ := by
  constructor
  · intro h
    cases hp : ofBytes? b with
    | none => simp [verify, hp] at h
    | some p =>
      obtain ⟨rfl, nonempty⟩ := ofBytes?_eq_some_iff.1 hp
      by_cases signed : p.isSignedFor recipient = true
      · obtain ⟨point, hpoint, -⟩ := Signature.decode?_of_verify signed
        rw [verify_of_signed nonempty signed hpoint] at h
        exact ⟨p, rfl, nonempty, signed, point, hpoint, (Except.ok.inj h).symm⟩
      · rw [verify_of_not_signed nonempty signed] at h
        cases h
  · rintro ⟨p, rfl, nonempty, signed, point, hpoint, rfl⟩
    exact verify_of_signed nonempty signed hpoint

/-- What is too short for a payload is undecipherable, and nothing else is. -/
theorem verify_eq_decryptionFailed_iff {recipient : Octets 32} {b : Bytes} :
    verify recipient b = .error .decryptionFailed ↔ b.length ≤ overhead := by
  rw [← ofBytes?_eq_none_iff]
  unfold verify
  cases ofBytes? b with
  | none => simp
  | some p =>
    simp only [reduceCtorEq, iff_false]
    split
    · split <;> simp
    · simp

/-- Of what is long enough, only messages are not refused for their signature. -/
theorem verify_eq_invalidSignature {recipient : Octets 32} {b : Bytes} (long : overhead < b.length)
    (refused : ∀ m, verify recipient b ≠ .ok m) :
    verify recipient b = .error .invalidSignature := by
  cases hp : ofBytes? b with
  | none =>
    have := ofBytes?_eq_none_iff.1 hp
    omega
  | some p =>
    obtain ⟨rfl, nonempty⟩ := ofBytes?_eq_some_iff.1 hp
    by_cases signed : p.isSignedFor recipient = true
    · obtain ⟨point, hpoint, -⟩ := Signature.decode?_of_verify signed
      exact absurd (verify_of_signed nonempty signed hpoint) (refused _)
    · exact verify_of_not_signed nonempty signed

/-- Bytes are refused for their length or for their signature. -/
theorem verify_error {recipient : Octets 32} {b : Bytes} {e : MessageError}
    (h : verify recipient b = .error e) : e = .decryptionFailed ∨ e = .invalidSignature := by
  by_cases long : overhead < b.length
  · rw [verify_eq_invalidSignature long (by simp [h])] at h
    exact .inr (Except.error.inj h).symm
  · rw [verify_eq_decryptionFailed_iff.2 (Nat.not_lt.1 long)] at h
    exact .inl (Except.error.inj h).symm

/-- Bytes are never refused for being absent. -/
theorem verify_ne_noData {recipient : Octets 32} {b : Bytes} :
    verify recipient b ≠ .error .noData := by
  intro h
  by_cases long : overhead < b.length
  · rw [verify_eq_invalidSignature long (by simp [h])] at h
    cases h
  · rw [verify_eq_decryptionFailed_iff.2 (Nat.not_lt.1 long)] at h
    cases h

/-- A payload that two recipients accept carries one signature of two texts. -/
theorem verify_twice {recipient recipient' : Octets 32} {b : Bytes} {m m' : Message}
    (h : verify recipient b = .ok m) (h' : verify recipient' b = .ok m') :
    ∃ p : Payload, b = p.toBytes ∧ m.plaintext = p.plaintext ∧ p.isSignedFor recipient = true ∧
      p.isSignedFor recipient' = true := by
  obtain ⟨p, hp, nonempty, signed, point, -, rfl⟩ := verify_eq_ok_iff.1 h
  obtain ⟨q, hq, nonempty', signed', -⟩ := verify_eq_ok_iff.1 h'
  have same : some p = some q := by
    rw [← ofBytes?_toBytes nonempty, ← ofBytes?_toBytes nonempty', ← hp, hq]
  obtain rfl := Option.some.inj same
  exact ⟨p, hp, rfl, signed, signed'⟩

end Payload

/-! ## Opening -/

namespace SealedMessage
variable [Curve]

theorem unbox_eq_noData_iff {pair : KeyPair} {b : Bytes} :
    unbox pair b = .error .noData ↔ b = [] := by
  unfold unbox
  split
  · simp_all
  · split <;> simp_all

theorem unbox_error {pair : KeyPair} {b : Bytes} {e : MessageError} (nonempty : b ≠ [])
    (h : unbox pair b = .error e) : e = .decryptionFailed := by
  have hb : ¬ b.isEmpty = true := by simpa using nonempty
  rw [unbox, if_neg hb] at h
  split at h
  · cases h
  · exact (Except.error.inj h).symm

theorem unbox_eq_ok_iff {pair : KeyPair} {b payload : Bytes} :
    unbox pair b = .ok payload ↔ SealedBox.open? pair.secret b = some payload := by
  constructor
  · intro h
    unfold unbox at h
    split at h
    · cases h
    · split at h
      · rename_i opened
        exact opened.trans (congrArg some (Except.ok.inj h))
      · cases h
  · intro h
    have nonempty : b.isEmpty = false := by
      have := SealedBox.length_of_open? h
      cases b with
      | nil =>
        simp only [SealedBox.overhead, List.length_nil] at this
        omega
      | cons => rfl
    rw [unbox, nonempty, h]
    rfl

theorem decrypt_eq_ok_iff {pair : KeyPair} {b : Bytes} {m : Message} :
    decrypt pair b = .ok m ↔
      ∃ payload, unbox pair b = .ok payload ∧ Payload.verify pair.publicKey payload = .ok m := by
  unfold decrypt
  cases unbox pair b with
  | ok payload => simp
  | error e => simp

theorem decrypt_eq_noData_iff {pair : KeyPair} {b : Bytes} :
    decrypt pair b = .error .noData ↔ b = [] := by
  have opening : unbox pair b = .error .noData ↔ b = [] := unbox_eq_noData_iff
  rw [← opening]
  unfold decrypt
  cases unbox pair b with
  | ok payload =>
    simp only [reduceCtorEq, iff_false]
    exact Payload.verify_ne_noData
  | error e => simp

/-- If there is anything to open, what is in it is all that can be wrong. -/
theorem decrypt_error {pair : KeyPair} {b : Bytes} {e : MessageError} (nonempty : b ≠ [])
    (h : decrypt pair b = .error e) : e = .decryptionFailed ∨ e = .invalidSignature := by
  unfold decrypt at h
  cases opened : unbox pair b with
  | ok payload =>
    rw [opened] at h
    exact Payload.verify_error h
  | error reason =>
    rw [opened] at h
    obtain rfl := Except.error.inj h
    exact .inl (unbox_error nonempty opened)

/-- A sealed message is 144 bytes longer than what it says. -/
theorem length_of_decrypt {pair : KeyPair} {b : Bytes} {m : Message} (h : decrypt pair b = .ok m) :
    b.length = m.plaintext.length + overhead := by
  obtain ⟨payload, opened, accepted⟩ := decrypt_eq_ok_iff.1 h
  obtain ⟨p, rfl, -, -, point, -, rfl⟩ := Payload.verify_eq_ok_iff.1 accepted
  rw [SealedBox.length_of_open? (unbox_eq_ok_iff.1 opened), Payload.length_toBytes, overhead,
    Nat.add_assoc]

/-- **What is accepted, and for whom.** The bytes `b` are accepted under the key `recipient` exactly
if they are a plaintext, a signing key and a signature of both and of `recipient`; all else is
refused by its length or for its signature. The signed text determines its parts, so that bytes
which two recipients accept show one signature of two texts. A sealed message `c` that opens is
accepted under the key of the very pair that opened it. -/
theorem accepted_exactly (recipient : Octets 32) (b : Bytes) (pair : KeyPair) (c : Bytes) :
    (∀ m, Payload.verify recipient b = .ok m ↔
      ∃ (plaintext : Bytes) (sender : Octets 32) (signature : Octets 64) (point : Curve.Point),
        b = plaintext ++ sender.bytes ++ signature.bytes ∧ plaintext ≠ [] ∧
        Curve.decode? sender = some point ∧
        Signature.verify sender (plaintext ++ sender.bytes ++ recipient.bytes) signature = true ∧
        m = ⟨plaintext, "05" ++ Text.Hex.encode (Curve.montgomery point).bytes⟩) ∧
    (Payload.verify recipient b = .error .decryptionFailed ↔ b.length ≤ 96) ∧
    (Payload.verify recipient b = .error .invalidSignature ↔
      96 < b.length ∧ ∀ m, Payload.verify recipient b ≠ .ok m) ∧
    (∀ key message signature, Signature.verify key message signature = true →
      ∃ converted, Curve.montgomery? key = some converted) ∧
    (∀ plaintext plaintext' sender sender' key key',
      Payload.signedData plaintext sender key = Payload.signedData plaintext' sender' key' →
        plaintext = plaintext' ∧ sender = sender' ∧ key = key') ∧
    (∀ other m m', other ≠ recipient → Payload.verify recipient b = .ok m →
      Payload.verify other b = .ok m' →
      ∃ (sender : Octets 32) (signature : Octets 64) (text text' : Bytes),
        b = m.plaintext ++ sender.bytes ++ signature.bytes ∧ text ≠ text' ∧
        Signature.verify sender text signature = true ∧
        Signature.verify sender text' signature = true) ∧
    (decrypt pair c = .error .noData ↔ c = []) ∧
    (∀ m, decrypt pair c = .ok m →
      c.length = m.plaintext.length + 144 ∧
      ∃ payload, unbox pair c = .ok payload ∧ Payload.verify pair.publicKey payload = .ok m) := by
  refine ⟨fun m => ?_, Payload.verify_eq_decryptionFailed_iff, ?_, ?_, ?_, ?_,
    decrypt_eq_noData_iff, fun m h => ⟨length_of_decrypt h, decrypt_eq_ok_iff.1 h⟩⟩
  · rw [Payload.verify_eq_ok_iff]
    constructor
    · rintro ⟨p, hb, nonempty, signed, point, hpoint, rfl⟩
      exact ⟨p.plaintext, p.sender, p.signature, point, hb, nonempty, hpoint, signed, rfl⟩
    · rintro ⟨plaintext, sender, signature, point, hb, nonempty, hpoint, signed, rfl⟩
      exact ⟨⟨plaintext, sender, signature⟩, hb, nonempty, signed, point, hpoint, rfl⟩
  · constructor
    · intro h
      refine ⟨?_, by simp [h]⟩
      by_cases short : b.length ≤ 96
      · rw [Payload.verify_eq_decryptionFailed_iff.2 short] at h
        cases h
      · omega
    · rintro ⟨long, refused⟩
      exact Payload.verify_eq_invalidSignature long refused
  · intro key message signature h
    obtain ⟨point, hpoint, -⟩ := Signature.decode?_of_verify h
    exact ⟨_, Signature.montgomery?_of_verify hpoint h⟩
  · intro plaintext plaintext' sender sender' key key' h
    exact Payload.signedData_inj.1 h
  · intro other m m' distinct accepted accepted'
    obtain ⟨p, hb, hm, signed, signed'⟩ := Payload.verify_twice accepted accepted'
    refine ⟨p.sender, p.signature, _, _, by rw [hb, hm]; rfl, ?_, signed, signed'⟩
    intro same
    exact distinct (Payload.signedData_inj.1 same).2.2.symm

end SealedMessage

/-! ## A note on the curve itself -/

/-- Two bytes that the zero seed signs for the owner of the base coordinate. -/
def note : Payload :=
  Payload.sign (SigningKey.ofSeed (Octets.zero 32)) Curve.baseCoordinate [104, 105]

theorem SealedMessage.accepted_exactly_note :
    ∃ point, Curve.decode? note.sender = some point ∧
      Payload.verify Curve.baseCoordinate note.toBytes =
        .ok ⟨[104, 105], "05" ++ Text.Hex.encode (Curve.montgomery point).bytes⟩ := by
  have known : (Curve.decode? note.sender).isSome = true := by decide +kernel
  have signed : Signature.verify note.sender
      (note.plaintext ++ note.sender.bytes ++ Curve.baseCoordinate.bytes) note.signature = true := by
    decide +kernel
  obtain ⟨point, hpoint⟩ := Option.isSome_iff_exists.1 known
  have accepted := (SealedMessage.accepted_exactly Curve.baseCoordinate note.toBytes
    (KeyPair.ofSecret (Octets.zero 32)) []).1
  refine ⟨point, hpoint, (accepted _).2 ?_⟩
  exact ⟨_, note.sender, note.signature, point, rfl, List.cons_ne_nil _ _, hpoint, signed, rfl⟩

end SealedPost

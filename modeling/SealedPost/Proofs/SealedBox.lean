import SealedPost.SealedBox

/-!
# What a box gives back

Both boxes are invertible, whatever the key stream and the authenticator compute: a secret box opens
to a message exactly if it is the box that closing this message gives, and a sealed box opens
exactly if what stands behind some public key is such a secret box.

* `SecretBox.open?_eq_some_iff`, `SealedBox.open?_eq_some_iff` are those two equivalences.
* `SealedBox.open?_close`: the owner of a key opens what was closed for it, once both ends agree on
  the key that they share.
* `SealedBox.length_of_open?`: a box is 48 bytes longer than the message in it.
-/

namespace SealedPost

/-! ## The key stream -/

namespace Salsa20

@[simp] theorem length_bytesOf (ws : List UInt32) : (bytesOf ws).length = 4 * ws.length := by
  induction ws with
  | nil => rfl
  | cons w ws ih =>
    rw [bytesOf, List.flatMap_cons, List.length_append, LittleEndian.length_ofNat, List.length_cons]
    rw [bytesOf] at ih
    omega

@[simp] theorem length_block (key : Octets 32) (input : Octets 16) :
    (block key input).length = 64 := by
  simp [block, Table.words]

@[simp] theorem length_blocks (key : Octets 32) (nonce : Octets 8) (first count : Nat) :
    (blocks key nonce first count).length = 64 * count := by
  induction count generalizing first with
  | zero => rfl
  | succ count ih =>
    rw [blocks, List.length_append, length_block, ih]
    omega

theorem le_length_stream (key : Octets 32) (nonce : Octets 24) (size : Nat) :
    size ≤ (stream key nonce size).length := by
  rw [stream, length_blocks]
  omega

end Salsa20

/-! ## Secret boxes -/

namespace SecretBox

theorem length_mask {stream message : Bytes} (h : message.length ≤ stream.length) :
    (mask stream message).length = message.length := by
  rw [mask, List.length_zipWith]
  omega

/-- Hiding bytes twice under one stream gives them back. -/
theorem mask_mask {stream message : Bytes} (h : message.length ≤ stream.length) :
    mask stream (mask stream message) = message := by
  induction message generalizing stream with
  | nil => rfl
  | cons b rest ih =>
    cases stream with
    | nil => simp at h
    | cons k stream =>
      have hrest : mask stream (mask stream rest) = rest := ih (by simpa using h)
      have hb : b ^^^ k ^^^ k = b := by rw [UInt8.xor_assoc, UInt8.xor_self, UInt8.xor_zero]
      simp only [mask, List.zipWith_cons_cons] at hrest ⊢
      rw [hb, hrest]

theorem le_length_keys (key : Octets 32) (nonce : Octets 24) (size : Nat) :
    size ≤ (keys key nonce size).2.length := by
  have h := Salsa20.le_length_stream key nonce (32 + size)
  simp only [keys, List.length_drop]
  omega

theorem length_close (key : Octets 32) (nonce : Octets 24) (message : Bytes) :
    (close key nonce message).length = message.length + overhead := by
  have h := length_mask (le_length_keys key nonce message.length)
  simp only [close, List.length_append, Octets.length_bytes, h, overhead]
  omega

theorem open?_close (key : Octets 32) (nonce : Octets 24) (message : Bytes) :
    open? key nonce (close key nonce message) = some message := by
  have long := le_length_keys key nonce message.length
  simp only [open?, close, List.take_left', List.drop_left', Octets.length_bytes,
    Octets.ofBytes?_bytes, length_mask long, Option.bind_eq_bind, Option.bind_some, if_true,
    mask_mask long]

/-- **A secret box opens to a message exactly if it is the box of that message.** -/
theorem open?_eq_some_iff {key : Octets 32} {nonce : Octets 24} {box message : Bytes} :
    open? key nonce box = some message ↔ box = close key nonce message := by
  constructor
  · intro h
    simp only [open?, Option.bind_eq_bind, Option.bind_eq_some_iff] at h
    obtain ⟨tag, htag, h⟩ := h
    split at h
    · rename_i hauth
      obtain rfl := Option.some.inj h
      have long := le_length_keys key nonce (box.drop 16).length
      have hfront := Octets.ofBytes?_eq_some_iff.1 htag
      simp only [close, length_mask long, mask_mask long]
      rw [hauth, hfront, List.take_append_drop]
    · cases h
  · rintro rfl
    exact open?_close key nonce message

end SecretBox

/-! ## Sealed boxes -/

namespace SealedBox
variable [Curve]

theorem length_close (ephemeral recipient : Octets 32) (message : Bytes) :
    (close ephemeral recipient message).length = message.length + overhead := by
  simp only [close, List.length_append, Octets.length_bytes, SecretBox.length_close, overhead]
  omega

/-- **A sealed box opens exactly if some public key stands in front of a secret box** under the key
shared with it. -/
theorem open?_eq_some_iff {secret : Octets 32} {box message : Bytes} :
    open? secret box = some message ↔
      ∃ front : Octets 32, box = front.bytes ++
        SecretBox.close (sharedKey secret front) (nonce front (publicOf secret)) message := by
  simp only [open?, Option.bind_eq_bind, Option.bind_eq_some_iff, Octets.ofBytes?_eq_some_iff,
    SecretBox.open?_eq_some_iff]
  constructor
  · rintro ⟨front, hfront, hrest⟩
    refine ⟨front, ?_⟩
    rw [← hrest, hfront, List.take_append_drop]
  · rintro ⟨front, rfl⟩
    exact ⟨front, (List.take_left' front.length_bytes).symm, List.drop_left' front.length_bytes⟩

/-- Whoever shares the key of a box with its maker, and has the public key it was closed for,
opens it. -/
theorem open?_close {secret ephemeral recipient : Octets 32} (message : Bytes)
    (owns : publicOf secret = recipient)
    (agree : sharedKey ephemeral recipient = sharedKey secret (publicOf ephemeral)) :
    open? secret (close ephemeral recipient message) = some message := by
  refine open?_eq_some_iff.2 ⟨publicOf ephemeral, ?_⟩
  rw [close, agree, owns]

theorem length_of_open? {secret : Octets 32} {box message : Bytes}
    (h : open? secret box = some message) : box.length = message.length + overhead := by
  obtain ⟨front, rfl⟩ := open?_eq_some_iff.1 h
  simp only [List.length_append, Octets.length_bytes, SecretBox.length_close, overhead]
  omega

end SealedBox

end SealedPost

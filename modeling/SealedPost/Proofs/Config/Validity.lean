import SealedPost.Config.Basic
import SealedPost.Proofs.Text.Hex

/-!
# Which settings pass

Settings are checked one fault after the other. They pass exactly if they are `Valid`
(`ClientConfig.validate_eq_ok_iff`): there is an interval and an attempt, the relay has a web
address, and its key is missing or 64 digits.
-/

namespace SealedPost.ClientConfig
open Text

theorem validate_eq_ok_or_invalid (c : ClientConfig) :
    validate c = .ok () ∨ ∃ reason, validate c = .error (.invalid reason) := by
  unfold validate
  cases fault? c with
  | none => exact .inl rfl
  | some reason => exact .inr ⟨reason, rfl⟩

/-- What is asked of settings. -/
structure Valid (c : ClientConfig) : Prop where
  pollInterval : 0 < c.pollIntervalMs
  attempts : 0 < c.push.maxRetryCount
  url : "http://".toList <+: c.push.serverUrl.toList ∨
    "https://".toList <+: c.push.serverUrl.toList
  key : c.push.serverPublicKey = "" ∨ (c.push.serverPublicKey.length = 64 ∧
    ∀ d ∈ c.push.serverPublicKey.toList, d ∈ Hex.alphabet)

theorem isWebUrl_iff {url : String} :
    isWebUrl url = true ↔ "http://".toList <+: url.toList ∨ "https://".toList <+: url.toList := by
  rw [isWebUrl, Bool.or_eq_true, List.isPrefixOf_iff_prefix, List.isPrefixOf_iff_prefix]

/-- A key of the relay is read as 32 bytes exactly if it is 64 digits. -/
theorem decode_key_iff {s : String} : (∃ key, Hex.decode s = .ok key ∧ key.length = 32) ↔
    s.length = 64 ∧ ∀ d ∈ s.toList, d ∈ Hex.alphabet := by
  rw [← String.length_toList, ← Hex.exists_spells_iff (n := 32)]
  simp only [Hex.decode_eq_ok_iff]

/-- **Settings pass exactly if they are valid.** -/
theorem validate_eq_ok_iff {c : ClientConfig} : validate c = .ok () ↔ Valid c := by
  have passes : validate c = .ok () ↔ fault? c = none := by
    unfold validate
    cases fault? c <;> simp
  rw [passes, fault?]
  by_cases hpoll : c.pollIntervalMs = 0
  · rw [if_pos hpoll]
    refine ⟨fun h => absurd h (by simp), fun h => ?_⟩
    exact absurd h.pollInterval (by simp [hpoll])
  by_cases hretry : c.push.maxRetryCount = 0
  · rw [if_neg hpoll, if_pos hretry]
    refine ⟨fun h => absurd h (by simp), fun h => ?_⟩
    exact absurd h.attempts (by simp [hretry])
  by_cases hurl : isWebUrl c.push.serverUrl = true
  · rw [if_neg hpoll, if_neg hretry, if_neg (by simp [hurl])]
    have pollInterval : 0 < c.pollIntervalMs := by
      simpa [UInt64.pos_iff_ne_zero] using hpoll
    have attempts : 0 < c.push.maxRetryCount := by
      simpa [UInt32.pos_iff_ne_zero] using hretry
    have url := isWebUrl_iff.1 hurl
    by_cases hkey : c.push.serverPublicKey = ""
    · rw [if_pos hkey]
      exact ⟨fun _ => ⟨pollInterval, attempts, url, .inl hkey⟩, fun _ => rfl⟩
    · rw [if_neg hkey]
      have digits : Valid c ↔ ∃ key, Hex.decode c.push.serverPublicKey = .ok key ∧
          key.length = 32 := by
        rw [decode_key_iff]
        constructor
        · intro h
          exact h.key.resolve_left hkey
        · intro h
          exact ⟨pollInterval, attempts, url, .inr h⟩
      rw [digits]
      cases Hex.decode c.push.serverPublicKey with
      | error e => simp
      | ok key => by_cases h : key.length = 32 <;> simp [h]
  · rw [if_neg hpoll, if_neg hretry, if_pos (by simp [hurl])]
    refine ⟨fun h => absurd h (by simp), fun h => ?_⟩
    exact absurd (isWebUrl_iff.2 h.url) hurl

end SealedPost.ClientConfig

import Mathlib.Algebra.Ring.Int.Defs
import Mathlib.Algebra.Ring.Nat
import SealedPost.Proofs.Config.Validity
import SealedPost.Proofs.Relay.Requests
import SealedPost.Proofs.Relay.Skipping

/-!
# How long a token lasts

Settings give the lifetime of a token as a number of seconds that may be any of 64 bits. In
milliseconds it may need more of them, and then only the low ones count (`lifetime_eq`). The age of
a token is kept within 64 bits too, but that never shows (`age_lt_lifetime_iff`). So what is skipped
is always younger than its lifetime, and all that is younger is skipped exactly if the lifetime
fits: `skips_young_iff`.
-/

namespace SealedPost.Relay

/-! ## Ages -/

/-- An age that leaves 64 bits is beyond every lifetime, and no time since the epoch leaves them at
their lower end. -/
theorem age_lt_lifetime_iff {config : PushConfig} {now last : Int64} (since : 0 ≤ now.toInt) :
    age now last < lifetime config ↔ now.toInt - last.toInt < lifetime config := by
  have := lifetime_lt config
  have := last.toInt_lt
  unfold age
  rw [Int64.toInt_maxValue, Int64.toInt_minValue]
  omega

/-! ## Skipping -/

section
variable {relay : Conduct} {config : PushConfig} {groups : List String} {now : Int64}
  {token publicKey : String} {force : Bool} {state : PushState} {log : Transcript}

variable (relay config groups now token publicKey force state log) in
/-- A registration that is skipped: nothing is sent, and nothing changes. -/
def Skips : Prop :=
  (register (carryTo relay) config groups now token publicKey force state).run log =
    ((.skipped, state), log)

theorem skips_of_fresh (fresh : (!force && isFresh config now state token) = true) :
    Skips relay config groups now token publicKey force state log :=
  register_run_of_fresh fresh relay groups publicKey log

/-- What is not skipped is sent, and does not say that it was skipped. -/
theorem sends_of_stale (stale : (!force && isFresh config now state token) = false) :
    let run := (register (carryTo relay) config groups now token publicKey force state).run log
    run.1.1 ≠ .skipped ∧ run.2 ≠ log := by
  have asked := (isBlock_block config relay .register (registerBody token publicKey) log).ne_nil
  rw [register_run stale]
  exact ⟨verdict_ne_skipped _, by simp [asked]⟩

/-- The status of a registration tells whether it was skipped. -/
theorem skips_iff_status : Skips relay config groups now token publicKey force state log ↔
    ((register (carryTo relay) config groups now token publicKey force state).run log).1.1 =
      .skipped := by
  refine ⟨fun skips => by rw [skips], fun skipped => ?_⟩
  cases fresh : !force && isFresh config now state token with
  | true => exact skips_of_fresh fresh
  | false => exact absurd skipped (sends_of_stale fresh).1

/-- So does what the relay was asked. -/
theorem skips_iff_silent : Skips relay config groups now token publicKey force state log ↔
    ((register (carryTo relay) config groups now token publicKey force state).run log).2 =
      log := by
  refine ⟨fun skips => by rw [skips], fun silent => ?_⟩
  cases fresh : !force && isFresh config now state token with
  | true => exact skips_of_fresh fresh
  | false => exact absurd silent (sends_of_stale fresh).2

theorem skips_iff_fresh : Skips relay config groups now token publicKey force state log ↔
    force = false ∧ isFresh config now state token = true := by
  rw [← Bool.not_eq_true', ← Bool.and_eq_true]
  refine ⟨fun skips => ?_, skips_of_fresh⟩
  by_contra stale
  exact (sends_of_stale (Bool.not_eq_true _ ▸ stale)).2 (skips_iff_silent.1 skips)

theorem skips_iff_lt_lifetime (since : 0 ≤ now.toInt) :
    Skips relay config groups now token publicKey force state log ↔
      force = false ∧ state.token = some token ∧
        now.toInt - state.lastUpload.toInt < lifetime config := by
  have fresh : isFresh config now state token = true ↔ state.token = some token ∧
      now.toInt - state.lastUpload.toInt < lifetime config := by
    rw [isFresh, Bool.and_eq_true, decide_eq_true_eq, decide_eq_true_eq, age_lt_lifetime_iff since]
  rw [skips_iff_fresh, fresh]

end

/-- A lifetime that does not fit is over before its time. -/
theorem exists_over {config : PushConfig} (long : 2 ^ 63 ≤ fullLifetime config) :
    ∃ now : Int64, 0 ≤ now.toInt ∧ lifetime config ≤ now.toInt ∧
      now.toInt < fullLifetime config := by
  have bound := lifetime_lt config
  have held : (Int64.ofInt (max 0 (lifetime config))).toInt = max 0 (lifetime config) :=
    Int64.toInt_ofInt_of_le (by omega) (by omega)
  refine ⟨Int64.ofInt (max 0 (lifetime config)), ?_, ?_, ?_⟩ <;> omega

/-- **A registration is skipped while its token is young.** It is skipped, and then sends nothing,
exactly if it is not forced, the token is the one that is remembered, and its age is less than the
lifetime as far as 64 bits hold that; so never when the token has reached its lifetime. Exactly
where the lifetime fits, this is the lifetime that the settings ask for, at all times and for all
that can be remembered. -/
theorem skips_young_iff (relay : Conduct) (config : PushConfig) (groups : List String)
    (token publicKey : String) (log : Transcript) :
    (∀ now force state,
      let run := (register (carryTo relay) config groups now token publicKey force state).run log
      let skips := Skips relay config groups now token publicKey force state log
      (skips ↔ run.1.1 = .skipped) ∧ (skips ↔ run.2 = log) ∧
      (0 ≤ now.toInt →
        (skips ↔ force = false ∧ state.token = some token ∧
          now.toInt - state.lastUpload.toInt < (fullLifetime config).bmod (2 ^ 64)) ∧
        (skips → now.toInt - state.lastUpload.toInt < fullLifetime config))) ∧
    ((∀ now force state, 0 ≤ now.toInt →
      (Skips relay config groups now token publicKey force state log ↔
        force = false ∧ state.token = some token ∧
          now.toInt - state.lastUpload.toInt < fullLifetime config)) ↔
      fullLifetime config < 2 ^ 63) := by
  refine ⟨fun now force state => ⟨skips_iff_status, skips_iff_silent, fun since => ⟨?_, ?_⟩⟩, ?_⟩
  · rw [skips_iff_lt_lifetime since, lifetime_eq]
  · intro skips
    obtain ⟨-, -, young⟩ := (skips_iff_lt_lifetime since).1 skips
    exact Int.lt_of_lt_of_le young (lifetime_le_fullLifetime config)
  constructor
  · intro exact_at
    by_contra long
    -- A token that was registered at time zero is sent again although it is young.
    obtain ⟨now, since, expired, young⟩ := exists_over (Int.not_lt.1 long)
    let state : PushState := { PushState.empty with token := some token }
    have unsent : now.toInt - state.lastUpload.toInt = now.toInt := Int.sub_zero _
    have skips := (exact_at now false state since).2 ⟨rfl, rfl, by rwa [unsent]⟩
    obtain ⟨-, -, early⟩ := (skips_iff_lt_lifetime since).1 skips
    rw [unsent] at early
    exact absurd early (Int.not_lt.2 expired)
  · intro fits now force state since
    rw [skips_iff_lt_lifetime since, lifetime_eq_fullLifetime fits]

/-! ## The longest lifetimes -/

/-- The usual settings, but for how many seconds a token lasts. -/
def lasting (seconds : UInt64) : PushConfig :=
  { PushConfig.default with tokenExpirationSecs := seconds }

/-- What is remembered of a token that was registered then. -/
def registeredAt (start : Int64) : PushState :=
  { PushState.empty with token := some "t", lastUpload := start }

/-- The longest lifetime that fits, at the last time there is: a token is young to the very
millisecond, and one from before the epoch is not. -/
theorem skips_young_iff_longest :
    fullLifetime (lasting 9223372036854775) < 2 ^ 63 ∧
      Skips (fun _ _ => coded 0) (lasting 9223372036854775) ["g"] Int64.maxValue "t" "k" false
        (registeredAt 808) [] ∧
      ¬Skips (fun _ _ => coded 0) (lasting 9223372036854775) ["g"] Int64.maxValue "t" "k" false
        (registeredAt 807) [] ∧
      ¬Skips (fun _ _ => coded 0) (lasting 9223372036854775) ["g"] Int64.maxValue "t" "k" false
        (registeredAt Int64.minValue) [] := by
  have fits : fullLifetime (lasting 9223372036854775) < 2 ^ 63 := by decide
  have young := (skips_young_iff (fun _ _ => coded 0) (lasting 9223372036854775) ["g"] "t" "k"
    []).2.2 fits
  have since : 0 ≤ Int64.maxValue.toInt := by decide
  refine ⟨fits, ?_, ?_, ?_⟩
  · exact (young _ _ _ since).2 ⟨rfl, rfl, by decide⟩
  · exact fun skips => absurd ((young _ _ _ since).1 skips).2.2 (by decide)
  · exact fun skips => absurd ((young _ _ _ since).1 skips).2.2 (by decide)

/-- **A lifetime that does not fit is none at all**: under valid settings, a token that was
registered a minute ago and lasts for ages is registered again. -/
theorem sent_again_when_young :
    let config := lasting 9223372036854775807
    let run := (register (carryTo fun _ _ => coded 0) config [] 60000 "t" "k" false
      (registeredAt 0)).run []
    ClientConfig.validate { ClientConfig.default with push := config } = .ok () ∧
      (60000 : Int64).toInt - (registeredAt 0).lastUpload.toInt < fullLifetime config ∧
      run.1.1 = .succeeded ∧ run.2.length = 1 := by
  decide +kernel

end SealedPost.Relay

import Mathlib.Data.List.Induction
import SealedPost.Proofs.Relay.History

/-!
# Registrations that are skipped

A registration is skipped on account of the token and the time that the last confirmed registration
left behind (`skipped_iff_registered_last`). An unregistration leaves both in place and only clears
the flag, so a token is skipped after it as it was before it (`skipped_after_unregister`). What is
skipped is always younger than its lifetime; all that is younger is skipped as long as the lifetime
fits 64 bits.
-/

namespace SealedPost.Relay

/-! ## The last confirmed registration -/

/-- The token that a confirmation is about, and when its registration began. -/
def Confirmation.registration? : Confirmation → Option (String × Int64)
  | .registered token start => some (token, start)
  | .unregistered => none

/-- The registration that was confirmed last, whatever was confirmed after it. -/
def lastRegistration (confirmed : List Confirmation) : Option (String × Int64) :=
  confirmed.reverse.findSome? Confirmation.registration?

theorem lastRegistration_concat (confirmed : List Confirmation) (last : Confirmation) :
    lastRegistration (confirmed ++ [last]) =
      last.registration?.or (lastRegistration confirmed) := by
  simp only [lastRegistration, List.reverse_append, List.reverse_singleton, List.singleton_append,
    List.findSome?_cons]
  cases last.registration? <;> rfl

/-- The token that is remembered, and when its registration began. -/
def registration? (state : PushState) : Option (String × Int64) :=
  state.token.map (·, state.lastUpload)

theorem isFresh_iff {config : PushConfig} {now : Int64} {state : PushState} {token : String} :
    isFresh config now state token = true ↔
      ∃ start, registration? state = some (token, start) ∧ age now start < lifetime config := by
  simp only [isFresh, registration?, Bool.and_eq_true, decide_eq_true_eq, Option.map_eq_some_iff,
    Prod.mk.injEq]
  constructor
  · rintro ⟨known, young⟩
    exact ⟨_, ⟨token, known, rfl, rfl⟩, young⟩
  · rintro ⟨_, ⟨_, known, rfl, rfl⟩, young⟩
    exact ⟨known, young⟩

/-- What is remembered of a registration is the one that was confirmed last. -/
theorem registration?_remembered (state : PushState) (unknown : state.token = none)
    (confirmed : List Confirmation) :
    registration? (confirmed.foldl remember state) = lastRegistration confirmed := by
  induction confirmed using List.reverseRecOn with
  | nil => rw [registration?, List.foldl_nil, unknown]; rfl
  | append_singleton confirmed last ih =>
    rw [List.foldl_concat, lastRegistration_concat]
    cases last with
    | registered token start => rfl
    | unregistered => exact ih

/-- The flag is set exactly if the last confirmation was of a registration. -/
theorem enabled_remembered (state : PushState) (off : state.enabled = false)
    (confirmed : List Confirmation) :
    (confirmed.foldl remember state).enabled = true ↔
      ∃ token start, confirmed.getLast? = some (.registered token start) := by
  induction confirmed using List.reverseRecOn with
  | nil => simp [off]
  | append_singleton confirmed last ih =>
    rw [List.foldl_concat, List.getLast?_concat]
    cases last <;> simp [remember]

theorem registration_of_getLast? {confirmed : List Confirmation} {token : String} {start : Int64}
    (h : confirmed.getLast? = some (.registered token start)) :
    lastRegistration confirmed = some (token, start) := by
  obtain ⟨before, rfl⟩ := List.getLast?_eq_some_iff.1 h
  rw [lastRegistration_concat]
  rfl

/-! ## Lifetimes -/

/-- The lifetime of a token that the settings ask for, in milliseconds. -/
def fullLifetime (config : PushConfig) : Int := config.tokenExpirationSecs.toNat * 1000

/-- Only the low bits of a lifetime count, the highest of them as its sign. -/
theorem lifetime_eq (config : PushConfig) :
    lifetime config = (fullLifetime config).bmod (2 ^ 64) :=
  Int64.toInt_ofInt

theorem lifetime_lt (config : PushConfig) : lifetime config < 2 ^ 63 := Int64.toInt_lt _

theorem fullLifetime_nonneg (config : PushConfig) : 0 ≤ fullLifetime config := by
  unfold fullLifetime
  omega

theorem lifetime_le_fullLifetime (config : PushConfig) :
    lifetime config ≤ fullLifetime config := by
  have nonneg := fullLifetime_nonneg config
  rw [lifetime_eq, Int.bmod_def]
  split <;> omega

theorem lifetime_eq_fullLifetime {config : PushConfig} (fits : fullLifetime config < 2 ^ 63) :
    lifetime config = fullLifetime config := by
  have nonneg := fullLifetime_nonneg config
  rw [lifetime_eq, Int.bmod_eq_of_le] <;> omega

/-- What is young by its age as far as 64 bits hold it is young. -/
theorem young_of_age {config : PushConfig} {now start : Int64}
    (young : age now start < lifetime config) :
    now.toInt - start.toInt < fullLifetime config := by
  have le := lifetime_le_fullLifetime config
  have lt := lifetime_lt config
  unfold age at young
  rw [Int64.toInt_maxValue, Int64.toInt_minValue] at young
  omega

/-- Where the lifetime fits that is all that is young. -/
theorem age_lt_lifetime_of_fits {config : PushConfig} (fits : fullLifetime config < 2 ^ 63)
    {now start : Int64} (young : now.toInt - start.toInt < fullLifetime config) :
    age now start < lifetime config := by
  have nonneg := fullLifetime_nonneg config
  rw [lifetime_eq_fullLifetime fits]
  unfold age
  rw [Int64.toInt_maxValue, Int64.toInt_minValue]
  omega

/-! ## When a registration is skipped -/

theorem Entry.Lawful.skipped_iff {relay : Conduct} {config : PushConfig} {e : Entry}
    {groups : List String} {now : Int64} {token publicKey : String} {force : Bool}
    (lawful : e.Lawful relay config)
    (called : e.call = .register groups now token publicKey force) :
    e.status = .skipped ↔ force = false ∧ isFresh config now e.before token = true := by
  rw [← Bool.not_eq_true', ← Bool.and_eq_true]
  simp only [Lawful, called] at lawful
  split at lawful
  case isTrue fresh => exact iff_of_true lawful.1 fresh
  case isFalse stale => exact iff_of_false lawful.1.ne_skipped stale

/-- **When a registration is skipped.** From empty preferences on, what is skipped is not forced, the
registration that was confirmed last was of the same token, and that began less than the lifetime of
a token ago; an unregistration that was confirmed since makes no difference. If the lifetime fits 64
bits all of that is skipped. Only the flag tells of an unregistration: whenever a registration is
skipped, the flag is set exactly if what was confirmed last of all is a registration of that
token. -/
theorem skipped_iff_registered_last {relay : Conduct} {config : PushConfig} {calls : List Call}
    {sessionId : Option String} {log : Transcript} {earlier later : List Entry} {e : Entry}
    {groups : List String} {now : Int64} {token publicKey : String} {force : Bool}
    (h : history relay config calls { PushState.empty with sessionId := sessionId } log =
      earlier ++ e :: later)
    (called : e.call = .register groups now token publicKey force) :
    (e.status = .skipped → force = false ∧
      ∃ start, lastRegistration (confirmations earlier) = some (token, start) ∧
        now.toInt - start.toInt < fullLifetime config) ∧
    (fullLifetime config < 2 ^ 63 → (e.status = .skipped ↔ force = false ∧
      ∃ start, lastRegistration (confirmations earlier) = some (token, start) ∧
        now.toInt - start.toInt < fullLifetime config)) ∧
    (e.status = .skipped → (e.after.enabled = true ↔
      ∃ start, (confirmations earlier).getLast? = some (.registered token start))) := by
  have lawful := lawful_of_history h
  have known := registration?_remembered { PushState.empty with sessionId } rfl
    (confirmations earlier)
  have flag := enabled_remembered { PushState.empty with sessionId } rfl (confirmations earlier)
  rw [← before_eq_remembered h] at known flag
  have skipped := lawful.skipped_iff called
  rw [isFresh_iff, known] at skipped
  have young : e.status = .skipped → force = false ∧
      ∃ start, lastRegistration (confirmations earlier) = some (token, start) ∧
        now.toInt - start.toInt < fullLifetime config := by
    intro skip
    obtain ⟨unforced, start, last, fresh⟩ := skipped.1 skip
    exact ⟨unforced, start, last, young_of_age fresh⟩
  refine ⟨young, fun fits => ⟨young, ?_⟩, fun skip => ?_⟩
  · rintro ⟨unforced, start, last, fresh⟩
    exact skipped.2 ⟨unforced, start, last, age_lt_lifetime_of_fits fits fresh⟩
  obtain ⟨-, start, last, -⟩ := skipped.1 skip
  have unchanged : e.after = e.before := by
    rw [lawful.after_eq, Entry.confirmation?_of_ne (by rw [skip]; decide)]
    rfl
  rw [unchanged, flag]
  constructor
  · -- The last confirmation, being a registration, is the last registration.
    rintro ⟨other, begun, confirmed⟩
    have same := (registration_of_getLast? confirmed).symm.trans last
    obtain ⟨rfl, rfl⟩ := Prod.mk.inj (Option.some.inj same)
    exact ⟨_, confirmed⟩
  · rintro ⟨begun, confirmed⟩
    exact ⟨token, begun, confirmed⟩

/-! ## Registered, unregistered, registered again -/

/-- Under the usual settings, with a relay that confirms everything. -/
def confirmedRun (calls : List Call) : List Entry :=
  history (fun _ _ => coded 0) .default calls .empty []

/-- A token that was unregistered, registered again by force, and is then not registered a third
time. -/
def comeback : List Call :=
  [.register [] 1000 "t" "k" false, .unregister [] "t", .register [] 2000 "t" "k" true,
    .register [] 3000 "t" "k" false]

theorem comeback_ne_nil : confirmedRun comeback ≠ [] :=
  List.ne_nil_of_length_pos (by decide +kernel)

theorem skipped_iff_registered_last_comeback :
    ∃ earlier e, confirmedRun comeback = earlier ++ [e] ∧
      e.call = .register [] 3000 "t" "k" false ∧
      lastRegistration (confirmations earlier) = some ("t", 2000) ∧
      e.status = .skipped ∧ e.after.enabled = true := by
  have split := (List.dropLast_append_getLast comeback_ne_nil).symm
  have called : ((confirmedRun comeback).getLast comeback_ne_nil).call =
      .register [] 3000 "t" "k" false := by decide +kernel
  have confirmed : confirmations (confirmedRun comeback).dropLast =
      [.registered "t" 1000, .unregistered, .registered "t" 2000] := by decide +kernel
  obtain ⟨-, skipped, enabled⟩ := skipped_iff_registered_last split called
  rw [confirmed] at skipped enabled
  have skip := (skipped (by decide)).2 ⟨rfl, 2000, rfl, by decide⟩
  exact ⟨_, _, split, called, by rw [confirmed]; rfl, skip, (enabled skip).2 ⟨2000, rfl⟩⟩

/-- **A token is skipped right after it was unregistered**, and notifications stay off. -/
theorem skipped_after_unregister :
    let run := confirmedRun [.register [] 1000 "t" "k" false, .unregister [] "t",
      .register [] 2000 "t" "k" false]
    run.map (fun e => (e.status, e.after.enabled)) =
        [(.succeeded, true), (.succeeded, false), (.skipped, false)] ∧
      confirmations run = [.registered "t" 1000, .unregistered] := by
  decide +kernel

end SealedPost.Relay

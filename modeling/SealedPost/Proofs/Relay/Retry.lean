import Mathlib.Data.ENat.Lattice
import SealedPost.Relay.Registration

/-!
# How often an operation is tried

The attempts are numbered with 32 bits, up to a limit of as many. Counting down the attempts that
are left gives the same loop (`retry_eq`), and so does a counter that refuses to wrap
(`checked_eq`): the width of the counter never shows. What is left is a recursion on a number, and
`tries_until_success` says where it ends for any outcomes of the single attempts.
-/

namespace SealedPost.Relay

section
variable {m : Type → Type} [Monad m] {ε α : Type}

/-- An attempt, and as long as they fail `more` further ones. -/
def tryAgain (operation : m (Except ε α)) : (more : Nat) → m (Except ε α)
  | 0 => operation
  | more + 1 => do
    match ← operation with
    | .ok value => return .ok value
    | .error _ => tryAgain operation more

/-- The attempts after number `attempt`, of at most `limit`, with a counter that goes up before each
of them and refuses to wrap: `none` where it would. -/
def checkedFrom (limit : UInt32) (operation : m (Except ε α)) (attempt : UInt32) :
    m (Option (Except ε α)) :=
  if attempt.toNat + 1 < UInt32.size then do
    match ← operation with
    | .ok value => return some (.ok value)
    | .error e =>
      if attempt + 1 < limit then checkedFrom limit operation (attempt + 1)
      else return some (.error e)
  else return none
termination_by UInt32.size - attempt.toNat
decreasing_by
  rename_i room _
  rw [UInt32.toNat_add, UInt32.toNat_one, Nat.mod_eq_of_lt room]
  omega

/-- How often an operation is tried at most. -/
def mostAttempts (maxAttempts : UInt32) : UInt32 := if maxAttempts = 0 then 1 else maxAttempts

/-- The retry with a counter that refuses to wrap. -/
def checked (maxAttempts : UInt32) (operation : m (Except ε α)) : m (Option (Except ε α)) :=
  checkedFrom (mostAttempts maxAttempts) operation 0

theorem toNat_mostAttempts (maxAttempts : UInt32) :
    (mostAttempts maxAttempts).toNat = max 1 maxAttempts.toNat := by
  unfold mostAttempts
  split
  · rename_i zero
    rw [zero]
    rfl
  · rename_i positive
    have : maxAttempts.toNat ≠ 0 := fun zero => positive (UInt32.toNat_inj.1 zero)
    omega

/-- Below a limit there is always room for one more. -/
theorem toNat_succ_of_lt {attempt limit : UInt32} (h : attempt < limit) :
    (attempt + 1).toNat = attempt.toNat + 1 := by
  have below := UInt32.lt_iff_toNat_lt.1 h
  have := limit.toNat_lt
  rw [UInt32.toNat_add, UInt32.toNat_one, Nat.mod_eq_of_lt]
  omega

variable [LawfulMonad m]

/-- Counting up to the limit is counting down what is left of it. -/
theorem retryFrom_eq (operation : m (Except ε α)) {limit attempt : UInt32} {more : Nat}
    (h : attempt.toNat + more = limit.toNat) :
    retryFrom limit operation attempt = tryAgain operation more := by
  induction more generalizing attempt with
  | zero =>
    have done : ¬attempt < limit := by
      rw [UInt32.lt_iff_toNat_lt]
      omega
    conv_rhs => rw [tryAgain, ← bind_pure operation]
    rw [retryFrom]
    refine bind_congr fun outcome => ?_
    cases outcome with
    | ok value => rfl
    | error e => exact if_neg done
  | succ more ih =>
    have again : attempt < limit := by
      rw [UInt32.lt_iff_toNat_lt]
      omega
    have next : (attempt + 1).toNat + more = limit.toNat := by
      rw [toNat_succ_of_lt again]
      omega
    rw [retryFrom, tryAgain]
    refine bind_congr fun outcome => ?_
    cases outcome with
    | ok value => rfl
    | error e => exact (if_pos again).trans (ih next)

/-- **The width of the counter makes no difference.** -/
theorem retry_eq (maxAttempts : UInt32) (operation : m (Except ε α)) :
    retry maxAttempts operation = tryAgain operation (max 1 maxAttempts.toNat - 1) := by
  have counted : (1 : UInt32).toNat + (max 1 maxAttempts.toNat - 1) =
      (mostAttempts maxAttempts).toNat := by
    rw [toNat_mostAttempts, UInt32.toNat_one]
    omega
  exact retryFrom_eq operation counted

theorem checkedFrom_eq (operation : m (Except ε α)) {limit attempt : UInt32} {more : Nat}
    (h : attempt.toNat + 1 + more = limit.toNat) :
    checkedFrom limit operation attempt = some <$> tryAgain operation more := by
  have below : attempt < limit := by
    rw [UInt32.lt_iff_toNat_lt]
    omega
  have room : attempt.toNat + 1 < UInt32.size := by
    rw [← toNat_succ_of_lt below]
    exact UInt32.toNat_lt_size _
  induction more generalizing attempt with
  | zero =>
    have done : ¬attempt + 1 < limit := by
      rw [UInt32.lt_iff_toNat_lt, toNat_succ_of_lt below]
      omega
    rw [checkedFrom, if_pos room, tryAgain, map_eq_pure_bind]
    refine bind_congr fun outcome => ?_
    cases outcome with
    | ok value => rfl
    | error e => exact if_neg done
  | succ more ih =>
    have again : attempt + 1 < limit := by
      rw [UInt32.lt_iff_toNat_lt, toNat_succ_of_lt below]
      omega
    have next : (attempt + 1).toNat + 1 + more = limit.toNat := by
      rw [toNat_succ_of_lt below]
      omega
    have more_room : (attempt + 1).toNat + 1 < UInt32.size := by
      rw [← toNat_succ_of_lt again]
      exact UInt32.toNat_lt_size _
    rw [checkedFrom, if_pos room, tryAgain, map_bind]
    refine bind_congr fun outcome => ?_
    cases outcome with
    | ok value => exact (map_pure some _).symm
    | error e => exact (if_pos again).trans (ih next again more_room)

/-- **The counter never wraps.** -/
theorem checked_eq (maxAttempts : UInt32) (operation : m (Except ε α)) :
    checked maxAttempts operation = some <$> retry maxAttempts operation := by
  rw [retry_eq, checked]
  refine checkedFrom_eq operation ?_
  rw [toNat_mostAttempts, UInt32.toNat_zero]
  omega

end

/-! ## Outcomes of the single attempts -/

variable {ε α : Type}

/-- An operation whose attempt number `i`, counted from one, has the outcome `outcomes i`. The
attempts that were made are counted. -/
def attempt (outcomes : Nat → Except ε α) : StateM Nat (Except ε α) := do
  let made ← get
  set (made + 1)
  return outcomes (made + 1)

/-- The number of the first attempt that succeeds, infinite if none ever does. -/
noncomputable def firstSuccess (outcomes : Nat → Except ε α) : ℕ∞ :=
  ⨅ i ∈ {i : Nat | 1 ≤ i ∧ (outcomes i).isOk}, (i : ℕ∞)

theorem attempt_run (outcomes : Nat → Except ε α) (made : Nat) :
    (attempt outcomes).run made = (outcomes (made + 1), made + 1) :=
  rfl

theorem tryAgain_run_of_ok {outcomes : Nat → Except ε α} {made : Nat} {value : α}
    (h : outcomes (made + 1) = .ok value) (more : Nat) :
    (tryAgain (attempt outcomes) more).run made = (outcomes (made + 1), made + 1) := by
  cases more with
  | zero => exact attempt_run outcomes made
  | succ more =>
    rw [tryAgain, StateT.run_bind, attempt_run, h]
    rfl

theorem tryAgain_run_of_error {outcomes : Nat → Except ε α} {made : Nat} {e : ε}
    (h : outcomes (made + 1) = .error e) (more : Nat) :
    (tryAgain (attempt outcomes) (more + 1)).run made =
      (tryAgain (attempt outcomes) more).run (made + 1) := by
  rw [tryAgain, StateT.run_bind, attempt_run, h]
  rfl

theorem le_firstSuccess_iff {outcomes : Nat → Except ε α} {n : Nat} :
    (n : ℕ∞) ≤ firstSuccess outcomes ↔ ∀ i, 1 ≤ i → i < n → ¬(outcomes i).isOk := by
  simp only [firstSuccess, le_iInf_iff, Set.mem_ofPred_eq, Nat.cast_le]
  constructor
  · intro h i positive below succeeds
    exact absurd (h i ⟨positive, succeeds⟩) (Nat.not_le.2 below)
  · rintro h i ⟨positive, succeeds⟩
    exact Nat.not_lt.1 fun below => h i positive below succeeds

theorem firstSuccess_le {outcomes : Nat → Except ε α} {i : Nat} (positive : 1 ≤ i)
    (succeeds : (outcomes i).isOk) : firstSuccess outcomes ≤ i :=
  iInf₂_le i ⟨positive, succeeds⟩

/-- Where attempts may stop, with at most `most` of them: at the first success or the last one. -/
structure Stops (outcomes : Nat → Except ε α) (most calls : Nat) : Prop where
  positive : 1 ≤ calls
  le : calls ≤ most
  failed : ∀ i, 1 ≤ i → i < calls → ¬(outcomes i).isOk
  last : (outcomes calls).isOk ∨ calls = most

theorem Stops.eq_min {outcomes : Nat → Except ε α} {most calls : Nat}
    (h : Stops outcomes most calls) : (calls : ℕ∞) = min (firstSuccess outcomes) most := by
  have reached : (calls : ℕ∞) ≤ firstSuccess outcomes := le_firstSuccess_iff.2 h.failed
  have within : (calls : ℕ∞) ≤ most := Nat.cast_le.2 h.le
  refine le_antisymm (le_min reached within) ?_
  rcases h.last with succeeds | rfl
  · exact (min_le_left _ _).trans (firstSuccess_le h.positive succeeds)
  · exact min_le_right _ _

theorem Stops.isOk_iff {outcomes : Nat → Except ε α} {most calls : Nat}
    (h : Stops outcomes most calls) : (outcomes calls).isOk ↔ firstSuccess outcomes ≤ most := by
  constructor
  · intro succeeds
    exact (firstSuccess_le h.positive succeeds).trans (Nat.cast_le.2 h.le)
  · intro intime
    by_contra fails
    -- Only the last attempt may fail and not be repeated, and then none succeeds up to it.
    obtain rfl := h.last.resolve_left fails
    have later : ((calls + 1 : Nat) : ℕ∞) ≤ firstSuccess outcomes := by
      refine le_firstSuccess_iff.2 fun i positive below => ?_
      rcases Nat.lt_succ_iff_lt_or_eq.1 below with earlier | rfl
      · exact h.failed i positive earlier
      · exact fails
    exact absurd (Nat.cast_le.1 (later.trans intime)) (Nat.not_succ_le_self calls)

/-- Attempts that have failed so far go on to where they stop. -/
theorem tryAgain_run {outcomes : Nat → Except ε α} (more : Nat) {made : Nat}
    (failed : ∀ i, 1 ≤ i → i < made + 1 → ¬(outcomes i).isOk) :
    ∃ calls, (tryAgain (attempt outcomes) more).run made = (outcomes calls, calls) ∧
      Stops outcomes (made + 1 + more) calls := by
  induction more generalizing made with
  | zero =>
    have stops : Stops outcomes (made + 1) (made + 1) :=
      ⟨Nat.le_add_left 1 made, le_rfl, failed, .inr rfl⟩
    exact ⟨made + 1, attempt_run outcomes made, stops⟩
  | succ more ih =>
    cases h : outcomes (made + 1) with
    | ok value =>
      refine ⟨made + 1, tryAgain_run_of_ok h _, Nat.le_add_left 1 made, by omega, failed, .inl ?_⟩
      rw [h]
      rfl
    | error e =>
      have failed' : ∀ i, 1 ≤ i → i < made + 1 + 1 → ¬(outcomes i).isOk := by
        intro i positive below
        rcases Nat.lt_succ_iff_lt_or_eq.1 below with earlier | rfl
        · exact failed i positive earlier
        · rw [h]
          nofun
      obtain ⟨calls, run, stops⟩ := ih failed'
      refine ⟨calls, (tryAgain_run_of_error h more).trans run, ?_⟩
      rwa [show made + 1 + (more + 1) = made + 1 + 1 + more by omega]

/-- **An operation is tried until its first success, and at most as often as it may be.** It may
be tried at least once. The number of attempts made is the smaller of what it may be and of the
number of the first success, and the outcome is that of the last attempt made: a success exactly if
the first one came in time. With a counter that refuses to wrap it is the same. -/
theorem tries_until_success (maxAttempts : UInt32) (outcomes : Nat → Except ε α) :
    ∃ made : Nat, (made : ℕ∞) = min (firstSuccess outcomes) (max 1 maxAttempts.toNat : Nat) ∧
      (retry maxAttempts (attempt outcomes)).run 0 = (outcomes made, made) ∧
      ((outcomes made).isOk ↔ firstSuccess outcomes ≤ (max 1 maxAttempts.toNat : Nat)) ∧
      (checked maxAttempts (attempt outcomes)).run 0 = (some (outcomes made), made) := by
  have none_yet : ∀ i, 1 ≤ i → i < 0 + 1 → ¬(outcomes i).isOk := by
    intro i positive below
    omega
  obtain ⟨made, run, stops⟩ := tryAgain_run (max 1 maxAttempts.toNat - 1) none_yet
  have limit : 0 + 1 + (max 1 maxAttempts.toNat - 1) = max 1 maxAttempts.toNat := by omega
  rw [limit] at stops
  rw [← retry_eq] at run
  refine ⟨made, stops.eq_min, run, stops.isOk_iff, ?_⟩
  rw [checked_eq, StateT.run_map, run]
  rfl

end SealedPost.Relay

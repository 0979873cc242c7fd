import SealedPost.Proofs.Poller.Run

/-!
# The flag and the timer

Three operations set or clear the flag, and only two of them touch the timer; a single call clears
it at its end without knowing whose flag it is by then. `flag_follows_timer` is what holds all the
same, of every run of a poller whose timers have a period: an installed timer means a set flag, a
set flag means an installed timer or a single call on its way, and the timer that is installed is
the only one that runs.
-/

namespace SealedPost.Poller

/-- Whether an action does not need a timer without a period. -/
def Action.hasPeriod : Action → Bool
  | .die _ => false
  | _ => true

/-! ## Single calls on their way -/

def Action.isCall (id : Nat) : Action → Bool
  | .call n => n == id
  | _ => false

def Event.isReturn (id : Nat) : Event → Bool
  | .returned n _ => n == id
  | _ => false

/-- How often a single call of that number has begun. -/
def begun (id : Nat) (moves : List Move) : Nat := moves.countP fun m => m.action.isCall id

/-- How often one has returned. -/
def returned (id : Nat) (moves : List Move) : Nat := (trace moves).countP (Event.isReturn id)

/-- How many cycles in flight belong to one. -/
def State.calls (id : Nat) (s : State) : Nat := s.cycles.countP fun c => c.call == some id

theorem calls_fanOut (id : Nat) (s : State) (cycle : Nat) (call : Option Nat)
    (groups : List String) :
    (s.fanOut cycle call groups).1.calls id = s.calls id + if call == some id then 1 else 0 := by
  simp only [State.calls, State.fanOut, List.countP_append, List.countP_singleton]

theorem calls_finish (id : Nat) (s : State) (c : Chain) (r : Except PollError Nat) :
    (s.finish c r).1.calls id = s.calls id := by
  simp only [State.calls, State.finish, List.countP_map]
  apply List.countP_congr
  intro k _
  simp only [Function.comp_apply]
  split <;> rfl

/-- The end of a cycle takes its own call off the account, and no other. -/
theorem calls_collect (id : Nat) {s : State} (h : Numbered s) {c : Cycle} (flies : c ∈ s.cycles) :
    s.calls id = (s.collect c).1.calls id + (s.collect c).2.countP (Event.isReturn id) := by
  have nodup := (List.nodup_append.1 h.cycles_nodup).2.1
  have perm := perm_cons_filter_ne (f := Cycle.number) flies nodup
  have hs : s.calls id = ((s.cycles.filter fun k => k.number ≠ c.number).countP
      fun k => k.call == some id) + if c.call == some id then 1 else 0 := by
    rw [State.calls, perm.countP_eq, List.countP_cons]
  have he : (s.collect c).2.countP (Event.isReturn id) = if c.call == some id then 1 else 0 := by
    unfold State.collect
    cases hc : c.call with
    | none => rfl
    | some n => simp [Event.isReturn, List.countP_singleton]
  rw [hs, he, State.calls, collect_cycles]

theorem Effect.account {view : Context} {a : Action} {s s' : State} {es : List Event} (id : Nat)
    (e : Effect view a s es s') (h : Numbered s) :
    es.countP (Event.isReturn id) + s'.calls id =
      s.calls id + if a.isCall id then 1 else 0 := by
  cases e with
  | refuse => simp [Event.isReturn, Action.isCall, List.countP_singleton, Nat.add_comm]
  | call =>
    rw [calls_fanOut]
    simp [State.fanOut, State.claim, State.calls, Event.isReturn, Action.isCall]
  | begin =>
    rw [calls_fanOut]
    simp [State.fanOut, State.unorder, State.calls, Event.isReturn, Action.isCall]
  | fail _ _ failure =>
    rw [calls_finish]
    have : a.isCall id = false := by cases a <;> first | rfl | simp [failure?] at failure
    simp [State.finish, Event.isReturn, this]
  | deliver =>
    rw [calls_finish]
    simp [State.finish, Event.isReturn, Action.isCall, List.countP_append, List.countP_map,
      Function.comp_def]
  | collect flies =>
    rw [calls_collect id h flies]
    simp [Action.isCall, Nat.add_comm]
  | install | keep | stop | order | expire | die | skip | ask | fetch =>
    simp [State.calls, State.stop, State.retire, State.unorder, State.setStage, Event.isReturn,
      Action.isCall]

theorem Effects.account {view : Context} {a : Action} {s s' : State} {es : List Event} (id : Nat)
    (e : Effects view a s es s') (h : Numbered s) :
    es.countP (Event.isReturn id) + s'.calls id =
      s.calls id + if a.isCall id then 1 else 0 := by
  cases e with
  | one e => exact e.account id h
  | two e₁ e₂ =>
    have h₁ := e₁.account id h
    have h₂ := e₂.account id (e₁.numbered h)
    simp only [Action.isCall, Bool.false_eq_true, if_false] at h₂
    rw [List.countP_append]
    omega

/-- Whoever called and has not returned has a cycle in flight, and nobody else has one. -/
theorem Run.account {s : State} {moves : List Move} (id : Nat) (run : Run .idle moves s) :
    returned id moves + s.calls id = begun id moves := by
  induction run with
  | nil => rfl
  | snoc m run step ih =>
    have h := (step_effects (run.numbered numbered_idle) step).account id
      (run.numbered numbered_idle)
    simp only [returned, begun, trace, List.flatMap_append, List.flatMap_singleton,
      List.countP_append, List.countP_singleton] at ih ⊢
    omega

/-! ## The invariant -/

/-- How the flag, the timer that is installed and the timers that run go together. -/
structure Coherent (s : State) : Prop where
  polling_of_timer : s.timer.isSome = true → s.polling = true
  /-- A set flag is that of the timer or of a single call. -/
  owned : s.polling = true → s.timer.isSome = true ∨ ∃ c ∈ s.cycles, c.call.isSome = true
  timers_eq : s.timers = s.timer.toList

theorem coherent_idle : Coherent .idle := ⟨by simp [State.idle], by simp [State.idle], rfl⟩

namespace Coherent
variable {s : State}

theorem timer_eq_none (h : Coherent s) (idle : s.polling = false) : s.timer = none := by
  cases ht : s.timer with
  | none => rfl
  | some t =>
    have := h.polling_of_timer (by simp [ht])
    simp [idle] at this

theorem stop (h : Coherent s) : Coherent s.stop := by
  refine ⟨by simp [State.stop], by simp [State.stop], ?_⟩
  cases ht : s.timer with
  | none => simp [State.stop, h.timers_eq, ht]
  | some t => simp [State.stop, h.timers_eq, ht]

theorem fanOut (h : Coherent s) (active : s.polling = true) (cycle : Nat) (call : Option Nat)
    (groups : List String) : Coherent (s.fanOut cycle call groups).1 where
  polling_of_timer := h.polling_of_timer
  owned := by
    intro _
    refine (h.owned active).imp id ?_
    rintro ⟨c, hc, hcall⟩
    exact ⟨c, List.mem_append_left _ hc, hcall⟩
  timers_eq := h.timers_eq

theorem finish (h : Coherent s) (c : Chain) (r : Except PollError Nat) :
    Coherent (s.finish c r).1 where
  polling_of_timer := h.polling_of_timer
  owned := by
    intro active
    refine (h.owned active).imp id ?_
    rintro ⟨k, hk, hcall⟩
    refine ⟨_, List.mem_map_of_mem hk, ?_⟩
    split <;> exact hcall
  timers_eq := h.timers_eq

/-- A cycle of the timer leaves the flag alone when it ends; one of a single call leaves it set only
to an installed timer. -/
theorem collect (h : Coherent s) (num : Numbered s) {c : Cycle} (flies : c ∈ s.cycles) :
    Coherent (s.collect c).1 := by
  cases hc : c.call with
  | none =>
    have polling : (s.collect c).1.polling = s.polling := by simp [State.collect, hc]
    refine ⟨by simpa [polling] using h.polling_of_timer, ?_, by simpa using h.timers_eq⟩
    rw [polling, collect_timer, collect_cycles]
    intro active
    refine (h.owned active).imp id ?_
    rintro ⟨k, hk, hcall⟩
    refine ⟨k, List.mem_filter.2 ⟨hk, ?_⟩, hcall⟩
    have hne : k.number ≠ c.number := by
      intro e
      have nodup := (List.nodup_append.1 num.cycles_nodup).2.1
      obtain rfl := List.inj_on_of_nodup_map nodup hk flies e
      simp [hc] at hcall
    simpa using hne
  | some id =>
    have polling : (s.collect c).1.polling = (s.polling && s.timer.isSome) := by
      simp [State.collect, hc]
    refine ⟨?_, ?_, by simpa using h.timers_eq⟩
    · rw [polling, collect_timer]
      intro ht
      simp [ht, h.polling_of_timer ht]
    · rw [polling, collect_timer]
      intro active
      exact Or.inl (Bool.and_eq_true _ _ ▸ active).2

end Coherent

/-- Every effect of a poller whose timers have a period keeps the flag with its owner. -/
theorem Effect.coherent {view : Context} {a : Action} {s s' : State} {es : List Event}
    (e : Effect view a s es s') (period : a.hasPeriod = true) (num : Numbered s)
    (h : Coherent s) : Coherent s' := by
  cases e with
  | install idle =>
    have ht := h.timer_eq_none idle
    exact ⟨fun _ => rfl, fun _ => Or.inl rfl, by simp [h.timers_eq, ht]⟩
  | keep => exact h
  | stop => exact h.stop
  | refuse => exact h
  | call idle =>
    refine ⟨fun _ => rfl, fun _ => Or.inr ?_, h.timers_eq⟩
    exact ⟨_, List.mem_append_right _ (List.mem_singleton_self _), rfl⟩
  | order _ active => exact ⟨h.polling_of_timer, h.owned, h.timers_eq⟩
  | expire runs idle =>
    rw [h.timers_eq, h.timer_eq_none idle] at runs
    simp at runs
  | die => simp [Action.hasPeriod] at period
  | skip => exact ⟨h.polling_of_timer, h.owned, h.timers_eq⟩
  | @begin _ n _ active =>
    have hu : Coherent (s.unorder n) := ⟨h.polling_of_timer, h.owned, h.timers_eq⟩
    exact hu.fanOut active _ _ _
  | ask => exact ⟨h.polling_of_timer, h.owned, h.timers_eq⟩
  | fetch => exact ⟨h.polling_of_timer, h.owned, h.timers_eq⟩
  | fail => exact h.finish _ _
  | deliver => exact h.finish _ _
  | collect flies => exact h.collect num flies

theorem Effects.coherent {view : Context} {a : Action} {s s' : State} {es : List Event}
    (e : Effects view a s es s') (period : a.hasPeriod = true) (num : Numbered s)
    (h : Coherent s) : Coherent s' := by
  cases e with
  | one e => exact e.coherent period num h
  | two e₁ e₂ => exact e₂.coherent rfl (e₁.numbered num) (e₁.coherent period num h)

theorem Run.coherent {s : State} {moves : List Move} (run : Run .idle moves s)
    (period : ∀ m ∈ moves, m.action.hasPeriod = true) : Coherent s :=
  run.induct (P := fun _ s => Coherent s) (fun _ => rfl)
    (fun period num e h => e.coherent period num h) numbered_idle period coherent_idle

/-- **The flag follows the timer**, in every state that a poller with a period can reach. An
installed timer means a set flag. A set flag means an installed timer or the cycle of a single call
that has begun and not returned, so without such calls the flag says whether a timer is installed.
The timer that is installed runs and no other does. -/
theorem flag_follows_timer {s : State} {moves : List Move} (run : Run .idle moves s)
    (period : ∀ m ∈ moves, m.action.hasPeriod = true) :
    (s.timer.isSome = true → s.polling = true) ∧
    (s.polling = true → s.timer.isSome = true ∨
      ∃ c ∈ s.cycles, ∃ id, c.call = some id ∧ returned id moves < begun id moves) ∧
    ((∀ id, returned id moves = begun id moves) → (s.polling = true ↔ s.timer.isSome = true)) ∧
    s.timers = s.timer.toList ∧ s.timers.length ≤ 1 := by
  have h := run.coherent period
  have owned : s.polling = true → s.timer.isSome = true ∨
      ∃ c ∈ s.cycles, ∃ id, c.call = some id ∧ returned id moves < begun id moves := by
    intro active
    refine (h.owned active).imp_right ?_
    rintro ⟨c, hc, hcall⟩
    obtain ⟨id, hid⟩ := Option.isSome_iff_exists.1 hcall
    have account := run.account id
    have : 0 < s.calls id := List.countP_pos_iff.2 ⟨c, hc, by simp [hid]⟩
    exact ⟨c, hc, id, hid, by omega⟩
  refine ⟨h.polling_of_timer, owned, ?_, h.timers_eq, ?_⟩
  · intro none
    refine ⟨fun active => (owned active).resolve_right ?_, h.polling_of_timer⟩
    rintro ⟨c, hc, id, hid, unfinished⟩
    exact absurd (none id) (Nat.ne_of_lt unfinished)
  · rw [h.timers_eq]
    cases s.timer <;> simp

/-- A single call that is stopped while its chain waits, and a timer that is started before the call
returns. -/
def takeover : List (Context × Action) :=
  let view : Context := ⟨["a"], fun _ => .error .noData⟩
  [(view, .call 7), (view, .lookup 1), (view, .stop), (view, .start), (view, .tick 2),
    (view, .lookedUp 1 (.error .timeout) 0), (view, .collect 0)]

theorem flag_follows_timer_takeover :
    ∃ moves s, Run .idle moves s ∧ (∀ m ∈ moves, m.action.hasPeriod = true) ∧
      s.timer = some 2 ∧ s.polling = true ∧ s.timers = [2] := by
  have run := play_run (s := .idle) takeover rfl
  have h := flag_follows_timer run (by decide)
  exact ⟨_, _, run, by decide, rfl, h.1 rfl, h.2.2.2.1⟩

end SealedPost.Poller

import SealedPost.Proofs.Poller.Course
import SealedPost.Proofs.Poller.Flag

/-!
# Starts

A start installs the timer unless the flag is set, and a single call sets the flag as well. So a
start that comes while only a single call holds the flag does nothing, and at the end of the call
the flag is clear. `start_lasts_iff` says which starts last; `start_lost` is a run with one that
does not.
-/

namespace SealedPost.Poller

/-- A timer comes with a start that finds the flag clear, and goes with a stop. -/
theorem Effect.timer_isSome {view : Context} {a : Action} {s s' : State} {es : List Event}
    (e : Effect view a s es s') (unstopped : a ≠ .stop) :
    s'.timer.isSome = true ↔ s.timer.isSome = true ∨ a = .start ∧ s.polling = false := by
  cases e with
  | install idle => simp [idle]
  | keep active => simp [active]
  | stop => exact absurd rfl unstopped
  | @fail _ _ a e _ _ failure =>
    have other : a ≠ .start := by
      rintro rfl
      simp [failure?] at failure
    simp [State.finish, other]
  | collect => simp
  | refuse | call | order | expire | die | skip | begin | ask | fetch | deliver =>
    simp [State.fanOut, State.claim, State.retire, State.unorder, State.setStage, State.finish]

theorem Effects.timer_isSome {view : Context} {a : Action} {s s' : State} {es : List Event}
    (e : Effects view a s es s') (unstopped : a ≠ .stop) :
    s'.timer.isSome = true ↔ s.timer.isSome = true ∨ a = .start ∧ s.polling = false := by
  cases e with
  | one e => exact e.timer_isSome unstopped
  | two e₁ e₂ =>
    rw [e₂.timer_isSome nofun, e₁.timer_isSome unstopped]
    simp

/-- A set timer means a set flag, with or without a period. -/
theorem Effect.polling_of_timer {view : Context} {a : Action} {s s' : State} {es : List Event}
    (e : Effect view a s es s') (h : s.timer.isSome = true → s.polling = true) :
    s'.timer.isSome = true → s'.polling = true := by
  cases e with
  | install | call => exact fun _ => rfl
  | stop => exact nofun
  | @collect _ c =>
    intro installed
    rw [collect_timer] at installed
    unfold State.collect
    cases c.call <;> simp [h installed, installed]
  | keep | refuse | order | expire | die | skip | begin | ask | fetch | fail | deliver => exact h

theorem Run.polling_of_timer {s : State} {moves : List Move} (run : Run .idle moves s) :
    s.timer.isSome = true → s.polling = true :=
  run.keeps (P := fun _ s => s.timer.isSome = true → s.polling = true)
    (fun _ e h => e.polling_of_timer h) numbered_idle nofun

theorem Run.timer_eq_none {s : State} {moves : List Move} (run : Run .idle moves s)
    (idle : s.polling = false) : s.timer = none := by
  cases installed : s.timer with
  | none => rfl
  | some t =>
    have active := run.polling_of_timer (by simp [installed])
    rw [idle] at active
    cases active

/-- Without a stop, a timer is installed at the end if there was one at the beginning or some start
has found the flag clear. -/
theorem Run.timer_isSome {s s' : State} {moves : List Move} (run : Run s moves s')
    (num : Numbered s) (unstopped : ∀ m ∈ moves, m.action ≠ .stop) :
    s'.timer.isSome = true ↔
      s.timer.isSome = true ∨ ∃ t ∈ turns s moves, t.action = .start ∧ t.polling = false := by
  have unstopped' : ∀ t ∈ turns s moves, t.action ≠ .stop := by
    intro t ht
    have := List.mem_map_of_mem (f := Turn.action) ht
    rw [map_action_turns] at this
    obtain ⟨m, hm, same⟩ := List.mem_map.1 this
    exact same ▸ unstopped m hm
  refine run.along (P := fun ts _ s' => (∀ t ∈ ts, t.action ≠ .stop) → (s'.timer.isSome = true ↔
    s.timer.isSome = true ∨ ∃ t ∈ ts, t.action = .start ∧ t.polling = false)) ?_ num ?_ unstopped'
  · intro view a s₁ s₂ ts before es _ e ih unstopped
    have earlier := ih fun t ht => unstopped t (List.mem_append_left _ ht)
    rw [e.timer_isSome (unstopped ⟨s₁.polling, view, a⟩ (by simp)), earlier, or_assoc]
    simp only [List.mem_append, List.mem_singleton, or_and_right, exists_or, exists_eq_left]
  · simp

/-- **Which starts last.** After a start, and as long as nobody stops the poller, the timer is
installed and the flag set if there was a timer at the start, or this start or a later one has found
the flag clear; in no other case. A timer that is installed runs, and its ticks order cycles. Where
there is none, the flag is set no longer than single calls are in flight. -/
theorem start_lasts_iff {s s' : State} {before after : List Move} {m : Move}
    (reached : Run .idle before s) (start : m.action = .start) (run : Run s (m :: after) s')
    (unstopped : ∀ k ∈ after, k.action ≠ .stop) :
    (s'.polling = true ∧ s'.timer.isSome = true ↔
      s.timer.isSome = true ∨ ∃ t ∈ turns s (m :: after), t.action = .start ∧ t.polling = false) ∧
    ((∀ k ∈ before ++ m :: after, k.action.hasPeriod = true) →
      (∀ t, s'.timer = some t → t ∈ s'.timers ∧
        ∀ view, ∃ s'', s'.step view (.tick t) = some (s'', [.ordered t s'.next])) ∧
      (s'.timer = none → (∀ c ∈ s'.cycles, c.call = none) → s'.polling = false)) := by
  have whole := reached.append run
  have active := whole.polling_of_timer
  refine ⟨?_, fun period => ⟨fun t installed => ?_, fun none calls => ?_⟩⟩
  · have all : ∀ k ∈ m :: after, k.action ≠ .stop := by
      intro k hk
      rcases List.mem_cons.1 hk with rfl | hk
      · rw [start]; nofun
      · exact unstopped k hk
    rw [← run.timer_isSome (reached.numbered numbered_idle) all]
    exact ⟨fun h => h.2, fun h => ⟨active h, h⟩⟩
  · have runs : t ∈ s'.timers := by simp [(whole.coherent period).timers_eq, installed]
    have polling := active (by simp [installed])
    exact ⟨runs, fun view => by simp [State.step, runs, State.tick, polling]⟩
  · refine Bool.eq_false_iff.2 fun polling => ?_
    rcases (whole.coherent period).owned polling with installed | ⟨c, hc, call⟩
    · simp [none] at installed
    · simp [calls c hc] at call

/-- A single call that was stopped while its chain waits. -/
def callStopped : State := ⟨false, none, [], [], [⟨0, some 7, []⟩], [⟨1, 0, "a", .lookup⟩], 2⟩

/-- A start finds the flag clear there, and outlasts the call. -/
theorem start_lasts_after_stop :
    ∃ before after s, Run .idle before callStopped ∧ Run callStopped after s ∧ s.cycles = [] ∧
      s.polling = true ∧ s.timer.isSome = true := by
  let view : Context := ⟨["a"], fun _ => .error .noData⟩
  have reached : Run .idle _ callStopped :=
    play_run [(view, .call 7), (view, .lookup 1), (view, .stop)] rfl
  have run : Run callStopped (⟨view, .start, [.started 2]⟩ :: _) ⟨true, some 2, [2], [], [], [], 3⟩ :=
    play_run [(view, .start), (view, .lookedUp 1 (.error .timeout) 0), (view, .collect 0)] rfl
  have h := start_lasts_iff reached rfl run (by simp)
  have lasts := h.1.2 (Or.inr ⟨⟨false, view, .start⟩, List.mem_cons_self, rfl, rfl⟩)
  exact ⟨_, _, _, reached, run, rfl, lasts⟩

/-- **A start that is lost**: it comes while a single call holds the flag, nobody stops the poller,
and when the call has returned the flag is clear and no timer is installed. -/
theorem start_lost :
    ∃ moves, Run .idle moves { State.idle with next := 2 } ∧ (∃ m ∈ moves, m.action = .start) ∧
      (∀ m ∈ moves, m.action ≠ .stop) ∧ begun 7 moves = 1 ∧ returned 7 moves = 1 := by
  let view : Context := ⟨["a"], fun _ => .error .noData⟩
  have run : Run .idle _ { State.idle with next := 2 } :=
    play_run [(view, .call 7), (view, .start), (view, .lookup 1),
      (view, .lookedUp 1 (.error .timeout) 0), (view, .collect 0)] rfl
  exact ⟨_, run, ⟨_, List.mem_cons_of_mem _ List.mem_cons_self, rfl⟩, by simp, rfl, rfl⟩

end SealedPost.Poller

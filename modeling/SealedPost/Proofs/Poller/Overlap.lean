import SealedPost.Proofs.Poller.Completion
import SealedPost.Proofs.Poller.Restart
import SealedPost.Proofs.Poller.Start

/-!
# Overlapping calls

A single call clears the flag at its end unless a timer is installed by then. If it was stopped and
another call has taken the flag meanwhile, it is the flag of that other call that it clears, and the
chains of the other call find it so. `canceled_only_by_stop_iff` says for which calls only a stop
can do that; `earlier_call_cancels` is a run in which an earlier call does.
-/

namespace SealedPost.Poller

/-! ## A flag that is held -/

/-- Since a state `s₀` the flag has stayed set, no call has begun a cycle and no chain was
canceled. -/
structure Held (s₀ : State) (es : List Event) (s : State) : Prop where
  polling : s.polling = true
  calls : ∀ c ∈ s.cycles, c.call.isSome = true →
    ∃ c₀ ∈ s₀.cycles, c₀.number = c.number ∧ c₀.call = c.call
  uncanceled : ∀ n k g, .finished n k ⟨g, .error .canceled⟩ ∉ es

/-- A single call that was in flight in a state has returned. -/
def Released (s₀ s : State) : Prop :=
  ∃ c ∈ s₀.cycles, c.call.isSome = true ∧ Spent c.number s ∧ c.number ∉ s.cycles.map Cycle.number

theorem Held.extend {s₀ s s' : State} {es es' : List Event} (h : Held s₀ es s)
    (polling : s'.polling = true)
    (calls : ∀ c ∈ s'.cycles, c.call.isSome = true →
      ∃ c₀ ∈ s.cycles, c₀.number = c.number ∧ c₀.call = c.call)
    (uncanceled : ∀ n k g, .finished n k ⟨g, .error .canceled⟩ ∉ es') :
    Held s₀ (es ++ es') s' where
  polling := polling
  calls := by
    intro c hc single
    obtain ⟨k, hk, number, call⟩ := calls c hc single
    obtain ⟨c₀, hc₀, number₀, call₀⟩ := h.calls k hk (call ▸ single)
    exact ⟨c₀, hc₀, number₀.trans number, call₀.trans call⟩
  uncanceled := fun n k g he => (List.mem_append.1 he).elim (h.uncanceled n k g) (uncanceled n k g)

/-- No chain is canceled that finds the flag set. -/
theorem not_canceled_of_active {a : Action} {e : PollError} (failure : failure? true a = some e) :
    e ≠ .canceled := by
  cases a with
  | lookedUp n answer pick =>
    cases answer with
    | error reason =>
      simp only [failure?, Option.some.injEq] at failure
      simp [← failure]
    | ok nodes =>
      by_cases empty : (State.choose nodes pick).isNone = true
      · simp only [failure?, if_pos empty, Option.some.injEq] at failure
        simp [← failure]
      · simp [failure?, empty] at failure
  | fetched n answer =>
    cases answer with
    | error reason =>
      simp only [failure?, Option.some.injEq] at failure
      simp [← failure]
    | ok response => simp [failure?] at failure
  | start | stop | call | tick | die | begin | lookup | collect => simp [failure?] at failure

theorem finish_cycles {s : State} {c : Chain} {r : Except PollError Nat} {k : Cycle}
    (h : k ∈ (s.finish c r).1.cycles) :
    ∃ k₀ ∈ s.cycles, k₀.number = k.number ∧ k₀.call = k.call := by
  obtain ⟨k₀, hk₀, rfl⟩ := List.mem_map.1 h
  refine ⟨k₀, hk₀, ?_⟩
  split <;> exact ⟨rfl, rfl⟩

/-- Apart from a stop, only the end of a single call takes the flag away. -/
theorem Effect.held {view : Context} {a : Action} {s₀ s s' : State} {before es : List Event}
    (e : Effect view a s es s') (unstopped : a ≠ .stop) (num : Numbered s)
    (h : Held s₀ before s) : Held s₀ (before ++ es) s' ∨ Released s₀ s' := by
  have active := h.polling
  cases e with
  | install idle | call idle | expire _ idle | skip _ idle =>
    rw [idle] at active
    cases active
  | stop => exact absurd rfl unstopped
  | keep | refuse | order | die | ask | fetch =>
    exact Or.inl (h.extend active (fun c hc _ => ⟨c, hc, rfl, rfl⟩) (by simp))
  | begin =>
    refine Or.inl (h.extend active (fun c hc single => ?_) (by simp [State.fanOut]))
    rcases List.mem_append.1 hc with hc | hc
    · exact ⟨c, hc, rfl, rfl⟩
    · rw [List.mem_singleton.1 hc] at single
      cases single
  | fail _ _ failure =>
    rw [active] at failure
    have other := not_canceled_of_active failure
    refine Or.inl (h.extend active (fun c hc _ => finish_cycles hc) ?_)
    simp [State.finish, Ne.symm other]
  | deliver =>
    exact Or.inl (h.extend active (fun c hc _ => finish_cycles hc) (by simp [State.finish]))
  | @collect _ c flies complete =>
    cases hc : c.call with
    | none =>
      refine Or.inl (h.extend ?_ (fun k hk _ => ?_) ?_)
      · simp [State.collect, hc, active]
      · rw [collect_cycles] at hk
        exact ⟨k, List.mem_of_mem_filter hk, rfl, rfl⟩
      · simp [State.collect, hc]
    | some id =>
      obtain ⟨c₀, flies₀, number, call⟩ := h.calls c flies (by simp [hc])
      have ends : Effect view (.collect c.number) s _ _ := .collect flies complete
      refine Or.inr ⟨c₀, flies₀, by simp [call, hc], ?_, ?_⟩
      · rw [number]
        exact (ends.spent (num.spent (List.mem_map_of_mem flies))).1
      · rw [number, collect_cycles]
        simp

/-- **A flag that is set stays set** until somebody stops the poller or a single call returns that
was in flight; and no chain is canceled until then. -/
theorem Run.held {s s' : State} {moves : List Move} (run : Run s moves s') (num : Numbered s)
    (active : s.polling = true) (unstopped : ∀ m ∈ moves, m.action ≠ .stop) :
    Held s (trace moves) s' ∨ Released s s' := by
  have held : Held s [] s := ⟨active, fun c hc _ => ⟨c, hc, rfl, rfl⟩, by simp⟩
  refine @Run.induct (· ≠ .stop) (fun es s' => Held s es s' ∨ Released s s') nofun ?_ s s' moves run
    num unstopped (Or.inl held)
  rintro view a s₁ s₂ before es unstopped num₁ e (held | ⟨c, flies, single, spent, gone⟩)
  · exact e.held unstopped num₁ held
  · exact Or.inr ⟨c, flies, single, (e.spent spent).1, (e.spent spent).2 gone⟩

/-! ## An earlier call that returns -/

/-- The answers of a network in which every group has a node, and no messages. -/
def quietNetwork (view : Context) : Reply := ⟨view, .ok oneNode, 0, .ok .null⟩

/-- A chain that does all its turns with a clear flag is canceled, if nothing else fails. -/
theorem Course.canceled {c : Chain} {ts : List Turn} {es : List Event} (h : Course c ts es none)
    (idle : ∀ t ∈ ts, t.polling = false)
    (fine : ∀ t ∈ ts, ∀ e, failure? false t.action = some e → e = .canceled) :
    .finished c.number c.cycle ⟨c.group, .error .canceled⟩ ∈ es := by
  cases h with
  | @turn ts t _ _ k _ course segment =>
    obtain ⟨number, cycle, group⟩ := course.same k rfl
    have last : t ∈ ts ++ [t] := by simp
    cases segment with
    | fail _ failure =>
      rw [idle t last] at failure
      obtain rfl := fine t last _ failure
      simp [number, cycle, group]
    | deliver _ _ active =>
      rw [idle t last] at active
      cases active

theorem quietNetwork_fine (view : Context) (c : Chain) {e : PollError}
    (failure : failure? false ((quietNetwork view).action c) = some e) : e = .canceled := by
  unfold Reply.action at failure
  cases stage : c.stage <;>
    simp [stage, quietNetwork, oneNode, failure?, State.choose] at failure
  · exact failure.symm
  · exact failure.symm

/-- A single call in flight can return, and where no timer is installed it clears the flag. What
belongs to other cycles stays as it is. -/
theorem exists_release {s : State} (num : Numbered s) (timer : s.timer = none) {c : Cycle}
    (flies : c ∈ s.cycles) (single : c.call.isSome = true) (view : Context) :
    ∃ moves s', Run s moves s' ∧ s'.polling = false ∧ (∀ m ∈ moves, m.action ≠ .stop) ∧
      (∀ b ∈ s.chains, b.cycle ≠ c.number → b ∈ s'.chains) ∧
      ∀ k ∈ s.cycles, k.number ≠ c.number → ∃ k' ∈ s'.cycles, k'.number = k.number ∧
        k'.call = k.call := by
  obtain ⟨moves, s₁, done⟩ := exists_completion num c.number fun _ => quietNetwork view
  obtain ⟨c₁, flies₁, number, call⟩ := done.cycle flies
  have step : s₁.step view (.collect c.number) = some (s₁.collect c₁) :=
    (step_collect_iff (done.run.numbered num)).2 ⟨c₁, flies₁, number, done.complete, rfl⟩
  obtain ⟨id, hid⟩ := Option.isSome_iff_exists.1 single
  refine ⟨moves ++ [⟨view, .collect c.number, (s₁.collect c₁).2⟩], (s₁.collect c₁).1,
    .snoc _ done.run step, ?_, ?_, ?_, ?_⟩
  · simp [State.collect, call, hid, done.timer, timer]
  · intro m hm same
    rcases List.mem_append.1 hm with hm | hm
    · exact done.unstopped m hm same
    · rw [List.mem_singleton.1 hm] at same
      cases same
  · intro b hb other
    rw [collect_chains]
    exact (chain?_eq_some (done.aside num hb other)).1
  · intro k hk other
    obtain ⟨k₁, hk₁, number₁, call₁⟩ := done.cycle hk
    refine ⟨k₁, ?_, number₁, call₁⟩
    rw [collect_cycles]
    exact List.mem_filter.2 ⟨hk₁, by simpa [number, number₁] using other⟩

/-- Where the flag is clear, a chain in flight can be canceled, and its cycle brought to its end. -/
theorem exists_cancel {s : State} (num : Numbered s) (idle : s.polling = false) {b : Chain}
    (flies : b ∈ s.chains) (view : Context) :
    ∃ moves s', Run s moves s' ∧ (∀ m ∈ moves, m.action ≠ .stop) ∧
      .finished b.number b.cycle ⟨b.group, .error .canceled⟩ ∈ trace moves ∧
      s'.isComplete b.cycle = true ∧
      ∀ k ∈ s.cycles, ∃ k' ∈ s'.cycles, k'.number = k.number ∧ k'.call = k.call := by
  obtain ⟨moves, s', done⟩ := exists_completion num b.cycle fun _ => quietNetwork view
  refine ⟨moves, s', done.run, done.unstopped, ?_, done.complete, fun k hk => done.cycle hk⟩
  have course := done.run.course num flies
  rw [done.run.landed num flies done.complete] at course
  refine finished_mem_seen.1 (course.canceled (fun t ht => ?_) fun t ht e failure => ?_)
  · exact (done.replied t (mem_own.1 ht).1).1.trans idle
  · obtain ⟨-, c, -, -, -, action⟩ := done.replied t (mem_own.1 ht).1
    exact quietNetwork_fine view c (action ▸ failure)

/-- So the call that comes next can be canceled by the return of an earlier one. -/
theorem exists_canceled {s : State} (num : Numbered s) (idle : s.polling = false)
    (timer : s.timer = none) {view : Context} (groups : view.groups ≠ []) (id : Nat) {c : Cycle}
    (flies : c ∈ s.cycles) (single : c.call.isSome = true) :
    ∃ during s' outcomes g, Returns s view id during s' outcomes ∧
      ⟨g, .error .canceled⟩ ∈ outcomes ∧ ∀ m ∈ during, m.action ≠ .stop := by
  have called : Effect view (.call id) s _ _ := .call idle
  have num₁ := called.numbered num
  obtain ⟨g, rest, hg⟩ := List.exists_cons_of_ne_nil groups
  have other : s.next ≠ c.number := fun same => Nat.lt_irrefl _
    (same ▸ num.cycles_lt c.number (List.mem_append_right _ (List.mem_map_of_mem flies)))
  -- the earlier call returns
  obtain ⟨moves, s₂, first, idle₂, unstopped, chains, cycles⟩ :=
    exists_release num₁ timer (List.mem_append_left _ flies) single view
  have num₂ := first.numbered num₁
  have chain : (⟨s.next + 1, s.next, g, .queued⟩ : Chain) ∈ s₂.chains := by
    refine chains _ (List.mem_append_right _ ?_) other
    simp [hg, State.chainsFor, State.claim]
  obtain ⟨k₂, flies₂, number₂, call₂⟩ := cycles ⟨s.next, some id, []⟩
    (List.mem_append_right _ (List.mem_singleton_self _)) other
  -- the later one finds the flag clear
  obtain ⟨later, s₃, second, unstopped', canceled, complete, cycles'⟩ :=
    exists_cancel num₂ idle₂ chain view
  obtain ⟨k₃, flies₃, number₃, call₃⟩ := cycles' k₂ flies₂
  have run := first.append second
  obtain ⟨-, outcomes⟩ := run.of_fanOut num₁ flies₃ (number₃.trans number₂)
  have back : s₃.step view (.collect s.next) =
      some ((s₃.collect k₃).1, [.returned id k₃.outcomes]) :=
    (step_collect_iff (second.numbered num₂)).2 ⟨k₃, flies₃, number₃.trans number₂, complete,
      by simp [State.collect, call₃, call₂]⟩
  refine ⟨moves ++ later, s₃, k₃.outcomes, g, .later view (step_call idle id groups) run back, ?_, ?_⟩
  · rw [outcomes]
    refine mem_outcomesOf.2 ⟨s.next + 1, ?_⟩
    rw [trace, List.flatMap_append]
    exact List.mem_append_right _ canceled
  · intro m hm
    exact (List.mem_append.1 hm).elim (unstopped m) (unstopped' m)

/-! ## Which calls only a stop cancels -/

/-- A call that reports a canceled chain was stopped, or an earlier one has returned meanwhile. -/
theorem Returns.cause {s s' : State} {view : Context} {id : Nat} {during : List Move}
    {outcomes : List Outcome} {g : String} (returns : Returns s view id during s' outcomes)
    (num : Numbered s) (idle : s.polling = false) (canceled : ⟨g, .error .canceled⟩ ∈ outcomes) :
    (∃ m ∈ during, m.action = .stop) ∨
      ∃ c ∈ s.cycles, c.call.isSome = true ∧ c.number ∉ s'.cycles.map Cycle.number := by
  rcases returns.collected num idle with ⟨-, -, rfl⟩ | ⟨-, run, own, -, rfl⟩
  · simp at canceled
  have called : Effect view (.call id) s _ _ := .call idle
  by_cases stopped : ∃ m ∈ during, m.action = .stop
  · exact Or.inl stopped
  · refine Or.inr ?_
    rcases run.held (called.numbered num) rfl (by simpa using stopped) with held | released
    · obtain ⟨n, ended⟩ := mem_outcomesOf.1 canceled
      exact absurd ended (held.uncanceled n s.next g)
    · obtain ⟨c, flies, single, -, gone⟩ := released
      rcases List.mem_append.1 flies with flies | mine
      · exact ⟨c, flies, single, gone⟩
      · rw [List.mem_singleton.1 mine] at gone
        exact absurd own gone

/-- **When only a stop cancels a call.** Take a single call that finds the flag clear. If it returns
that a chain was canceled, then somebody has stopped the poller meanwhile, or an earlier call that
was still in flight has returned. That there was a stop is certain if no earlier call is in flight
or there are no groups, and in no other case: else there is a run without a stop. -/
theorem canceled_only_by_stop_iff {s : State} {before : List Move} (reached : Run .idle before s)
    (idle : s.polling = false) (view : Context) (id : Nat) :
    (∀ during s' outcomes g, Returns s view id during s' outcomes →
      ⟨g, .error .canceled⟩ ∈ outcomes → (∃ m ∈ during, m.action = .stop) ∨
        ∃ c ∈ s.cycles, c.call.isSome = true ∧ c.number ∉ s'.cycles.map Cycle.number) ∧
    ((∀ during s' outcomes g, Returns s view id during s' outcomes →
      ⟨g, .error .canceled⟩ ∈ outcomes → ∃ m ∈ during, m.action = .stop) ↔
        view.groups = [] ∨ ∀ c ∈ s.cycles, c.call = none) := by
  have num := reached.numbered numbered_idle
  have timer := reached.timer_eq_none idle
  have causes := fun during s' outcomes g (returns : Returns s view id during s' outcomes) =>
    returns.cause (g := g) num idle
  refine ⟨causes, fun certain => ?_, fun sole during s' outcomes g returns canceled => ?_⟩
  · by_cases groups : view.groups = []
    · exact Or.inl groups
    · refine Or.inr fun c flies => ?_
      cases call : c.call with
      | none => rfl
      | some n =>
        obtain ⟨during, s', outcomes, g, returns, canceled, unstopped⟩ :=
          exists_canceled num idle timer groups id flies (by simp [call])
        obtain ⟨m, hm, stop⟩ := certain during s' outcomes g returns canceled
        exact absurd stop (unstopped m hm)
  · rcases causes during s' outcomes g returns canceled with stopped | ⟨c, flies, single, -⟩
    · exact stopped
    · rcases sole with groups | calls
      · rcases returns.collected num idle with ⟨-, -, rfl⟩ | ⟨some, -⟩
        · simp at canceled
        · exact absurd groups some
      · simp [calls c flies] at single

/-- A poller on which nothing is in flight is called, and stopped while the chain waits. -/
theorem canceled_only_by_stop_alone :
    ∃ during s', Returns .idle oneGroup 7 during s' [⟨"a", .error .canceled⟩] ∧
      ∃ m ∈ during, m.action = .stop := by
  let busy : State := ⟨true, none, [], [], [⟨0, some 7, []⟩], [⟨1, 0, "a", .queued⟩], 2⟩
  let last : State := ⟨false, none, [], [], [⟨0, some 7, [⟨"a", .error .canceled⟩]⟩], [], 2⟩
  have run : Run busy _ last := play_run [(oneGroup, .lookup 1), (oneGroup, .stop),
    (oneGroup, .lookedUp 1 (.ok oneNode) 0)] rfl
  have returns : Returns .idle oneGroup 7 _ last [⟨"a", .error .canceled⟩] :=
    .later oneGroup rfl run rfl
  have h := canceled_only_by_stop_iff (.nil : Run .idle [] .idle) rfl oneGroup 7
  have stopped := h.2.2 (Or.inr (by simp [State.idle])) _ _ _ "a" returns (by simp)
  exact ⟨_, _, returns, stopped⟩

/-- **An earlier call cancels a later one**: the first is stopped, the second takes the flag, the
first returns with an error of the network, and the second is canceled though nobody stopped it. -/
theorem earlier_call_cancels :
    ∃ before during s', Run .idle before callStopped ∧
      Returns callStopped oneGroup 8 during s' [⟨"a", .error .canceled⟩] ∧
      (∀ m ∈ during, m.action ≠ .stop) ∧
      .returned 7 [⟨"a", .error (.network .timeout)⟩] ∈ trace during := by
  have reached : Run .idle _ callStopped :=
    play_run [(oneGroup, .call 7), (oneGroup, .lookup 1), (oneGroup, .stop)] rfl
  let busy : State := ⟨true, none, [], [], [⟨0, some 7, []⟩, ⟨2, some 8, []⟩],
    [⟨1, 0, "a", .lookup⟩, ⟨3, 2, "a", .queued⟩], 4⟩
  let last : State := ⟨false, none, [], [], [⟨2, some 8, [⟨"a", .error .canceled⟩]⟩], [], 4⟩
  have run : Run busy _ last := play_run [(oneGroup, .lookup 3),
    (oneGroup, .lookedUp 1 (.error .timeout) 0), (oneGroup, .collect 0),
    (oneGroup, .lookedUp 3 (.ok oneNode) 0)] rfl
  have returns : Returns callStopped oneGroup 8 _ last [⟨"a", .error .canceled⟩] :=
    .later oneGroup rfl run rfl
  exact ⟨_, _, _, reached, returns, by simp, by simp [trace]⟩

end SealedPost.Poller

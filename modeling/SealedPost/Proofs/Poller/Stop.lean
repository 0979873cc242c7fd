import SealedPost.Proofs.Poller.Account

/-!
# After a stop

A stop clears the flag and lets work in flight go on by itself. What is left of it is an account of
chains: each that was in flight at the stop is still there or has finished, once and with an error,
and the outcomes that a single call returns are those from before the stop and the errors from after
it. As every segment shortens the work that is left, it comes to an end.

- `Run.wound`: the account, for every run in which nobody starts the timer or makes a single call.
- `Run.backlog_le`: such a run has a bounded number of moves.
- `stop_discards`: what both say of the work that a stop finds.
-/

namespace SealedPost.Poller

/-! ## Nobody starts anything -/

/-- Whether an action neither starts the timer nor makes a single call. -/
def Action.isQuiet : Action → Bool
  | .start | .call _ => false
  | _ => true

/-- Whether an event is work for a group that goes on: a chain begun, its messages asked for, or
one of them handed over. -/
def Event.isWork : Event → Bool
  | .fannedOut _ _ | .fetch _ _ _ _ | .delivered _ _ _ => true
  | _ => false

def Outcome.isError (o : Outcome) : Bool :=
  match o.result with
  | .ok _ => false
  | .error _ => true

/-- What a single call returns whose cycle was `c` in a state: the outcomes that there were then,
and an error for each of the chains that it still had. -/
def ClosesWith (s : State) (c : Cycle) (outcomes : List Outcome) : Prop :=
  ∃ late, outcomes = c.outcomes ++ late ∧ (∀ o ∈ late, o.isError = true) ∧
    (late.map Outcome.group).Perm ((s.chains.filter fun k => k.cycle = c.number).map Chain.group)

/-- **The account after a stop**: what has happened since a state `s₀` with a clear flag, as long as
nobody starts anything. -/
structure Wound (s₀ : State) (es : List Event) (s : State) : Prop where
  idle : s.polling = false
  silent : ∀ e ∈ es, e.isWork = false
  failed : ∀ e ∈ ends es, e.2.2.isError = true
  /-- No cycle begins, so all are on the account. -/
  ledger : Ledger (fun _ => true) s₀ es s
  returns : ∀ id outcomes, Event.returned id outcomes ∈ es →
    ∃ c₀ ∈ s₀.cycles, c₀.call = some id ∧ ClosesWith s₀ c₀ outcomes

theorem wound_refl {s : State} (idle : s.polling = false) : Wound s [] s where
  idle := idle
  silent := by simp
  failed := by simp [ends]
  ledger := ledger_refl _ _
  returns := by simp

namespace Wound
variable {s₀ s s' : State} {es es' : List Event}

theorem account (h : Wound s₀ es s) : (ended es ++ s.tags).Perm s₀.tags := by
  simpa using h.ledger.account

/-- A segment that does no work for a group, and fails the chains that it ends. -/
theorem extend (h : Wound s₀ es s) (idle : s'.polling = false)
    (ledger : Ledger (fun _ => true) s₀ (es ++ es') s') (silent : ∀ e ∈ es', e.isWork = false)
    (failed : ∀ e ∈ ends es', e.2.2.isError = true)
    (returns : ∀ id outcomes, Event.returned id outcomes ∈ es' →
      ∃ c₀ ∈ s₀.cycles, c₀.call = some id ∧ ClosesWith s₀ c₀ outcomes) :
    Wound s₀ (es ++ es') s' where
  idle := idle
  silent := fun e he => (List.mem_append.1 he).elim (h.silent e) (silent e)
  failed := by
    rw [ends_append]
    exact fun e he => (List.mem_append.1 he).elim (h.failed e) (failed e)
  ledger := ledger
  returns := fun id outcomes hr =>
    (List.mem_append.1 hr).elim (h.returns id outcomes) (returns id outcomes)

/-- What a cycle that is complete returns. -/
theorem closesWith (h : Wound s₀ es s) {c : Cycle} (flies : c ∈ s.cycles)
    (complete : s.isComplete c.number = true) :
    ∃ c₀ ∈ s₀.cycles, c₀.call = c.call ∧ ClosesWith s₀ c₀ c.outcomes := by
  obtain ⟨c₀, hc₀, hnumber, hcall, houtcomes⟩ := h.ledger.cycles c flies rfl
  refine ⟨c₀, hc₀, hcall, outcomesOf c.number es, houtcomes, ?_, ?_⟩
  · intro o ho
    obtain ⟨n, ended⟩ := mem_outcomesOf.1 ho
    exact h.failed _ (mem_ends.2 ended)
  · rw [hnumber]
    exact h.ledger.outcomes_perm rfl complete

end Wound

/-- Every effect keeps the account. Those that would break it need a set flag, or start something. -/
theorem Effect.wound {view : Context} {a : Action} {s₀ s s' : State} {before es : List Event}
    (e : Effect view a s es s') (quiet : a.isQuiet = true) (num : Numbered s)
    (h : Wound s₀ before s) : Wound s₀ (before ++ es) s' := by
  have idle := h.idle
  have ledger := fun new => e.ledger num h.ledger new
  cases e with
  | install | keep | refuse | call => simp [Action.isQuiet] at quiet
  | order _ active | begin _ active | fetch _ _ _ active | deliver _ _ active =>
    rw [idle] at active; cases active
  | stop => exact h.extend rfl (ledger (by simp)) (by simp) (by simp [ends]) (by simp)
  | expire | die | skip =>
    exact h.extend idle (ledger (by simp)) (by simp) (by simp [ends]) (by simp)
  | ask =>
    exact h.extend idle (ledger (by simp)) (by simp [Event.isWork]) (by simp [ends, Event.endOf?])
      (by simp)
  | fail =>
    refine h.extend idle (ledger (by simp [State.finish])) ?_ ?_ (by simp [State.finish])
    · simp [State.finish, Event.isWork]
    · simp [State.finish, ends, Event.endOf?, Outcome.isError]
  | @collect _ c flies complete =>
    have closes := h.closesWith flies complete
    cases hc : c.call with
    | none =>
      have quiet : (s.collect c).2 = [] := by simp [State.collect, hc]
      rw [quiet] at ledger ⊢
      refine h.extend ?_ (ledger (by simp)) (by simp) (by simp [ends]) (by simp)
      simpa [State.collect, hc] using idle
    | some id =>
      have back : (s.collect c).2 = [.returned id c.outcomes] := by simp [State.collect, hc]
      rw [back] at ledger ⊢
      refine h.extend ?_ (ledger (by simp)) (by simp [Event.isWork]) (by simp [ends, Event.endOf?]) ?_
      · simp [State.collect, hc, idle]
      · intro id' outcomes hr
        obtain ⟨rfl, rfl⟩ : id' = id ∧ outcomes = c.outcomes := by simpa using hr
        rwa [hc] at closes

theorem Run.wound {s₀ s : State} {moves : List Move} (run : Run s₀ moves s) (num : Numbered s₀)
    (idle : s₀.polling = false) (quiet : ∀ m ∈ moves, m.action.isQuiet = true) :
    Wound s₀ (trace moves) s :=
  run.induct (fun _ => rfl) (fun quiet num e h => e.wound quiet num h) num quiet (wound_refl idle)

/-! ## The end of the work -/

def Stage.isQueued : Stage → Bool
  | .queued => true
  | .lookup | .fetch _ => false

/-- How many segments the work in flight takes at most once the flag is clear: two for a chain that
waits for its turn, one for all else. -/
def State.backlog (s : State) : Nat :=
  (s.chains.countP fun c => c.stage.isQueued) + s.chains.length + s.ordered.length +
    s.cycles.length + s.timers.length

def Action.isStop : Action → Bool
  | .stop => true
  | _ => false

theorem backlog_ask {s : State} (h : Numbered s) {c : Chain} (flies : c ∈ s.chains)
    (stage : c.stage = .queued) : (s.setStage c.number .lookup).backlog < s.backlog := by
  have perm := perm_cons_filter_ne (f := Chain.number) flies h.chains_nodup
  have before : (s.chains.countP fun k => k.stage.isQueued) =
      ((s.chains.filter fun k => k.number ≠ c.number).countP fun k => k.stage.isQueued) + 1 := by
    rw [perm.countP_eq, List.countP_cons, stage]
    rfl
  have after : ((s.setStage c.number .lookup).chains.countP fun k => k.stage.isQueued) ≤
      (s.chains.filter fun k => k.number ≠ c.number).countP fun k => k.stage.isQueued := by
    rw [State.setStage, List.countP_map, perm.countP_eq, List.countP_cons]
    simp only [Function.comp_apply, if_true, Stage.isQueued, Bool.false_eq_true, if_false]
    refine List.countP_mono_left fun k hk => ?_
    have other : k.number ≠ c.number := by simpa using List.of_mem_filter hk
    simp only [Function.comp_apply, if_neg other]
    exact id
  simp only [State.backlog, State.setStage, List.length_map] at after ⊢
  omega

theorem backlog_finish {s : State} (h : Numbered s) {c : Chain} (flies : c ∈ s.chains)
    (r : Except PollError Nat) : (s.finish c r).1.backlog < s.backlog := by
  have perm := perm_cons_filter_ne (f := Chain.number) flies h.chains_nodup
  have fewer := perm.length_eq
  have queued : ((s.chains.filter fun k => k.number ≠ c.number).countP fun k => k.stage.isQueued) ≤
      s.chains.countP fun k => k.stage.isQueued := List.filter_sublist.countP_le
  rw [List.length_cons] at fewer
  simp only [State.backlog, State.finish, List.length_map]
  omega

theorem backlog_collect {s : State} (h : Numbered s) {c : Cycle} (flies : c ∈ s.cycles) :
    (s.collect c).1.backlog < s.backlog := by
  have nodup := (List.nodup_append.1 h.cycles_nodup).2.1
  have cycles := (perm_cons_filter_ne (f := Cycle.number) flies nodup).length_eq
  rw [List.length_cons] at cycles
  simp only [State.backlog, collect_chains, collect_ordered, collect_cycles, collect_timers]
  omega

/-- Once the flag is clear every segment shortens the work that is left, and a further stop does not
add to it. -/
theorem Effect.backlog {view : Context} {a : Action} {s s' : State} {es : List Event}
    (e : Effect view a s es s') (quiet : a.isQuiet = true) (num : Numbered s)
    (idle : s.polling = false) : (if a.isStop then 0 else 1) + s'.backlog ≤ s.backlog := by
  have less : ∀ {n m : Nat}, n < m → (if a.isStop then 0 else 1) + n ≤ m := by
    intro n m h
    split <;> omega
  cases e with
  | install | keep | refuse | call => simp [Action.isQuiet] at quiet
  | order _ active | begin _ active | fetch _ _ _ active | deliver _ _ active =>
    rw [idle] at active; cases active
  | stop =>
    have timers : s.stop.timers.length ≤ s.timers.length := by
      unfold State.stop
      cases s.timer with
      | none => exact Nat.le_refl _
      | some t => exact List.erase_sublist.length_le
    simp only [State.backlog, State.stop, Action.isStop, if_true] at timers ⊢
    omega
  | expire runs | die runs =>
    have timers := List.length_erase_add_one runs
    refine less ?_
    simp only [State.backlog, State.retire]
    omega
  | skip waits =>
    have ordered := List.length_erase_add_one waits
    refine less ?_
    simp only [State.backlog, State.unorder]
    omega
  | ask flies resumes => exact less (backlog_ask num flies resumes.2)
  | fail flies => exact less (backlog_finish num flies _)
  | collect flies => exact less (backlog_collect num flies)

/-- **The work ends**: a run in which nobody starts anything has no more moves, stops apart, than
there was work at its beginning. -/
theorem Run.backlog_le {s₀ s : State} {moves : List Move} (run : Run s₀ moves s)
    (num : Numbered s₀) (idle : s₀.polling = false)
    (quiet : ∀ m ∈ moves, m.action.isQuiet = true) :
    (moves.countP fun m => !m.action.isStop) + s.backlog ≤ s₀.backlog := by
  induction run with
  | nil => simp
  | @snoc moves s₁ s₂ m run step ih =>
    have quiet₁ : ∀ m ∈ moves, m.action.isQuiet = true :=
      fun k hk => quiet k (List.mem_append_left _ hk)
    have last : m.action.isQuiet = true := quiet m (by simp)
    have num₁ := run.numbered num
    have wound := run.wound num idle quiet₁
    have before := ih quiet₁
    have after : (if m.action.isStop then 0 else 1) + s₂.backlog ≤ s₁.backlog := by
      have effects := step_effects num₁ step
      generalize m.events = es at effects
      cases effects with
      | one e => exact e.backlog last num₁ wound.idle
      | two e₁ e₂ =>
        have first := e₁.backlog last num₁ wound.idle
        have second := e₂.backlog rfl (e₁.numbered num₁) (e₁.wound last num₁ wound).idle
        omega
    rw [List.countP_append, List.countP_singleton]
    cases hm : m.action.isStop <;> simp [hm] at after ⊢ <;> omega

/-- The next segment of a chain in flight is always possible, whatever the network answers. -/
theorem step_of_resumes {s : State} (h : Numbered s) {c : Chain} (flies : c ∈ s.chains)
    (view : Context) {a : Action} (resumes : c.Resumes a) : (s.step view a).isSome = true := by
  have found : s.chain? c.number = some c := (chain?_eq_some_iff h).2 ⟨flies, rfl⟩
  obtain ⟨n, k, g, stage⟩ := c
  cases a with
  | lookup m =>
    obtain ⟨rfl, rfl⟩ := resumes
    simp [State.step, found]
  | lookedUp m answer pick =>
    obtain ⟨rfl, rfl⟩ := resumes
    simp [State.step, found]
  | fetched m answer =>
    obtain ⟨rfl, snode, rfl⟩ := resumes
    simp [State.step, found]
  | start | stop | call _ | tick _ | die _ | begin _ | collect _ => exact resumes.elim

/-! ## The work that a stop finds -/

/-- **A stop discards what is in flight.** Take any state that a poller can reach, stop it there and
let nobody start the timer or make a single call. Then the flag stays clear, no cycle begins chains,
no messages are asked for and none are handed over. Each chain that was in flight stays so or ends
once, with an error; what a single call returns is what its cycle had before the stop, and an error
for each of its other groups. Only so many moves are left, and while a chain is in flight its next
one is possible: so all of them end. -/
theorem stop_discards {s s' : State} {before after : List Move} (reached : Run .idle before s)
    (run : Run s.stop after s') (quiet : ∀ m ∈ after, m.action.isQuiet = true) :
    s'.polling = false ∧
    (∀ e ∈ trace after, e.isWork = false) ∧
    (ended (trace after) ++ s'.tags).Perm s.tags ∧
    (∀ n cycle o, .finished n cycle o ∈ trace after → ∃ e, o.result = .error e) ∧
    (∀ id outcomes, .returned id outcomes ∈ trace after →
      ∃ c ∈ s.cycles, c.call = some id ∧ ClosesWith s c outcomes) ∧
    (after.countP fun m => !m.action.isStop) + s'.backlog ≤ s.stop.backlog ∧
    (∀ c ∈ s'.chains, ∀ view a, c.Resumes a → (s'.step view a).isSome = true) := by
  have num : Numbered s.stop :=
    (reached.numbered numbered_idle).mono rfl rfl rfl (Nat.le_refl _)
  have wound := run.wound num rfl quiet
  refine ⟨wound.idle, wound.silent, wound.account, ?_, wound.returns,
    run.backlog_le num rfl quiet, ?_⟩
  · intro n cycle o ho
    have h := wound.failed (n, cycle, o) (List.mem_filterMap.2 ⟨_, ho, rfl⟩)
    simp only [Outcome.isError] at h
    split at h
    · cases h
    · exact ⟨_, ‹_›⟩
  · exact fun c hc view a resumes => step_of_resumes (run.numbered num) hc view resumes

/-- A single call for two groups, one of which waits for messages and the other for nodes. -/
def midway : State where
  polling := true
  timer := none
  timers := []
  ordered := []
  cycles := [⟨0, some 7, []⟩]
  chains := [⟨1, 0, "a", .fetch ⟨"127.0.0.1", 22021⟩⟩, ⟨2, 0, "b", .lookup⟩]
  next := 3

/-- After a stop there, both answers come and the call returns. -/
theorem stop_discards_midway :
    ∃ before after, Run .idle before midway ∧ Run midway.stop after { State.idle with next := 3 } ∧
      (∀ m ∈ after, m.action.isQuiet = true) ∧ (∀ e ∈ trace after, e.isWork = false) ∧
      (ended (trace after)).Perm midway.tags := by
  let view : Context := ⟨["a", "b"], fun _ => .error .noData⟩
  have reached : Run .idle _ midway :=
    play_run [(view, .call 7), (view, .lookup 1), (view, .lookup 2),
      (view, .lookedUp 1 (.ok [⟨"127.0.0.1", 22021⟩]) 0)] rfl
  have run : Run midway.stop _ { State.idle with next := 3 } :=
    play_run [(view, .fetched 1 (.ok .null)), (view, .lookedUp 2 (.ok []) 0),
      (view, .collect 0)] rfl
  have h := stop_discards reached run (by decide)
  refine ⟨_, _, reached, run, by decide, h.2.1, ?_⟩
  simpa [State.tags, State.idle] using h.2.2.1

end SealedPost.Poller

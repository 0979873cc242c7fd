import SealedPost.Proofs.Poller.Owner
import SealedPost.Proofs.Poller.Schedule

/-!
# Pollers of a timeline on the clock

Whatever owners do, each of their pollers goes its own way on the clock: at the same times and with
the same events. Its line says what waits to begin, so that no time passes before that has begun,
and its agenda says when its timer ticks. What holds of every poller on the clock therefore holds
of every poller of a timeline, the schedule of its timer among it.

- `Share.clocked`: a change of the timeline is a stroke or two of the poller on the clock, or none.
- `Deeds.clocked`: **every poller of a timeline makes a run on the clock.**
-/

namespace SealedPost.Poller

/-- **Where a poller stands on the clock**, with its jobs in line and its ticks in the agenda. -/
structure Standing (c : Clocked) (queue : List Job) (alarms : List (Nat × Nat)) : Prop where
  numbered : Numbered c.state
  coherent : Coherent c.state
  booked : Booked c.state queue
  timed : Timed c (queue.filterMap Job.tick?) alarms

namespace Standing
variable {c : Clocked} {queue rest : List Job} {alarms : List (Nat × Nat)} {view : Context}
  {a : Action}

theorem stop (h : Standing c queue alarms) : Standing c.stop queue alarms where
  numbered := h.numbered.mono rfl rfl rfl (Nat.le_refl _)
  coherent := h.coherent.stop
  booked := ⟨h.booked.cycles, h.booked.chains⟩
  timed := h.timed.congr (fun _ => of_mem_stop) (Nat.le_refl _)

/-- **A job that is possible when its turn comes is so on the clock.** -/
theorem act {job : Option Job} {es : List Event} {s : State}
    (h : Standing c (job.toList ++ rest) alarms) (prompted : Prompted job a) (period : Nat)
    (step : c.state.step view a = some (s, es)) :
    c.step period (.act view a) =
        some ([⟨⟨view, a, es⟩, c.now⟩], ⟨c.now, s, c.dueAfter period a⟩) ∧
      Standing ⟨c.now, s, c.dueAfter period a⟩ (rest ++ es.flatMap Event.prompts)
        (tickAgain (c.now + period) s a ++ alarms) := by
  have effects := step_effects h.numbered step
  have books := effects.books h.numbered
  have permitted : c.permits a = true := by
    cases a with
    | tick t =>
      obtain rfl := prompted.of_tick
      have runs : t ∈ c.state.timers := by
        by_contra ended
        simp [State.step, ended] at step
      exact decide_eq_true (h.timed.now t (by simp [Job.tick?]) runs)
    | die => cases prompted.hasPeriod
    | start | stop | call | begin | lookup | lookedUp | fetched | collect => rfl
  refine ⟨by simp [Clocked.step, step, permitted], effects.numbered h.numbered,
    effects.coherent prompted.hasPeriod h.numbered h.coherent, h.booked.act prompted books,
    h.timed.act prompted books effects.next_le⟩

theorem miss {job : Job} (h : Standing c (job :: rest) alarms) (prompts : job.prompt? = some a)
    (impossible : c.state.step view a = none) : Standing c rest alarms where
  numbered := h.numbered
  coherent := h.coherent
  booked := h.booked.miss h.numbered prompts impossible
  timed := by
    cases job with
    | tick t =>
      cases prompts
      have ended : t ∉ c.state.timers := by simpa [State.step] using impossible
      exact h.timed.miss ended
    | cycle | call | chain | lookup | nodes | fetch | collect => exact h.timed

theorem invite {queue' : List Job} {id : Nat} (h : Standing c queue alarms)
    (called : queue' = queue ++ [.call id] ∨ queue' = .call id :: queue) :
    Standing c queue' alarms where
  numbered := h.numbered
  coherent := h.coherent
  booked := h.booked.mono fun job mem => by rcases called with rfl | rfl <;> simp [mem]
  timed := by
    have none : (Job.call id).tick? = none := rfl
    have same : queue'.filterMap Job.tick? = queue.filterMap Job.tick? := by
      rcases called with rfl | rfl <;> simp [none]
    exact same ▸ h.timed

/-- **No time passes on the clock but what passes for its line**: nothing is left to begin. -/
theorem leap {ms : Nat} (h : Standing c [] alarms) (period : Nat)
    (near : ∀ a ∈ alarms, c.now + ms ≤ a.1) :
    c.step period (.wait ms) = some ([], { c with now := c.now + ms }) ∧
      Standing { c with now := c.now + ms }
        ((alarms.reverse.filter fun a => a.1 ≤ c.now + ms).map fun a => .tick a.2)
        (alarms.filter fun a => c.now + ms < a.1) := by
  have none : c.state.ordered = [] ∧ c.state.waiting = [] :=
    ⟨List.eq_nil_iff_forall_not_mem.2 fun n mem => List.not_mem_nil (h.booked.cycles n mem),
      List.eq_nil_iff_forall_not_mem.2 fun x mem => List.not_mem_nil (h.booked.chains x mem)⟩
  have soon : ∀ t ∈ c.state.timers, c.now + ms ≤ c.due t := fun t runs => by
    obtain ⟨a, waits, rfl⟩ := List.mem_map.1 ((h.timed.runs t runs).resolve_left List.not_mem_nil)
    exact h.timed.later a waits runs ▸ near a waits
  refine ⟨by simpa [Clocked.step, Clocked.rests, none] using soon, h.numbered, h.coherent, ?_, ?_⟩
  · exact ⟨fun n mem => absurd mem (by simp [none.1]), fun x mem => absurd mem (by simp [none.2])⟩
  · have ticks : ∀ l : List (Nat × Nat),
        (l.map fun a => Job.tick a.2).filterMap Job.tick? = l.map Prod.snd := fun l => by
      rw [List.filterMap_map]
      exact congrFun List.filterMap_eq_map l
    rw [ticks]
    exact h.timed.leap near

end Standing

namespace Timeline

/-- The events of moves, as they are noted of a poller. -/
def stamped (p : Nat) (moves : List TimedMove) : List Entry :=
  moves.flatMap fun m => m.events.map fun e => ⟨m.time, p, e⟩

theorem stamped_append (p : Nat) (moves more : List TimedMove) :
    stamped p (moves ++ more) = stamped p moves ++ stamped p more := List.flatMap_append

theorem entriesOf_append (p : Nat) (es later : List Entry) :
    entriesOf p (es ++ later) = entriesOf p es ++ entriesOf p later := List.filter_append ..

/-- Where a poller of a timeline is on the clock. -/
structure At (w : Timeline) (p : Nat) (c : Clocked) : Prop where
  now_eq : c.now = w.now
  state_eq : c.state = w.poller p
  standing : Standing c (w.queue p) (w.alarms p)

/-- It is there, or there once it has been stopped. -/
theorem exists_at {period p : Nat} {w : Timeline} {c : Clocked} (now : c.now = w.now)
    (standing : Standing c (w.queue p) (w.alarms p))
    (state : w.poller p = c.state ∨ w.poller p = c.state.stop) :
    ∃ moves c', Clocked.Run period c moves c' ∧ At w p c' ∧ stamped p moves = [] := by
  rcases state with same | stopped
  · exact ⟨[], c, .nil, ⟨now, same.symm, standing⟩, rfl⟩
  · exact ⟨_, c.stop, .one (Clocked.step_stop ⟨[], fun _ => .error .noData⟩),
      ⟨now, stopped.symm, standing.stop⟩, rfl⟩

theorem sound_empty {interval delay : Nat} (positive : 0 < interval) :
    Sound (empty interval delay) where
  period := positive
  numbered _ := numbered_idle
  line := nofun
  agenda := nofun

theorem at_empty (interval delay p : Nat) : At (empty interval delay) p .idle where
  now_eq := rfl
  state_eq := rfl
  standing := ⟨numbered_idle, coherent_idle, ⟨nofun, nofun⟩, ⟨nofun, nofun, nofun, .nil, nofun⟩⟩

/-! ## Changes and deeds -/

variable [Curve] {p : Nat} {w w' : Timeline} {c : Clocked}

/-- **What a change is to a poller happens on the clock.** -/
theorem Share.clocked {evs : List Event} (h : Share p w w' evs) (here : At w p c) :
    ∃ moves c', Clocked.Run w.interval c moves c' ∧ At w' p c' ∧
      stamped p moves = w.noted p evs := by
  obtain ⟨now_eq, state_eq, standing⟩ := here
  cases h with
  | aside now queue alarms state =>
    rw [← state_eq] at state
    exact exists_at (now_eq.trans now.symm) (queue ▸ alarms ▸ standing) state
  | invite id now queue alarms state =>
    exact exists_at (now_eq.trans now.symm) (alarms ▸ standing.invite queue)
      (.inl (state.trans state_eq.symm))
  | miss now first prompts impossible queue alarms state =>
    rw [← state_eq] at impossible state
    rw [first] at standing
    exact exists_at (now_eq.trans now.symm) (queue ▸ alarms ▸ standing.miss prompts impossible)
      (.inl state)
  | @act job a rest _ s now first prompted step queue alarms state =>
    rw [← state_eq] at step
    rw [← now_eq] at alarms
    rw [first] at standing
    obtain ⟨stroke, standing⟩ := standing.act prompted w.interval step
    rw [← queue, ← alarms] at standing
    obtain ⟨moves, c', run, after, none⟩ :=
      exists_at (c := ⟨c.now, s, c.dueAfter w.interval a⟩) (now_eq.trans now.symm) standing state
    refine ⟨_, c', (Clocked.Run.one stroke).append run, after, ?_⟩
    rw [stamped_append, none, List.append_nil, now_eq]
    exact List.flatMap_singleton ..
  | @leap ms now none near queue alarms state =>
    rw [none] at standing
    rw [← now_eq] at near
    obtain ⟨stroke, standing⟩ := standing.leap w.interval near
    have passed : c.now + ms = w'.now := by rw [now, now_eq]
    rw [passed, ← queue, ← alarms] at standing
    exact ⟨[], _, .one stroke, ⟨passed, state_eq.trans state.symm, passed ▸ standing⟩, rfl⟩

theorem Changes.clocked {es : List Entry} (h : Changes w es w') (sound : Sound w)
    (here : At w p c) : ∃ moves c', Clocked.Run w.interval c moves c' ∧ At w' p c' ∧
      stamped p moves = entriesOf p es := by
  induction h with
  | refl => exact ⟨[], c, .nil, here, rfl⟩
  | @snoc es es' w₁ w₂ before change ih =>
    obtain ⟨moves, c₁, run, there, same⟩ := ih
    obtain ⟨evs, share, mine⟩ := change.share (before.sound sound) p
    obtain ⟨more, c₂, run', after, same'⟩ := share.clocked there
    rw [before.interval_eq] at run'
    exact ⟨moves ++ more, c₂, run.append run', after,
      by rw [stamped_append, same, same', entriesOf_append, mine]⟩

theorem Deed.clocked (deed : Deed w w') (sound : Sound w) (here : At w p c) :
    Sound w' ∧ ∃ moves c', Clocked.Run w.interval c moves c' ∧ At w' p c' ∧
      stamped p moves = entriesOf p (w'.newsSince w) := by
  obtain ⟨w₁, es₀, es, stage, changes, news⟩ := deed.stages sound
  obtain ⟨evs, share, mine⟩ := stage.shares p
  obtain ⟨moves, c₁, run, there, same⟩ := share.clocked here
  obtain ⟨more, c₂, run', after, same'⟩ := changes.clocked stage.sound there
  rw [stage.interval_eq] at run'
  exact ⟨changes.sound stage.sound, moves ++ more, c₂, run.append run', after,
    by rw [stamped_append, same, same', news, entriesOf_append, mine]⟩

/-- Deeds one after the other, from the beginning of time, and all that was noted. -/
inductive Deeds (interval delay : Nat) : List Entry → Timeline → Prop
  | empty : Deeds interval delay [] (empty interval delay)
  | snoc {es : List Entry} {w w' : Timeline} :
      Deeds interval delay es w → Deed w w' → Deeds interval delay (es ++ w'.newsSince w) w'

/-- **Every poller of a timeline makes a run on the clock**, whatever its owners do: it comes to the
same state at the same time, and all that was noted of it are the events of its moves. -/
theorem Deeds.clocked {interval delay : Nat} {es : List Entry} (positive : 0 < interval)
    (deeds : Deeds interval delay es w) (p : Nat) :
    ∃ moves c, Clocked.Run interval .idle moves c ∧ c.now = w.now ∧ c.state = w.poller p ∧
      stamped p moves = entriesOf p es := by
  have all : Sound w ∧ w.interval = interval ∧ ∃ moves c, Clocked.Run interval .idle moves c ∧
      At w p c ∧ stamped p moves = entriesOf p es := by
    induction deeds with
    | empty =>
      exact ⟨sound_empty positive, rfl, [], .idle, .nil, at_empty interval delay p, rfl⟩
    | @snoc es w w' before deed ih =>
      obtain ⟨sound, period, moves, c, run, here, same⟩ := ih
      obtain ⟨sound', more, c', run', there, same'⟩ := deed.clocked sound here
      refine ⟨sound', deed.leads.interval_eq.trans period, moves ++ more, c',
        run.append (period ▸ run'), there, ?_⟩
      rw [stamped_append, same, same', entriesOf_append]
  obtain ⟨-, -, moves, c, run, here, same⟩ := all
  exact ⟨moves, c, run, here.now_eq, here.state_eq, same⟩

end Timeline

end SealedPost.Poller

import SealedPost.Proofs.Poller.Clock
import SealedPost.Proofs.Poller.Line

/-!
# One poller's share of a timeline

Pollers run side by side on one clock. What a change of the timeline is to one of them is its
`Share`: mostly nothing, or that the first of its jobs is done, or that time has passed.

- `Change.share`: every change has a share of each poller.
- `Booked`: what of a poller waits to begin has a job in line.
- `Timed`: every timer that runs has its tick in line when it is due, or else in the agenda.
-/

namespace SealedPost.Poller

/-! ## Jobs -/

/-- What begins when it is a job's turn. Requests and the end of a cycle begin nothing. -/
def Job.prompt? : Job → Option Action
  | .tick t => some (.tick t)
  | .cycle n => some (.begin n)
  | .call id => some (.call id)
  | .chain n => some (.lookup n)
  | .lookup _ _ _ | .nodes _ _ | .fetch _ _ _ | .collect _ => none

def Job.tick? : Job → Option Nat
  | .tick t => some t
  | _ => none

/-- The jobs that an event puts into the line, the end of a cycle apart. -/
def Event.prompts : Event → List Job
  | .started t => [.tick t]
  | .ordered _ cycle => [.cycle cycle]
  | .fannedOut _ chains => chains.map .chain
  | .lookup _ _ | .fetch _ _ _ _ | .delivered _ _ _ | .finished _ _ _ | .returned _ _ => []

/-- Whether an action needs no job that prompts it. -/
def Action.isUnprompted : Action → Bool
  | .start | .lookedUp _ _ _ | .fetched _ _ | .collect _ => true
  | .stop | .call _ | .tick _ | .die _ | .begin _ | .lookup _ => false

theorem Action.isUnprompted_of_isAnswer {a : Action} (answers : a.isAnswer = true) :
    a.isUnprompted = true := by
  cases a with
  | lookedUp | fetched => rfl
  | start | stop | call | tick | die | begin | lookup | collect => cases answers

theorem Job.of_isRequest {job : Job} (request : job.isRequest = true) :
    job.prompt? = none ∧ job.tick? = none := by
  cases job with
  | lookup | nodes | fetch => exact ⟨rfl, rfl⟩
  | tick | cycle | call | chain | collect => cases request

theorem Job.prompted {job : Job} {a : Action} (does : job.action? = some a) :
    job.prompt? = some a ∨ job.prompt? = none ∧ a.isUnprompted = true := by
  cases job with
  | cycle | call | chain => exact .inl does
  | collect =>
    cases does
    exact .inr ⟨rfl, rfl⟩
  | tick | lookup | nodes | fetch => cases does

/-- Whether a job prompts an action, or none has to. -/
def Prompted : Option Job → Action → Prop
  | some job, a => job.prompt? = some a
  | none, a => a.isUnprompted = true

namespace Prompted
variable {job : Option Job} {a : Action}

theorem hasPeriod (h : Prompted job a) : a.hasPeriod = true := by
  cases job with
  | none => cases a <;> first | rfl | cases h
  | some job => cases job <;> cases h <;> rfl

theorem of_tick {t : Nat} (h : Prompted job (.tick t)) : job = some (.tick t) := by
  cases job with
  | none => cases h
  | some job => cases job <;> cases h; rfl

/-- Only a tick is prompted by a tick. -/
theorem tick? (h : Prompted job a) (other : ∀ t, a ≠ .tick t) :
    job.toList.filterMap Job.tick? = [] := by
  cases job with
  | none => rfl
  | some job =>
    cases job with
    | tick t => exact absurd (Option.some.inj h).symm (other t)
    | cycle | call | chain | lookup | nodes | fetch | collect => rfl

end Prompted

/-! ## What waits to begin -/

/-- **What of a poller waits to begin has its job in line.** -/
structure Booked (s : State) (queue : List Job) : Prop where
  cycles : ∀ n ∈ s.ordered, .cycle n ∈ queue
  chains : ∀ x ∈ s.waiting, .chain x.1 ∈ queue

theorem cycle_mem_prompts {es : List Event} {n : Nat} (mem : n ∈ es.filterMap Event.ordered?) :
    .cycle n ∈ es.flatMap Event.prompts := by
  obtain ⟨e, he, orders⟩ := List.mem_filterMap.1 mem
  refine List.mem_flatMap.2 ⟨e, he, ?_⟩
  cases e with
  | ordered =>
    obtain rfl := Option.some.inj orders
    exact List.mem_singleton_self _
  | started | fannedOut | lookup | fetch | delivered | finished | returned => cases orders

theorem chain_mem_prompts {es : List Event} {groups : List String} {x : Nat × String}
    (mem : x ∈ es.flatMap (Event.opens groups)) : .chain x.1 ∈ es.flatMap Event.prompts := by
  obtain ⟨e, he, opens⟩ := List.mem_flatMap.1 mem
  refine List.mem_flatMap.2 ⟨e, he, ?_⟩
  cases e with
  | fannedOut => exact List.mem_map_of_mem (List.of_mem_zip opens).1
  | started | ordered | lookup | fetch | delivered | finished | returned => cases opens

/-- The ticks that events put into the line are those of the timers that they install. -/
theorem tick?_prompts (es : List Event) :
    (es.flatMap Event.prompts).filterMap Job.tick? = es.filterMap Event.started? := by
  induction es with
  | nil => rfl
  | cons e rest ih =>
    rw [List.flatMap_cons, List.filterMap_append, ih]
    cases e with
    | fannedOut _ chains =>
      have none : (chains.map Job.chain).filterMap Job.tick? = [] :=
        List.filterMap_eq_nil_iff.2 fun job mem => by
          obtain ⟨n, -, rfl⟩ := List.mem_map.1 mem
          rfl
      exact congrArg (· ++ rest.filterMap Event.started?) none
    | started | ordered | lookup | fetch | delivered | finished | returned => rfl

namespace Booked
variable {s s' : State} {view : Context} {a : Action} {es : List Event} {rest : List Job}

theorem act {job : Option Job} (h : Booked s (job.toList ++ rest)) (prompted : Prompted job a)
    (books : Books view a s es s') : Booked s' (rest ++ es.flatMap Event.prompts) where
  cycles n mem := by
    rw [books.ordered] at mem
    rcases List.mem_append.1 mem with old | new
    · obtain ⟨waits, other⟩ := List.mem_filter.1 old
      refine List.mem_append_left _ ((List.mem_append.1 (h.cycles n waits)).resolve_left ?_)
      intro mine
      rw [Option.mem_toList.1 mine] at prompted
      cases prompted
      simp [Action.begins?] at other
    · exact List.mem_append_right _ (cycle_mem_prompts new)
  chains x mem := by
    rw [books.waiting] at mem
    rcases List.mem_append.1 mem with old | new
    · obtain ⟨waits, other⟩ := List.mem_filter.1 old
      refine List.mem_append_left _ ((List.mem_append.1 (h.chains x waits)).resolve_left ?_)
      intro mine
      rw [Option.mem_toList.1 mine] at prompted
      cases prompted
      simp [Action.asks?] at other
    · exact List.mem_append_right _ (chain_mem_prompts new)

/-- Nothing waits for a job that is not possible. -/
theorem miss {job : Job} (h : Booked s (job :: rest)) (num : Numbered s)
    (prompts : job.prompt? = some a) (impossible : s.step view a = none) : Booked s rest where
  cycles n waits := by
    refine (List.mem_cons.1 (h.cycles n waits)).resolve_left ?_
    rintro rfl
    cases prompts
    simp [State.step, waits] at impossible
  chains x waits := by
    refine (List.mem_cons.1 (h.chains x waits)).resolve_left ?_
    rintro rfl
    cases prompts
    obtain ⟨⟨m, k, g, stage⟩, flies, queued, number, -⟩ := mem_waiting.1 waits
    obtain rfl : stage = .queued := queued
    simp [State.step, (chain?_eq_some_iff num).2 ⟨flies, number⟩] at impossible

theorem mono {queue queue' : List Job} (h : Booked s queue) (sub : ∀ job ∈ queue, job ∈ queue') :
    Booked s queue' := ⟨fun n mem => sub _ (h.cycles n mem), fun x mem => sub _ (h.chains x mem)⟩

end Booked

/-! ## When timers tick -/

/-- The tick that comes back at a time after an action that leads to `s`, if it was one of a timer
that still runs. -/
def tickAgain (time : Nat) (s : State) : Action → List (Nat × Nat)
  | .tick t => if s.timers.contains t then [(time, t)] else []
  | _ => []

theorem tickAgain_of_ne (time : Nat) (s : State) {a : Action} (other : ∀ t, a ≠ .tick t) :
    tickAgain time s a = [] := by
  cases a with
  | tick t => exact absurd rfl (other t)
  | start | stop | call | die | begin | lookup | lookedUp | fetched | collect => rfl

/-- **Every timer that runs ticks when it is due**: its tick is in line now, or stands in the agenda
for that time. -/
structure Timed (c : Clocked) (turns : List Nat) (alarms : List (Nat × Nat)) : Prop where
  runs : ∀ t ∈ c.state.timers, t ∈ turns ∨ t ∈ alarms.map Prod.snd
  now : ∀ t ∈ turns, t ∈ c.state.timers → c.due t = c.now
  later : ∀ a ∈ alarms, a.2 ∈ c.state.timers → c.due a.2 = a.1
  once : (turns ++ alarms.map Prod.snd).Nodup
  given : ∀ t ∈ turns ++ alarms.map Prod.snd, t < c.state.next

namespace Timed
variable {c : Clocked} {turns : List Nat} {alarms : List (Nat × Nat)} {s' : State}

theorem congr (h : Timed c turns alarms) (fewer : ∀ t ∈ s'.timers, t ∈ c.state.timers)
    (next : c.state.next ≤ s'.next) : Timed { c with state := s' } turns alarms where
  runs t mem := h.runs t (fewer t mem)
  now t mem runs := h.now t mem (fewer t runs)
  later a mem runs := h.later a mem (fewer _ runs)
  once := h.once
  given t mem := Nat.lt_of_lt_of_le (h.given t mem) next

/-- A timer that is installed is to tick at once. -/
theorem install (h : Timed c turns alarms)
    (more : ∀ t ∈ s'.timers, t ∈ c.state.timers ∨ t = c.state.next)
    (next : c.state.next < s'.next) :
    Timed ⟨c.now, s', Function.update c.due c.state.next c.now⟩ (turns ++ [c.state.next])
      alarms := by
  have fresh : ∀ t ∈ turns ++ alarms.map Prod.snd, t ≠ c.state.next := fun t mem =>
    Nat.ne_of_lt (h.given t mem)
  have perm : (turns ++ [c.state.next] ++ alarms.map Prod.snd).Perm
      (c.state.next :: (turns ++ alarms.map Prod.snd)) := by
    rw [List.append_assoc]
    exact List.perm_middle
  refine ⟨fun t mem => ?_, fun t mem runs => ?_, fun a mem runs => ?_, ?_, fun t mem => ?_⟩
  · rcases more t mem with old | rfl
    · exact (h.runs t old).imp_left (List.mem_append_left _)
    · exact .inl (List.mem_append_right _ (List.mem_singleton_self _))
  · by_cases new : t = c.state.next
    · rw [new]
      exact Function.update_self ..
    · have old := (List.mem_append.1 mem).resolve_right fun mine => new (List.mem_singleton.1 mine)
      exact (Function.update_of_ne new _ _).trans (h.now t old ((more t runs).resolve_right new))
  · have old : a.2 ≠ c.state.next := fresh _ (List.mem_append_right _ (List.mem_map_of_mem mem))
    exact (Function.update_of_ne old _ _).trans
      (h.later a mem ((more _ runs).resolve_right old))
  · exact perm.nodup_iff.2 (List.nodup_cons.2 ⟨fun mem => fresh _ mem rfl, h.once⟩)
  · rcases List.mem_cons.1 (perm.subset mem) with rfl | old
    · exact next
    · exact Nat.lt_trans (h.given t old) next

/-- One that ticks comes back after the period, if it still runs. -/
theorem tick {t period : Nat} (h : Timed c (t :: turns) alarms)
    (fewer : ∀ k ∈ s'.timers, k ∈ c.state.timers) (next : c.state.next ≤ s'.next) :
    Timed ⟨c.now, s', Function.update c.due t (c.now + period)⟩ turns
      ((if s'.timers.contains t then [(c.now + period, t)] else []) ++ alarms) := by
  obtain ⟨other, once⟩ := List.nodup_cons.1 h.once
  have kept : ∀ k ∈ turns ++ alarms.map Prod.snd, k ≠ t := fun k mem same => other (same ▸ mem)
  refine ⟨fun k mem => ?_, fun k mem runs => ?_, fun a mem runs => ?_, ?_, fun k mem => ?_⟩
  · by_cases mine : k = t
    · subst mine
      simp [mem]
    · refine (h.runs k (fewer k mem)).imp (fun turn => ?_) fun waits => ?_
      · exact (List.mem_cons.1 turn).resolve_left mine
      · rw [List.map_append]
        exact List.mem_append_right _ waits
  · refine (Function.update_of_ne (kept k (List.mem_append_left _ mem)) _ _).trans ?_
    exact h.now k (List.mem_cons_of_mem _ mem) (fewer k runs)
  · rcases List.mem_append.1 mem with again | old
    · split at again
      · rw [List.mem_singleton.1 again]
        exact Function.update_self ..
      · cases again
    · have other := kept _ (List.mem_append_right _ (List.mem_map_of_mem old))
      exact (Function.update_of_ne other _ _).trans (h.later a old (fewer _ runs))
  · split
    · exact List.perm_middle.nodup_iff.2 h.once
    · exact once
  · refine Nat.lt_of_lt_of_le (h.given k ?_) next
    split at mem
    · exact List.perm_middle.subset mem
    · exact List.mem_cons_of_mem _ mem

/-- **An action keeps the timers on time.** -/
theorem act {period : Nat} {view : Context} {job : Option Job} {a : Action} {rest : List Job}
    {es : List Event} (h : Timed c ((job.toList ++ rest).filterMap Job.tick?) alarms)
    (prompted : Prompted job a) (books : Books view a c.state es s')
    (next : c.state.next ≤ s'.next) :
    Timed ⟨c.now, s', c.dueAfter period a⟩ ((rest ++ es.flatMap Event.prompts).filterMap Job.tick?)
      (tickAgain (c.now + period) s' a ++ alarms) := by
  rw [List.filterMap_append, tick?_prompts]
  have fewer : es.filterMap Event.started? = [] → ∀ t ∈ s'.timers, t ∈ c.state.timers :=
    fun none t mem => (books.timers t mem).resolve_right (by simp [none])
  by_cases ticks : ∃ t, a = .tick t
  · obtain ⟨t, rfl⟩ := ticks
    obtain rfl := prompted.of_tick
    obtain ⟨-, none⟩ := books.started.resolve_left fun started => by cases started.1
    rw [none, List.append_nil]
    exact h.tick (fewer none) next
  · have other : ∀ t, a ≠ .tick t := fun t same => ticks ⟨t, same⟩
    rw [List.filterMap_append, prompted.tick? other, List.nil_append] at h
    rw [tickAgain_of_ne _ _ other, List.nil_append]
    rcases books.started with ⟨rfl, idle, timer, given⟩ | ⟨started, none⟩
    · have due : c.dueAfter period .start = Function.update c.due c.state.next c.now :=
        if_neg (by simp [idle])
      rw [timer, due]
      refine h.install (fun t mem => (books.timers t mem).imp_right fun new => ?_) given
      rw [timer] at new
      exact List.mem_singleton.1 new
    · rw [none, List.append_nil, Clocked.dueAfter_eq started other]
      exact h.congr (fewer none) next

/-- One that no longer runs does not tick. -/
theorem miss {t : Nat} (h : Timed c (t :: turns) alarms) (ended : t ∉ c.state.timers) :
    Timed c turns alarms where
  runs k mem := (h.runs k mem).imp_left fun turn =>
    (List.mem_cons.1 turn).resolve_left fun same => ended (same ▸ mem :)
  now k mem := h.now k (List.mem_cons_of_mem _ mem)
  later := h.later
  once := (List.nodup_cons.1 h.once).2
  given k mem := h.given k (List.mem_cons_of_mem _ mem)

/-- Time passes, no further than to the next tick. -/
theorem leap {ms : Nat} (h : Timed c [] alarms) (near : ∀ a ∈ alarms, c.now + ms ≤ a.1) :
    Timed { c with now := c.now + ms }
      ((alarms.reverse.filter fun a => a.1 ≤ c.now + ms).map Prod.snd)
      (alarms.filter fun a => c.now + ms < a.1) := by
  have split : ((alarms.reverse.filter fun a => a.1 ≤ c.now + ms).map Prod.snd ++
      (alarms.filter fun a => c.now + ms < a.1).map Prod.snd).Perm (alarms.map Prod.snd) := by
    rw [← List.map_append]
    refine List.Perm.map _ (((List.reverse_perm alarms).filter _).append_right _ |>.trans ?_)
    have others : (alarms.filter fun a => c.now + ms < a.1) =
        alarms.filter fun a => !decide (a.1 ≤ c.now + ms) :=
      List.filter_congr fun a _ => by simp only [← decide_not, Nat.not_le]
    rw [others]
    exact List.filter_append_perm _ alarms
  refine ⟨fun t mem => ?_, fun t mem runs => ?_, fun a mem => h.later a (List.mem_of_mem_filter mem),
    split.nodup_iff.2 h.once, fun t mem => h.given t (split.subset mem)⟩
  · exact List.mem_append.1 (split.symm.subset ((h.runs t mem).resolve_left List.not_mem_nil))
  · obtain ⟨a, due, rfl⟩ := List.mem_map.1 mem
    obtain ⟨waits, early⟩ := List.mem_filter.1 due
    have waits := List.mem_reverse.1 waits
    have early := of_decide_eq_true early
    exact (h.later a waits runs).trans (Nat.le_antisymm early (near a waits))

end Timed

namespace Timeline

/-! ## Jobs and alarms of one poller -/

/-- The jobs of a poller among tasks, as far as they begin something. -/
def jobsOf (p : Nat) (tasks : List Task) : List Job :=
  tasks.filterMap fun task =>
    if task.poller = p ∧ task.job.prompt?.isSome then some task.job else none

/-- The jobs of a poller in line, as far as they begin something. -/
def queue (w : Timeline) (p : Nat) : List Job := jobsOf p w.line

/-- The ticks of a poller among what waits for a time. -/
def alarmsOf (p : Nat) (agenda : List (Nat × Task)) : List (Nat × Nat) :=
  agenda.filterMap fun a => if a.2.poller = p then a.2.job.tick?.map (a.1, ·) else none

/-- The ticks of a poller that wait for a time. -/
def alarms (w : Timeline) (p : Nat) : List (Nat × Nat) := alarmsOf p w.agenda

theorem jobsOf_append (p : Nat) (tasks later : List Task) :
    jobsOf p (tasks ++ later) = jobsOf p tasks ++ jobsOf p later := List.filterMap_append

theorem jobsOf_cons_of_prompt? {p : Nat} {job : Job} {a : Action} (prompts : job.prompt? = some a)
    (rest : List Task) : jobsOf p (⟨p, job⟩ :: rest) = job :: jobsOf p rest := by
  simp [jobsOf, prompts]

theorem jobsOf_cons_of_none {p q : Nat} {job : Job} (none : job.prompt? = none)
    (rest : List Task) : jobsOf p (⟨q, job⟩ :: rest) = jobsOf p rest := by
  simp [jobsOf, none]

theorem jobsOf_cons_of_ne {p q : Nat} (other : q ≠ p) (job : Job) (rest : List Task) :
    jobsOf p (⟨q, job⟩ :: rest) = jobsOf p rest := by
  simp [jobsOf, other]

theorem jobsOf_followUps (p : Nat) (s : State) (es : List Event) :
    jobsOf p (es.flatMap (followUps p s)) = es.flatMap Event.prompts := by
  rw [jobsOf, List.filterMap_flatMap]
  congr 1
  funext e
  cases e with
  | fannedOut => simp [followUps, Event.prompts, List.filterMap_map, Job.prompt?]
  | finished =>
    simp only [followUps]
    split
    · exact jobsOf_cons_of_none rfl []
    · rfl
  | started | ordered => simp [followUps, Event.prompts, Job.prompt?]
  | lookup | fetch | delivered | returned => rfl

theorem jobsOf_followUps_ne {p q : Nat} (other : q ≠ p) (s : State) (es : List Event) :
    jobsOf p (es.flatMap (followUps q s)) = [] := by
  refine List.filterMap_eq_nil_iff.2 fun task mem => ?_
  rw [poller_followUps task mem, if_neg fun h => other h.1]

/-- What comes due of the agenda is ticks, as far as it begins something. -/
theorem jobsOf_due (p : Nat) {agenda : List (Nat × Task)}
    (waits : ∀ a ∈ agenda, a.2.job.action? = none) (ms : Nat) :
    jobsOf p ((agenda.filter fun a => a.1 ≤ ms).map Prod.snd) =
      ((alarmsOf p agenda).filter fun a => a.1 ≤ ms).map fun a => .tick a.2 := by
  rw [jobsOf, List.filterMap_map, List.filterMap_filter, alarmsOf, List.filter_filterMap,
    List.map_filterMap]
  refine List.filterMap_congr fun a mem => ?_
  have waits := waits a mem
  obtain ⟨time, q, job⟩ := a
  cases job with
  | tick t => by_cases own : q = p <;> simp [own, Option.filter, Job.prompt?, Job.tick?]
  | lookup | nodes | fetch => simp [Job.prompt?, Job.tick?]
  | cycle | call | chain | collect => cases waits

theorem alarmsOf_cons_tick (p t time : Nat) (rest : List (Nat × Task)) :
    alarmsOf p ((time, ⟨p, .tick t⟩) :: rest) = (time, t) :: alarmsOf p rest := by
  simp [alarmsOf, Job.tick?]

theorem alarmsOf_cons_of_ne {p q : Nat} (other : q ≠ p) (time : Nat) (job : Job)
    (rest : List (Nat × Task)) : alarmsOf p ((time, ⟨q, job⟩) :: rest) = alarmsOf p rest := by
  simp [alarmsOf, other]

theorem alarmsOf_cons_of_none {p q : Nat} {job : Job} (none : job.tick? = none) (time : Nat)
    (rest : List (Nat × Task)) : alarmsOf p ((time, ⟨q, job⟩) :: rest) = alarmsOf p rest := by
  simp [alarmsOf, none]

theorem alarmsOf_filter (p : Nat) (agenda : List (Nat × Task)) (ms : Nat) :
    alarmsOf p (agenda.filter fun a => ms < a.1) =
      (alarmsOf p agenda).filter fun a => ms < a.1 := by
  rw [alarmsOf, alarmsOf, List.filterMap_filter, List.filter_filterMap]
  congr 1
  funext a
  by_cases own : a.2.poller = p
  · cases a.2.job.tick? <;> simp [own, Option.filter]
  · simp [own]

/-- The entries of one poller. -/
def entriesOf (p : Nat) (es : List Entry) : List Entry := es.filter fun e => e.poller = p

theorem entriesOf_noted (w : Timeline) (p : Nat) (evs : List Event) :
    entriesOf p (w.noted p evs) = w.noted p evs := by
  refine List.filter_eq_self.2 fun e he => ?_
  obtain ⟨_, -, rfl⟩ := List.mem_map.1 he
  simp

theorem entriesOf_noted_ne (w : Timeline) {p q : Nat} (other : q ≠ p) (evs : List Event) :
    entriesOf p (w.noted q evs) = [] := by
  refine List.filter_eq_nil_iff.2 fun e he => ?_
  obtain ⟨_, -, rfl⟩ := List.mem_map.1 he
  simpa using other

/-- A job at the front is another poller's. -/
theorem queue_behind_of_ne (w : Timeline) {p q : Nat} (other : q ≠ p) (job : Job) :
    (w.behind [⟨q, job⟩]).queue p = w.queue p := jobsOf_cons_of_ne other job w.line

/-! ## Shares -/

/-- No call returns with a tick. -/
theorem not_returned_of_tick {view : Context} {s s' : State} {t id : Nat} {outcomes : List Outcome}
    {es : List Event} (step : s.step view (.tick t) = some (s', es)) :
    .returned id outcomes ∉ es := by
  simp only [State.step, Option.ite_none_right_eq_some, Option.some.injEq] at step
  obtain ⟨-, step⟩ := step
  unfold State.tick at step
  split at step
  · obtain ⟨-, rfl⟩ := Prod.mk.inj step
    simp
  · obtain ⟨-, rfl⟩ := Prod.mk.inj step
    simp

/-- **What a change is to one poller**, and its events. -/
inductive Share [Curve] (p : Nat) (w w' : Timeline) : List Event → Prop
  /-- It is somebody else's, or what is on its way; or it stops the poller. -/
  | aside (now : w'.now = w.now) (queue : w'.queue p = w.queue p)
      (alarms : w'.alarms p = w.alarms p)
      (state : w'.poller p = w.poller p ∨ w'.poller p = (w.poller p).stop) : Share p w w' []
  /-- Somebody makes a single call. -/
  | invite (id : Nat) (now : w'.now = w.now)
      (queue : w'.queue p = w.queue p ++ [.call id] ∨ w'.queue p = .call id :: w.queue p)
      (alarms : w'.alarms p = w.alarms p) (state : w'.poller p = w.poller p) : Share p w w' []
  /-- The first of its jobs is no longer possible. -/
  | miss {job : Job} {a : Action} {rest : List Job} (now : w'.now = w.now)
      (first : w.queue p = job :: rest) (prompts : job.prompt? = some a)
      (impossible : (w.poller p).step (Context.ofStore w.store) a = none)
      (queue : w'.queue p = rest) (alarms : w'.alarms p = w.alarms p)
      (state : w'.poller p = w.poller p) : Share p w w' []
  /-- The first of its jobs is done, or something that needs no job; that can stop the poller. -/
  | act {job : Option Job} {a : Action} {rest : List Job} {es : List Event} {s : State}
      (now : w'.now = w.now) (first : w.queue p = job.toList ++ rest) (prompted : Prompted job a)
      (step : (w.poller p).step (Context.ofStore w.store) a = some (s, es))
      (queue : w'.queue p = rest ++ es.flatMap Event.prompts)
      (alarms : w'.alarms p = tickAgain (w.now + w.interval) s a ++ w.alarms p)
      (state : w'.poller p = s ∨ w'.poller p = s.stop) : Share p w w' es
  /-- Time passes, while none of its jobs is in line. -/
  | leap {ms : Nat} (now : w'.now = w.now + ms) (none : w.queue p = [])
      (near : ∀ a ∈ w.alarms p, w.now + ms ≤ a.1)
      (queue : w'.queue p =
        ((w.alarms p).reverse.filter fun a => a.1 ≤ w'.now).map fun a => .tick a.2)
      (alarms : w'.alarms p = (w.alarms p).filter fun a => w'.now < a.1)
      (state : w'.poller p = w.poller p) : Share p w w' []

variable [Curve]

/-- An action of another poller. -/
theorem perform_elsewhere (w : Timeline) {p q : Nat} (other : q ≠ p) (a : Action) :
    (w.perform q a).1.poller p = w.poller p ∧ (w.perform q a).1.queue p = w.queue p := by
  rcases perform_cases w q a with ⟨still, -⟩ | ⟨s', done⟩
  · rw [still]
    exact ⟨rfl, rfl⟩
  · refine ⟨?_, ?_⟩
    · rw [done.follows.others p (Ne.symm other)]
      exact poller_set_ne w (Ne.symm other) s'
    · rw [queue, done.follows.line_eq, jobsOf_append, jobsOf_followUps_ne other, List.append_nil]
      rfl

theorem alarms_perform (w : Timeline) (p q : Nat) (a : Action) :
    (w.perform q a).1.alarms p = w.alarms p := by
  rw [alarms, (perform_frame w q a).agenda_eq]
  rfl

/-- An action of its own. It stops the poller at most if a call returns with it. -/
theorem perform_own {w : Timeline} {p : Nat} (known : p < w.pollers.length) (a : Action) :
    (w.perform p a = (w, []) ∧ (w.poller p).step (Context.ofStore w.store) a = none) ∨
      ∃ s, (w.poller p).step (Context.ofStore w.store) a = some (s, (w.perform p a).2) ∧
        (w.perform p a).1.queue p = w.queue p ++ (w.perform p a).2.flatMap Event.prompts ∧
        ((w.perform p a).1.poller p = s ∨ (w.perform p a).1.poller p = s.stop ∧
          ∃ id outcomes, .returned id outcomes ∈ (w.perform p a).2) := by
  rcases perform_cases w p a with still | ⟨s, done⟩
  · exact .inl still
  · refine .inr ⟨s, done.step, ?_, ?_⟩
    · rw [queue, done.follows.line_eq, jobsOf_append, jobsOf_followUps]
      rfl
    · have own := done.follows.own
      rwa [poller_set_self known] at own

theorem share_work {w : Timeline} {p : Nat} (known : p < w.pollers.length) {job : Job} {a : Action}
    (does : job.action? = some a) :
    Share p (w.behind [⟨p, job⟩]) (w.perform p a).1 (w.perform p a).2 := by
  have again : ∀ time s, tickAgain time s a = [] := by
    intro time s
    cases job <;> cases does <;> rfl
  rcases Job.prompted does with prompts | ⟨none, unprompted⟩
  · have front : (w.behind [⟨p, job⟩]).queue p = job :: w.queue p :=
      jobsOf_cons_of_prompt? prompts _
    rcases perform_own known a with ⟨still, impossible⟩ | ⟨s, step, queue, state⟩
    · rw [still]
      exact .miss rfl front prompts impossible rfl rfl rfl
    · have front : (w.behind [⟨p, job⟩]).queue p = (some job).toList ++ w.queue p := front
      refine .act (perform_frame w p a).now_eq front prompts step queue ?_
        (state.imp_right And.left)
      rw [again]
      exact alarms_perform w p p a
  · have front : (w.behind [⟨p, job⟩]).queue p = w.queue p := jobsOf_cons_of_none none _
    rcases perform_own known a with ⟨still, impossible⟩ | ⟨s, step, queue, state⟩
    · rw [still]
      exact .aside rfl front.symm rfl (.inl rfl)
    · have front : (w.behind [⟨p, job⟩]).queue p = (Option.none : Option Job).toList ++ w.queue p :=
        front
      refine .act (perform_frame w p a).now_eq front unprompted step queue ?_
        (state.imp_right And.left)
      rw [again]
      exact alarms_perform w p p a

/-- What needs no job to prompt it is done at any time. -/
theorem share_unprompted {w : Timeline} {p : Nat} (known : p < w.pollers.length) {a : Action}
    (unprompted : a.isUnprompted = true) :
    Share p w (w.perform p a).1 (w.perform p a).2 := by
  have other : ∀ t, a ≠ .tick t := by
    rintro t rfl
    cases unprompted
  rcases perform_own known a with ⟨still, impossible⟩ | ⟨s, step, queue, state⟩
  · rw [still]
    exact .aside rfl rfl rfl (.inl rfl)
  · have front : w.queue p = (none : Option Job).toList ++ w.queue p := rfl
    refine .act (perform_frame w p a).now_eq front unprompted step queue ?_
      (state.imp_right And.left)
    rw [tickAgain_of_ne _ s other]
    exact alarms_perform w p p a

theorem share_tick {w : Timeline} (period : 0 < w.interval) {p : Nat} (known : p < w.pollers.length)
    (t : Nat) : Share p (w.behind [⟨p, .tick t⟩]) (w.runTick p t) (w.perform p (.tick t)).2 := by
  have front : (w.behind [⟨p, .tick t⟩]).queue p = (some (.tick t)).toList ++ w.queue p :=
    jobsOf_cons_of_prompt? rfl _
  rcases perform_own known (.tick t) with ⟨still, impossible⟩ | ⟨s, step, queue, state⟩
  · have ended : (w.poller p).timers.contains t = false := by
      simpa [State.step] using impossible
    have same : w.runTick p t = w := by
      rcases runTick_eq period p t with ⟨-, same⟩ | ⟨runs, -⟩
      · rw [same, still]
      · rw [still] at runs
        exact absurd (runs.symm.trans ended) (by simp)
    rw [same, still]
    exact .miss rfl front rfl impossible rfl rfl rfl
  · have now := (perform_frame w p (.tick t)).now_eq
    have kept := alarms_perform w p p (.tick t)
    have state : (w.perform p (.tick t)).1.poller p = s := by
      rcases state with same | ⟨_, _, _, returns⟩
      · exact same
      · exact absurd returns (not_returned_of_tick step)
    rcases runTick_eq period p t with ⟨ended, same⟩ | ⟨runs, same⟩
    · rw [same]
      refine .act now front rfl step queue ?_ (.inl state)
      rw [tickAgain, if_neg (by simpa [state] using ended)]
      exact kept
    · rw [same]
      refine .act now front rfl step queue ?_ (.inl state)
      have again : ∀ time, tickAgain time s (.tick t) = [(time, t)] := fun _ =>
        if_pos (state ▸ runs)
      have kept : alarmsOf p (w.perform p (.tick t)).1.agenda = w.alarms p := kept
      rw [again, alarms, schedule, alarmsOf_cons_tick, now, kept]
      rfl

/-- What is another poller's job. -/
theorem share_work_elsewhere (w : Timeline) {p q : Nat} (other : q ≠ p) (job : Job) (a : Action) :
    Share p (w.behind [⟨q, job⟩]) (w.perform q a).1 [] := by
  obtain ⟨state, queue⟩ := perform_elsewhere w other a
  exact .aside (perform_frame w q a).now_eq (queue.trans (queue_behind_of_ne w other job).symm)
    (alarms_perform w p q a) (.inl state)

theorem share_tick_elsewhere {w : Timeline} (period : 0 < w.interval) {p q : Nat} (other : q ≠ p)
    (t : Nat) : Share p (w.behind [⟨q, .tick t⟩]) (w.runTick q t) [] := by
  obtain ⟨state, queue⟩ := perform_elsewhere w other (.tick t)
  have now := (perform_frame w q (.tick t)).now_eq
  have alarms := alarms_perform w p q (.tick t)
  have queue := queue.trans (queue_behind_of_ne w other (.tick t)).symm
  rcases runTick_eq period q t with ⟨-, same⟩ | ⟨-, same⟩
  · rw [same]
    exact .aside now queue alarms (.inl state)
  · rw [same]
    exact .aside now queue ((alarmsOf_cons_of_ne other _ _ _).trans alarms) (.inl state)

theorem share_leap {w : Timeline} (sound : Sound w) {ms : Nat} (none : w.line = [])
    (near : ∀ a ∈ w.agenda, w.now + ms ≤ a.1) (p : Nat) : Share p w (w.leap ms) [] := by
  refine .leap rfl ?_ (fun a ha => ?_) ?_ (alarmsOf_filter p w.agenda _) rfl
  · rw [queue, none]
    rfl
  · obtain ⟨x, hx, mine⟩ := List.mem_filterMap.1 ha
    split at mine
    · obtain ⟨t, -, rfl⟩ := Option.map_eq_some_iff.1 mine
      exact near x hx
    · cases mine
  · have waits : ∀ a ∈ w.agenda.reverse, a.2.job.action? = Option.none := fun a ha =>
      (sound.agenda a (List.mem_reverse.1 ha)).2.2
    rw [queue, Timeline.leap, jobsOf_append, none, jobsOf_due p waits, alarmsOf,
      List.filterMap_reverse]
    rfl

/-- **Every change has a share of each poller**, with those of its entries that are the poller's. -/
theorem Change.share {w w' : Timeline} {es : List Entry} (h : Change w es w') (sound : Sound w)
    (p : Nat) : ∃ evs, Share p w w' evs ∧ entriesOf p es = w.noted p evs := by
  have taken : ∀ {task : Task} {rest : List Task}, w.line = task :: rest →
      w = Timeline.behind { w with line := rest } [task] := by
    intro task rest first
    rw [Timeline.behind, List.singleton_append, ← first]
  cases h with
  | @work q job rest a first does =>
    obtain ⟨-, known⟩ := sound.take first
    have cut := taken first
    generalize ({ w with line := rest } : Timeline) = w₀ at *
    subst cut
    by_cases own : q = p
    · subst own
      exact ⟨_, share_work (w := w₀) known does, entriesOf_noted w₀ q _⟩
    · exact ⟨[], share_work_elsewhere w₀ own job a, entriesOf_noted_ne w₀ own _⟩
  | @tick q t rest first =>
    obtain ⟨⟨⟨period, -⟩, -, -⟩, known⟩ := sound.take first
    have cut := taken first
    generalize ({ w with line := rest } : Timeline) = w₀ at *
    subst cut
    by_cases own : q = p
    · subst own
      exact ⟨_, share_tick period known t, entriesOf_noted w₀ q _⟩
    · exact ⟨[], share_tick_elsewhere period own t, entriesOf_noted_ne w₀ own _⟩
  | @take q job rest first request =>
    have cut := taken first
    generalize ({ w with line := rest } : Timeline) = w₀ at *
    subst cut
    have none := (Job.of_isRequest request).1
    exact ⟨[], .aside rfl (jobsOf_cons_of_none none w₀.line).symm rfl (.inl rfl), rfl⟩
  | @answer q a known answers =>
    by_cases own : q = p
    · subst own
      have unprompted := Action.isUnprompted_of_isAnswer answers
      exact ⟨_, share_unprompted known unprompted, entriesOf_noted w q _⟩
    · obtain ⟨state, queue⟩ := perform_elsewhere w own a
      exact ⟨[], .aside (perform_frame w q a).now_eq queue (alarms_perform w p q a) (.inl state),
        entriesOf_noted_ne w own _⟩
  | @send delay q job known positive request =>
    have none := (Job.of_isRequest request).2
    exact ⟨[], .aside rfl rfl (alarmsOf_cons_of_none none _ _) (.inl rfl), rfl⟩
  | serve service => exact ⟨[], .aside rfl rfl rfl (.inl rfl), rfl⟩
  | leap positive none near => exact ⟨[], share_leap sound none near p, rfl⟩

end Timeline

end SealedPost.Poller

import Mathlib.Data.List.Perm.Basic
import SealedPost.Proofs.Poller.Course

/-!
# What waits for its turn

A cycle that a timer has ordered and a chain that a cycle has opened wait until it is their turn, and
a poller keeps books on both. Here an action is held against them: whatever it does, the books lose
what it begins and gain what its events order and open (`Effects.books`). While the flag is set, a
cycle begins only if a timer has ordered it (`Effects.fanned`).
-/

namespace SealedPost.Poller

/-! ## Books -/

/-- The chains that have not begun, with their groups. -/
def State.waiting (s : State) : List (Nat × String) :=
  (s.chains.filter fun c => c.stage = .queued).map fun c => (c.number, c.group)

/-- The cycle that an action begins. -/
def Action.begins? : Action → Option Nat
  | .begin n => some n
  | _ => none

/-- The chain that an action begins. -/
def Action.asks? : Action → Option Nat
  | .lookup n => some n
  | _ => none

/-- The cycle that an event orders. -/
def Event.ordered? : Event → Option Nat
  | .ordered _ n => some n
  | _ => none

/-- The timer that is installed with an event. -/
def Event.started? : Event → Option Nat
  | .started t => some t
  | _ => none

/-- The cycle that begins with an event. -/
def Event.fanned? : Event → Option Nat
  | .fannedOut cycle _ => some cycle
  | _ => none

/-- The chains that an event opens for the groups. -/
def Event.opens (groups : List String) : Event → List (Nat × String)
  | .fannedOut _ chains => chains.zip groups
  | _ => []

/-- The chain whose lookup an event tells of, and its group. -/
def Event.asked? : Event → Option (Nat × String)
  | .lookup n group => some (n, group)
  | _ => none

theorem mem_waiting {s : State} {x : Nat × String} :
    x ∈ s.waiting ↔ ∃ c ∈ s.chains, c.stage = .queued ∧ c.number = x.1 ∧ c.group = x.2 := by
  simp [State.waiting, Prod.ext_iff, and_assoc]

theorem nodup_waiting {s : State} (h : Numbered s) : (s.waiting.map Prod.fst).Nodup := by
  have sub : (s.waiting.map Prod.fst).Sublist (s.chains.map Chain.number) := by
    simpa [State.waiting, Function.comp_def] using List.filter_sublist.map Chain.number
  exact h.chains_nodup.sublist sub

/-- A chain that waits for an answer is not among those that have not begun. -/
theorem not_mem_waiting {s : State} (h : Numbered s) {c : Chain} (flies : c ∈ s.chains)
    (begun : c.stage ≠ .queued) : ∀ x ∈ s.waiting, x.1 ≠ c.number := by
  intro x hx number
  obtain ⟨k, hk, queued, same, -⟩ := mem_waiting.1 hx
  rw [h.chain_eq hk flies (same.trans number)] at queued
  exact begun queued

theorem waiting_chainsFor (cycle first : Nat) (groups : List String) :
    ((State.chainsFor cycle first groups).filter fun c => c.stage = .queued).map
        (fun c => (c.number, c.group)) =
      ((State.chainsFor cycle first groups).map Chain.number).zip groups := by
  induction groups generalizing first with
  | nil => rfl
  | cons g rest ih => simp [State.chainsFor, ih]

theorem waiting_fanOut (s : State) (cycle : Nat) (call : Option Nat) (groups : List String) :
    (s.fanOut cycle call groups).1.waiting = s.waiting ++
      (s.fanOut cycle call groups).2.flatMap (Event.opens groups) := by
  simp only [State.waiting, State.fanOut, List.filter_append, List.map_append, waiting_chainsFor,
    List.flatMap_singleton, Event.opens]

theorem waiting_finish (s : State) (c : Chain) (r : Except PollError Nat) :
    (s.finish c r).1.waiting = s.waiting.filter fun x => x.1 ≠ c.number := by
  simp only [State.waiting, State.finish, List.filter_map, List.filter_filter]
  congr 1
  refine List.filter_congr fun k _ => ?_
  simp [Bool.and_comm]

theorem waiting_setStage (s : State) (n : Nat) {stage : Stage} (begun : stage ≠ .queued) :
    (s.setStage n stage).waiting = s.waiting.filter fun x => x.1 ≠ n := by
  obtain ⟨polling, timer, timers, ordered, cycles, chains, next⟩ := s
  simp only [State.waiting, State.setStage]
  induction chains with
  | nil => rfl
  | cons c rest ih =>
    by_cases own : c.number = n
    · by_cases queued : c.stage = .queued <;> simp_all
    · by_cases queued : c.stage = .queued <;> simp_all

/-! ## What an action does to them -/

section
variable {view : Context} {a : Action} {s s' : State} {es : List Event}

/-- A chain fails when it is answered, and not when it begins. -/
theorem of_failure {polling : Bool} {f : PollError} (failure : failure? polling a = some f) :
    a.asks? = none ∧ a.begins? = none ∧ a ≠ .start ∧ a ≠ .stop := by
  cases a with
  | lookedUp | fetched => exact ⟨rfl, rfl, nofun, nofun⟩
  | lookup | start | stop | call | tick | die | begin | collect => cases failure

theorem begun_of_failure {polling : Bool} {c : Chain} {f : PollError} (resumes : c.Resumes a)
    (failure : failure? polling a = some f) : c.stage ≠ .queued := by
  cases a with
  | lookedUp => simp [resumes.2]
  | fetched =>
    obtain ⟨-, snode, stage⟩ := resumes
    simp [stage]
  | lookup | start | stop | call | tick | die | begin | collect => cases failure

/-- Nothing is read off a chain that hands its messages over and ends. -/
theorem flatMap_deliver {α : Type} {f : Event → List α} {c : Chain} {r : Except PollError Nat}
    (delivered : ∀ n e m, f (.delivered n e m) = []) (finished : ∀ n k o, f (.finished n k o) = [])
    (ms : List (Envelope × Message)) :
    ((ms.map fun m => Event.delivered c.number m.1 m.2) ++ (s.finish c r).2).flatMap f = [] := by
  simp [List.flatMap_map, State.finish, delivered, finished]

theorem filterMap_deliver {α : Type} {f : Event → Option α} {c : Chain} {r : Except PollError Nat}
    (delivered : ∀ n e m, f (.delivered n e m) = none)
    (finished : ∀ n k o, f (.finished n k o) = none) (ms : List (Envelope × Message)) :
    ((ms.map fun m => Event.delivered c.number m.1 m.2) ++ (s.finish c r).2).filterMap f = [] := by
  simp [List.filterMap_map, State.finish, delivered, finished]

/-- The end of a cycle only tells of the return of a call. -/
theorem of_mem_collect {c : Cycle} {x : Event} (hx : x ∈ (s.collect c).2) :
    ∃ id outcomes, x = .returned id outcomes := by
  unfold State.collect at hx
  cases call : c.call with
  | none => simp [call] at hx
  | some id =>
    simp only [call, List.mem_singleton] at hx
    exact ⟨id, _, hx⟩

/-- Nothing is read off the return of a call. -/
theorem flatMap_returned {α : Type} {f : Event → List α} (none : ∀ id o, f (.returned id o) = [])
    (ends : ∀ x ∈ es, ∃ id outcomes, x = .returned id outcomes) : es.flatMap f = [] := by
  refine List.flatMap_eq_nil_iff.2 fun x hx => ?_
  obtain ⟨id, outcomes, rfl⟩ := ends x hx
  exact none id outcomes

theorem filterMap_returned {α : Type} {f : Event → Option α}
    (none : ∀ id o, f (.returned id o) = none)
    (ends : ∀ x ∈ es, ∃ id outcomes, x = .returned id outcomes) : es.filterMap f = [] := by
  refine List.filterMap_eq_nil_iff.2 fun x hx => ?_
  obtain ⟨id, outcomes, rfl⟩ := ends x hx
  exact none id outcomes

/-- A cycle that a timer ordered is ordered no longer when it begins. -/
theorem Effect.ordered (e : Effect view a s es s') (h : Numbered s) :
    s'.ordered = (s.ordered.filter fun n => a.begins? ≠ some n) ++ es.filterMap Event.ordered? := by
  have begun : ∀ n, s.ordered.erase n = s.ordered.filter fun k => some n ≠ some k := fun n => by
    rw [(List.nodup_append.1 h.cycles_nodup).1.erase_eq_filter]
    exact List.filter_congr fun k _ => by simp [eq_comm, bne, Bool.beq_eq_decide_eq]
  cases e with
  | install | keep | stop | refuse | expire | die | ask | fetch | order | call =>
    simp [Action.begins?, Event.ordered?, State.stop, State.retire, State.setStage, State.fanOut,
      State.claim]
  | @skip _ n => simpa [State.unorder, Action.begins?] using begun n
  | @begin _ n =>
    rw [List.filterMap_eq_nil_iff.2 (by simp [State.fanOut, Event.ordered?]), List.append_nil]
    exact begun n
  | fail _ _ failure => simp [(of_failure failure).2.1, State.finish, Event.ordered?]
  | deliver =>
    rw [filterMap_deliver (fun _ _ _ => rfl) fun _ _ _ => rfl]
    simp [State.finish, Action.begins?]
  | collect =>
    rw [collect_ordered, filterMap_returned (fun _ _ => rfl) fun _ => of_mem_collect]
    simp [Action.begins?]

/-- The chains that have not begun lose the one that begins, and gain those that a cycle opens. -/
theorem Effect.waiting (e : Effect view a s es s') (h : Numbered s) :
    s'.waiting = (s.waiting.filter fun x => a.asks? ≠ some x.1) ++
      es.flatMap (Event.opens view.groups) := by
  have others : ∀ {c : Chain}, c ∈ s.chains → c.stage ≠ .queued →
      (s.waiting.filter fun x => x.1 ≠ c.number) = s.waiting := fun flies begun =>
    List.filter_eq_self.2 fun x hx => by simpa using not_mem_waiting h flies begun x hx
  have landed : ∀ {c : Chain} {r : Except PollError Nat}, c ∈ s.chains → c.stage ≠ .queued →
      (s.finish c r).1.waiting = s.waiting := fun {c r} flies begun => by
    rw [waiting_finish, others flies begun]
  cases e with
  | install | keep | stop | refuse | order | expire | die | skip =>
    simp [Action.asks?, Event.opens] <;> rfl
  | call | begin => simp [waiting_fanOut, Action.asks?]; rfl
  | ask flies resumes => simp [waiting_setStage, Action.asks?, Event.opens, eq_comm]
  | fetch flies resumes =>
    rw [waiting_setStage _ _ (by simp), others flies (by simp [resumes.2])]
    simp [Action.asks?, Event.opens]
  | fail flies resumes failure =>
    rw [landed flies (begun_of_failure resumes failure)]
    simp [(of_failure failure).1, State.finish, Event.opens]
  | deliver flies resumes =>
    obtain ⟨-, snode, stage⟩ := resumes
    rw [landed flies (by simp [stage]), flatMap_deliver (fun _ _ _ => rfl) fun _ _ _ => rfl]
    simp [Action.asks?]
  | @collect _ c =>
    have same : (s.collect c).1.waiting = s.waiting := by simp [State.waiting]
    rw [same, flatMap_returned (fun _ _ => rfl) fun _ => of_mem_collect]
    simp [Action.asks?]

/-- The chain that begins is one of them, and its lookup is what is seen of it. -/
theorem Effect.asked (e : Effect view a s es s') (h : Numbered s) :
    (es.filterMap Event.asked? ++ s.waiting.filter fun x => a.asks? ≠ some x.1).Perm
      s.waiting := by
  have none : a.asks? = none → es.filterMap Event.asked? = [] →
      (es.filterMap Event.asked? ++ s.waiting.filter fun x => a.asks? ≠ some x.1).Perm
        s.waiting := fun begun silent => by simp [begun, silent]
  cases e with
  | install | keep | stop | refuse | order | expire | die | skip | call | begin | fetch =>
    exact none rfl rfl
  | @ask _ c flies resumes =>
    have mine : (c.number, c.group) ∈ s.waiting :=
      mem_waiting.2 ⟨c, flies, resumes.2, rfl, rfl⟩
    have others : (s.waiting.filter fun x => Action.asks? (.lookup c.number) ≠ some x.1) =
        s.waiting.filter fun x => x.1 ≠ c.number :=
      List.filter_congr fun x _ => by simp [Action.asks?, eq_comm]
    rw [others]
    exact (perm_cons_filter_ne mine (nodup_waiting h)).symm
  | fail _ _ failure => exact none (of_failure failure).1 rfl
  | deliver => exact none rfl (filterMap_deliver (fun _ _ _ => rfl) (fun _ _ _ => rfl) _)
  | collect => exact none rfl (filterMap_returned (fun _ _ => rfl) fun _ => of_mem_collect)

/-- A cycle opens a chain for every group. -/
theorem Effect.opened_groups (e : Effect view a s es s') :
    (es.flatMap (Event.opens view.groups)).map Prod.snd =
      (es.filterMap Event.fanned?).flatMap fun _ => view.groups := by
  have opened : ∀ cycle first,
      (((State.chainsFor cycle first view.groups).map Chain.number).zip view.groups).map Prod.snd =
        view.groups := fun cycle first => List.map_snd_zip (by simp [map_number_chainsFor])
  cases e with
  | install | keep | stop | refuse | order | expire | die | skip | ask | fetch | fail => rfl
  | call | begin => simp [State.fanOut, Event.opens, Event.fanned?, opened]
  | deliver =>
    rw [flatMap_deliver (fun _ _ _ => rfl) fun _ _ _ => rfl,
      filterMap_deliver (fun _ _ _ => rfl) fun _ _ _ => rfl]
    rfl
  | collect =>
    rw [flatMap_returned (fun _ _ => rfl) fun _ => of_mem_collect,
      filterMap_returned (fun _ _ => rfl) fun _ => of_mem_collect]
    rfl

/-- Only a tick orders a cycle. -/
theorem Effect.unordered (e : Effect view a s es s') (other : ∀ t, a ≠ .tick t) :
    es.filterMap Event.ordered? = [] := by
  cases e with
  | @order _ t => exact absurd rfl (other t)
  | deliver => exact filterMap_deliver (fun _ _ _ => rfl) (fun _ _ _ => rfl) _
  | collect => exact filterMap_returned (fun _ _ => rfl) fun _ => of_mem_collect
  | install | keep | stop | refuse | expire | die | skip | call | begin | ask | fetch | fail => rfl

/-- A start that finds the flag clear installs a timer, and nothing else does. -/
theorem Effect.started (e : Effect view a s es s') :
    a = .start ∧ s.polling = false ∧ es.filterMap Event.started? = [s.next] ∧ s.next < s'.next ∨
      (a = .start → s.polling = true) ∧ es.filterMap Event.started? = [] := by
  cases e with
  | install idle => exact .inl ⟨rfl, idle, rfl, Nat.lt_succ_self _⟩
  | keep active => exact .inr ⟨fun _ => active, rfl⟩
  | fail _ _ failure => exact .inr ⟨fun started => absurd started (of_failure failure).2.2.1, rfl⟩
  | deliver => exact .inr ⟨nofun, filterMap_deliver (fun _ _ _ => rfl) (fun _ _ _ => rfl) _⟩
  | collect =>
    exact .inr ⟨nofun, filterMap_returned (fun _ _ => rfl) fun _ => of_mem_collect⟩
  | stop | refuse | order | expire | die | skip | call | begin | ask | fetch =>
    exact .inr ⟨nofun, rfl⟩

/-- A timer comes with a start that finds the flag clear, and goes with a stop. -/
theorem Effect.timer_eq (e : Effect view a s es s') (started : a = .start → s.polling = true)
    (stopped : a ≠ .stop) : s'.timer = s.timer := by
  cases e with
  | install idle =>
    rw [idle] at started
    cases started rfl
  | stop => exact absurd rfl stopped
  | collect => exact collect_timer _ _
  | keep | refuse | call | order | expire | die | skip | begin | ask | fetch | fail | deliver => rfl

/-- Only a cycle begins that was ordered. -/
theorem Effect.waits (e : Effect view a s es s') {n : Nat} (begins : a.begins? = some n) :
    n ∈ s.ordered := by
  cases e with
  | skip waits | begin waits => exact Option.some.inj begins ▸ waits
  | fail _ _ failure => simp [(of_failure failure).2.1] at begins
  | install | keep | stop | refuse | call | order | expire | die | ask | fetch | deliver | collect =>
    cases begins

theorem of_mem_stop {t : Nat} (runs : t ∈ s.stop.timers) : t ∈ s.timers := by
  simp only [State.stop] at runs
  split at runs
  · exact List.mem_of_mem_erase runs
  · exact runs

/-- The timers that run were running before or have been installed. -/
theorem Effect.of_mem_timers (e : Effect view a s es s') {t : Nat} (runs : t ∈ s'.timers) :
    t ∈ s.timers ∨ t ∈ es.filterMap Event.started? := by
  cases e with
  | install => simpa [Event.started?] using runs
  | stop => exact .inl (of_mem_stop runs)
  | expire | die => exact .inl (List.mem_of_mem_erase runs)
  | collect =>
    rw [collect_timers] at runs
    exact .inl runs
  | keep | refuse | call | order | skip | begin | ask | fetch | fail | deliver => exact .inl runs

/-! ## Actions by their effects -/

/-- **What an action does to the books** of a poller. -/
structure Books (view : Context) (a : Action) (s : State) (es : List Event) (s' : State) :
    Prop where
  ordered : s'.ordered =
    (s.ordered.filter fun n => a.begins? ≠ some n) ++ es.filterMap Event.ordered?
  waiting : s'.waiting = (s.waiting.filter fun x => a.asks? ≠ some x.1) ++
    es.flatMap (Event.opens view.groups)
  asked : (es.filterMap Event.asked? ++ s.waiting.filter fun x => a.asks? ≠ some x.1).Perm s.waiting
  groups : (es.flatMap (Event.opens view.groups)).map Prod.snd =
    (es.filterMap Event.fanned?).flatMap fun _ => view.groups
  unordered : (∀ t, a ≠ .tick t) → es.filterMap Event.ordered? = []
  started :
    a = .start ∧ s.polling = false ∧ es.filterMap Event.started? = [s.next] ∧ s.next < s'.next ∨
      (a = .start → s.polling = true) ∧ es.filterMap Event.started? = []
  timer_eq : (a = .start → s.polling = true) → a ≠ .stop → s'.timer = s.timer
  waits : ∀ n, a.begins? = some n → n ∈ s.ordered
  timers : ∀ t ∈ s'.timers, t ∈ s.timers ∨ t ∈ es.filterMap Event.started?

theorem Effect.books (e : Effect view a s es s') (h : Numbered s) : Books view a s es s' :=
  ⟨e.ordered h, e.waiting h, e.asked h, e.opened_groups, e.unordered, e.started, e.timer_eq,
    fun _ => e.waits, fun _ => e.of_mem_timers⟩

/-- The end of a cycle touches none of them, and only tells of the return of a call. -/
theorem Effect.of_collect {n : Nat} (e : Effect view (.collect n) s es s') :
    (∀ x ∈ es, ∃ id outcomes, x = .returned id outcomes) ∧
      s'.ordered = s.ordered ∧ s'.waiting = s.waiting ∧ s'.timer = s.timer ∧
      s'.timers = s.timers := by
  cases e with
  | fail flies resumes => exact resumes.elim
  | @collect _ c flies =>
    exact ⟨fun _ => of_mem_collect, collect_ordered _ _, by simp [State.waiting],
      collect_timer _ _, collect_timers _ _⟩

theorem Effects.books (e : Effects view a s es s') (h : Numbered s) : Books view a s es s' := by
  cases e with
  | one e => exact e.books h
  | @two s₁ _ es es' n e₁ e₂ =>
    obtain ⟨ordered, waiting, asked, groups, unordered, started, timer, waits, timers⟩ :=
      e₁.books h
    obtain ⟨ends, ordered', waiting', timer', timers'⟩ := e₂.of_collect
    have silent : ∀ {α : Type} {f : Event → Option α}, (∀ id o, f (.returned id o) = none) →
        (es ++ es').filterMap f = es.filterMap f := fun none => by
      rw [List.filterMap_append, filterMap_returned none ends, List.append_nil]
    have opens : (es ++ es').flatMap (Event.opens view.groups) =
        es.flatMap (Event.opens view.groups) := by
      rw [List.flatMap_append, flatMap_returned (fun _ _ => rfl) ends, List.append_nil]
    refine ⟨?_, ?_, ?_, ?_, ?_, ?_, ?_, waits, ?_⟩
    · rw [ordered', ordered, silent fun _ _ => rfl]
    · rw [waiting', waiting, opens]
    · rw [silent (f := Event.asked?) fun _ _ => rfl]
      exact asked
    · rw [opens, groups, silent (f := Event.fanned?) fun _ _ => rfl]
    · rw [silent fun _ _ => rfl]
      exact unordered
    · rw [silent fun _ _ => rfl]
      exact started.imp_left fun ⟨start, idle, timer, lt⟩ =>
        ⟨start, idle, timer, Nat.lt_of_lt_of_le lt e₂.next_le⟩
    · exact fun started stopped => timer'.trans (timer started stopped)
    · rw [silent fun _ _ => rfl, timers']
      exact timers

/-! ## While the flag is set -/

/-- While the flag is set no cycle begins but those that a timer ordered. -/
theorem Effect.fanned (e : Effect view a s es s') (active : s.polling = true) :
    es.filterMap Event.fanned? = a.begins?.toList := by
  cases e with
  | install idle | call idle | expire _ idle | skip _ idle => simp [idle] at active
  | keep | stop | refuse | order | die | begin | ask | fetch => rfl
  | fail _ _ failure => simp [(of_failure failure).2.1, State.finish, Event.fanned?]
  | deliver => exact filterMap_deliver (fun _ _ _ => rfl) (fun _ _ _ => rfl) _
  | collect => exact filterMap_returned (fun _ _ => rfl) fun _ => of_mem_collect

theorem Effects.fanned (e : Effects view a s es s') (active : s.polling = true) :
    es.filterMap Event.fanned? = a.begins?.toList := by
  cases e with
  | one e => exact e.fanned active
  | two e₁ e₂ =>
    rw [List.filterMap_append, filterMap_returned (fun _ _ => rfl) e₂.of_collect.1,
      List.append_nil, e₁.fanned active]

end

end SealedPost.Poller

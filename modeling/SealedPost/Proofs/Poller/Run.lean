import Mathlib.Data.List.Nodup
import Mathlib.Tactic.Common
import SealedPost.Poller.State

/-!
# Runs of a poller

A run is any order of actions, each possible when its turn comes: starts, stops and single calls,
ticks of timers, segments of chains and whatever the network answers them. `Effect` says once what
an action can do; what holds of every run is read off its cases.

- `step_effects`: an action does one `Effect`, or two where a cycle without groups begins and ends
  in one segment.
- `Run.induct`: what every effect keeps, of the events so far and the state, holds after every run.
- `Run.numbered`: timers, cycles and chains are told apart by their numbers, and a chain in flight
  belongs to a cycle in flight.
-/

namespace SealedPost.Poller

/-- An action that was done, what it could see of the stores and what others saw of it. -/
structure Move where
  view : Context
  action : Action
  events : List Event

/-- The events of moves, in their order. -/
def trace (moves : List Move) : List Event := moves.flatMap Move.events

/-- Moves that lead from `s` to another state, each possible in the state before it. -/
inductive Run (s : State) : List Move → State → Prop
  | nil : Run s [] s
  | snoc {moves : List Move} {s₁ s₂ : State} (m : Move) :
      Run s moves s₁ → s₁.step m.view m.action = some (s₂, m.events) → Run s (moves ++ [m]) s₂

/-! ## What an action can do -/

/-- Whether an action is the segment that a chain waits for: its beginning, or its answer. -/
def Chain.Resumes (c : Chain) : Action → Prop
  | .lookup n => n = c.number ∧ c.stage = .queued
  | .lookedUp n _ _ => n = c.number ∧ c.stage = .lookup
  | .fetched n _ => n = c.number ∧ ∃ snode, c.stage = .fetch snode
  | _ => False

/-- The chain that an action takes on. -/
def Action.chain? : Action → Option Nat
  | .lookup n | .lookedUp n _ _ | .fetched n _ => some n
  | _ => none

theorem Chain.Resumes.chain? {c : Chain} {a : Action} (h : c.Resumes a) :
    a.chain? = some c.number := by
  cases a with
  | lookup | lookedUp | fetched => exact congrArg some h.1
  | start | stop | call | tick | die | begin | collect => exact h.elim

/-- Why a chain ends without delivering when it gets an answer; none if it goes on. -/
def failure? (polling : Bool) : Action → Option PollError
  | .lookedUp _ (.error e) _ => some (.network e)
  | .lookedUp _ (.ok nodes) pick =>
    if (State.choose nodes pick).isNone then some .insufficientSnodes
    else if polling then none else some .canceled
  | .fetched _ (.error e) => some (.network e)
  | .fetched _ (.ok _) => if polling then none else some .canceled
  | _ => none

/-- The state in which a single call has taken the flag and a number for its cycle. -/
def State.claim (s : State) : State := { s with polling := true, next := s.next + 1 }

/-- The state in which a cycle that a timer ordered is no longer waiting. -/
def State.unorder (s : State) (cycle : Nat) : State := { s with ordered := s.ordered.erase cycle }

/-- The state in which a timer no longer runs. -/
def State.retire (s : State) (timer : Nat) : State := { s with timers := s.timers.erase timer }

/-- **What an action can do**, one case for each way in which its segment can go. -/
inductive Effect (view : Context) : Action → State → List Event → State → Prop
  | install {s : State} (idle : s.polling = false) :
      Effect view .start s [.started s.next]
        { s with
          polling := true
          timer := some s.next
          timers := s.timers ++ [s.next]
          next := s.next + 1 }
  | keep {s : State} (active : s.polling = true) : Effect view .start s [] s
  | stop {s : State} : Effect view .stop s [] s.stop
  | refuse {s : State} {id : Nat} (active : s.polling = true) :
      Effect view (.call id) s [.returned id []] s
  | call {s : State} {id : Nat} (idle : s.polling = false) :
      Effect view (.call id) s (s.claim.fanOut s.next (some id) view.groups).2
        (s.claim.fanOut s.next (some id) view.groups).1
  | order {s : State} {t : Nat} (runs : t ∈ s.timers) (active : s.polling = true) :
      Effect view (.tick t) s [.ordered t s.next]
        { s with ordered := s.ordered ++ [s.next], next := s.next + 1 }
  | expire {s : State} {t : Nat} (runs : t ∈ s.timers) (idle : s.polling = false) :
      Effect view (.tick t) s [] (s.retire t)
  | die {s : State} {t : Nat} (runs : t ∈ s.timers) : Effect view (.die t) s [] (s.retire t)
  | skip {s : State} {n : Nat} (waits : n ∈ s.ordered) (idle : s.polling = false) :
      Effect view (.begin n) s [] (s.unorder n)
  | begin {s : State} {n : Nat} (waits : n ∈ s.ordered) (active : s.polling = true) :
      Effect view (.begin n) s ((s.unorder n).fanOut n none view.groups).2
        ((s.unorder n).fanOut n none view.groups).1
  | ask {s : State} {c : Chain} (flies : c ∈ s.chains) (resumes : c.Resumes (.lookup c.number)) :
      Effect view (.lookup c.number) s [.lookup c.number c.group] (s.setStage c.number .lookup)
  | fetch {s : State} {c : Chain} {nodes : List Snode} {pick : Nat} {snode : Snode}
      (flies : c ∈ s.chains) (resumes : c.Resumes (.lookedUp c.number (.ok nodes) pick))
      (chosen : State.choose nodes pick = some snode) (active : s.polling = true) :
      Effect view (.lookedUp c.number (.ok nodes) pick) s
        [.fetch c.number c.group snode nodes] (s.setStage c.number (.fetch snode))
  | fail {s : State} {c : Chain} {a : Action} {e : PollError} (flies : c ∈ s.chains)
      (resumes : c.Resumes a) (failure : failure? s.polling a = some e) :
      Effect view a s (s.finish c (.error e)).2 (s.finish c (.error e)).1
  | deliver {s : State} {c : Chain} {response : Json} {messages : List (Envelope × Message)}
      (flies : c ∈ s.chains) (resumes : c.Resumes (.fetched c.number (.ok response)))
      (active : s.polling = true)
      (reads : messages =
        State.readable view.decrypt (Retrieval.envelopes c.group response)) :
      Effect view (.fetched c.number (.ok response)) s
        (messages.map (fun m => .delivered c.number m.1 m.2) ++
          (s.finish c (.ok messages.length)).2)
        (s.finish c (.ok messages.length)).1
  | collect {s : State} {c : Cycle} (flies : c ∈ s.cycles)
      (complete : s.isComplete c.number = true) :
      Effect view (.collect c.number) s (s.collect c).2 (s.collect c).1

/-- The effect of an action, or that and the end of a cycle. -/
inductive Effects (view : Context) (a : Action) : State → List Event → State → Prop
  | one {s s₁ : State} {es : List Event} : Effect view a s es s₁ → Effects view a s es s₁
  | two {s s₁ s₂ : State} {es es' : List Event} {n : Nat} :
      Effect view a s es s₁ → Effect view (.collect n) s₁ es' s₂ → Effects view a s (es ++ es') s₂

theorem chain?_eq_some {s : State} {n : Nat} {c : Chain} (h : s.chain? n = some c) :
    c ∈ s.chains ∧ c.number = n := by
  unfold State.chain? at h
  exact ⟨List.mem_of_find?_eq_some h, by simpa using List.find?_some h⟩

theorem cycle?_eq_some {s : State} {n : Nat} {c : Cycle} (h : s.cycle? n = some c) :
    c ∈ s.cycles ∧ c.number = n := by
  unfold State.cycle? at h
  exact ⟨List.mem_of_find?_eq_some h, by simpa using List.find?_some h⟩

/-! ## Numbers -/

/-- Where labels are not used twice, the entries with another label are all but one. -/
theorem perm_cons_filter_ne {α : Type} {f : α → Nat} {l : List α} {a : α} (ha : a ∈ l)
    (h : (l.map f).Nodup) : l.Perm (a :: l.filter fun b => f b ≠ f a) := by
  induction l with
  | nil => simp at ha
  | cons b rest ih =>
    obtain ⟨hb, hrest⟩ := List.nodup_cons.1 h
    have other : ∀ c ∈ rest, f c ≠ f b := fun c hc e => hb (e ▸ List.mem_map_of_mem hc)
    rcases List.mem_cons.1 ha with rfl | ha
    · have all : (rest.filter fun c => f c ≠ f a) = rest :=
        List.filter_eq_self.2 fun c hc => by simpa using other c hc
      rw [List.filter_cons_of_neg (by simp), all]
    · have hne : f b ≠ f a := (other a ha).symm
      rw [List.filter_cons_of_pos (by simpa using hne)]
      exact ((ih ha hrest).cons b).trans (.swap a b _)

/-- Timers, cycles and chains are told apart by their numbers, all given out already. -/
structure Numbered (s : State) : Prop where
  cycles_nodup : (s.ordered ++ s.cycles.map Cycle.number).Nodup
  cycles_lt : ∀ n ∈ s.ordered ++ s.cycles.map Cycle.number, n < s.next
  chains_nodup : (s.chains.map Chain.number).Nodup
  chains_lt : ∀ c ∈ s.chains, c.number < s.next
  /-- A chain in flight belongs to a cycle in flight. -/
  chains_cycle : ∀ c ∈ s.chains, c.cycle ∈ s.cycles.map Cycle.number

theorem Numbered.chain_eq {s : State} (h : Numbered s) {c k : Chain} (hc : c ∈ s.chains)
    (hk : k ∈ s.chains) (same : c.number = k.number) : c = k :=
  List.inj_on_of_nodup_map h.chains_nodup hc hk same

theorem Numbered.cycle_eq {s : State} (h : Numbered s) {c k : Cycle} (hc : c ∈ s.cycles)
    (hk : k ∈ s.cycles) (same : c.number = k.number) : c = k :=
  List.inj_on_of_nodup_map (List.nodup_append.1 h.cycles_nodup).2.1 hc hk same

theorem chain?_eq_some_iff {s : State} (h : Numbered s) {n : Nat} {c : Chain} :
    s.chain? n = some c ↔ c ∈ s.chains ∧ c.number = n := by
  refine ⟨chain?_eq_some, ?_⟩
  rintro ⟨flies, rfl⟩
  cases found : s.chain? c.number with
  | none =>
    have := List.find?_eq_none.1 found c flies
    simp at this
  | some k =>
    obtain ⟨hk, e⟩ := chain?_eq_some found
    rw [h.chain_eq hk flies e]

theorem chain?_eq_none_iff {s : State} {n : Nat} :
    s.chain? n = none ↔ ∀ c ∈ s.chains, c.number ≠ n := by
  simp [State.chain?, List.find?_eq_none]

theorem cycle?_eq_some_iff {s : State} (h : Numbered s) {n : Nat} {c : Cycle} :
    s.cycle? n = some c ↔ c ∈ s.cycles ∧ c.number = n := by
  refine ⟨cycle?_eq_some, ?_⟩
  rintro ⟨flies, rfl⟩
  cases found : s.cycle? c.number with
  | none =>
    have := List.find?_eq_none.1 found c flies
    simp at this
  | some k =>
    obtain ⟨hk, e⟩ := cycle?_eq_some found
    rw [h.cycle_eq hk flies e]

theorem numbered_idle : Numbered .idle := by
  constructor <;> simp [State.idle]

theorem map_number_chainsFor (cycle first : Nat) (groups : List String) :
    (State.chainsFor cycle first groups).map Chain.number = List.range' first groups.length := by
  induction groups generalizing first with
  | nil => rfl
  | cons g rest ih => simp [State.chainsFor, ih, List.range'_succ]

theorem of_mem_chainsFor {cycle first : Nat} {groups : List String} {c : Chain}
    (h : c ∈ State.chainsFor cycle first groups) : c.cycle = cycle ∧ c.stage = .queued := by
  induction groups generalizing first with
  | nil => simp [State.chainsFor] at h
  | cons g rest ih =>
    simp only [State.chainsFor, List.mem_cons] at h
    rcases h with rfl | h
    · exact ⟨rfl, rfl⟩
    · exact ih h

theorem map_number_setStage (s : State) (n : Nat) (stage : Stage) :
    (s.setStage n stage).chains.map Chain.number = s.chains.map Chain.number := by
  simp only [State.setStage, List.map_map]
  apply List.map_congr_left
  intro c _
  simp only [Function.comp_apply]
  split <;> rfl

theorem map_number_finish (s : State) (c : Chain) (r : Except PollError Nat) :
    (s.finish c r).1.cycles.map Cycle.number = s.cycles.map Cycle.number := by
  simp only [State.finish, List.map_map]
  apply List.map_congr_left
  intro k _
  simp only [Function.comp_apply]
  split <;> rfl

theorem of_mem_setStage {s : State} {n : Nat} {stage : Stage} {c : Chain}
    (h : c ∈ (s.setStage n stage).chains) :
    ∃ c₀ ∈ s.chains, c₀.number = c.number ∧ c₀.cycle = c.cycle ∧ c₀.group = c.group := by
  simp only [State.setStage, List.mem_map] at h
  obtain ⟨c₀, hc₀, rfl⟩ := h
  refine ⟨c₀, hc₀, ?_⟩
  split <;> exact ⟨rfl, rfl, rfl⟩

@[simp] theorem collect_ordered (s : State) (c : Cycle) :
    (s.collect c).1.ordered = s.ordered := by
  unfold State.collect; cases c.call <;> rfl

@[simp] theorem collect_cycles (s : State) (c : Cycle) :
    (s.collect c).1.cycles = s.cycles.filter fun k => k.number ≠ c.number := by
  unfold State.collect; cases c.call <;> rfl

@[simp] theorem collect_chains (s : State) (c : Cycle) :
    (s.collect c).1.chains = s.chains := by
  unfold State.collect; cases c.call <;> rfl

@[simp] theorem collect_next (s : State) (c : Cycle) : (s.collect c).1.next = s.next := by
  unfold State.collect; cases c.call <;> rfl

@[simp] theorem collect_timer (s : State) (c : Cycle) : (s.collect c).1.timer = s.timer := by
  unfold State.collect; cases c.call <;> rfl

@[simp] theorem collect_timers (s : State) (c : Cycle) : (s.collect c).1.timers = s.timers := by
  unfold State.collect; cases c.call <;> rfl

namespace Numbered
variable {s : State}

theorem fanOut (h : Numbered s) {cycle : Nat} (call : Option Nat) (groups : List String)
    (fresh : cycle ∉ s.ordered ++ s.cycles.map Cycle.number) (lt : cycle < s.next) :
    Numbered (s.fanOut cycle call groups).1 where
  cycles_nodup := by
    simp only [State.fanOut, List.map_append, List.map_cons, List.map_nil, ← List.append_assoc]
    exact List.nodup_append.2 ⟨h.cycles_nodup, by simp, by
      intro a ha b hb e
      rw [List.mem_singleton] at hb
      exact fresh (hb ▸ e ▸ ha)⟩
  cycles_lt := by
    intro n hn
    simp only [State.fanOut, List.map_append, List.map_cons, List.map_nil, ← List.append_assoc,
      List.mem_append (t := [cycle]), List.mem_singleton] at hn ⊢
    rcases hn with hn | rfl
    · have := h.cycles_lt n hn; omega
    · omega
  chains_nodup := by
    simp only [State.fanOut, List.map_append, map_number_chainsFor]
    refine List.nodup_append.2 ⟨h.chains_nodup, List.nodup_range', ?_⟩
    intro a ha b hb e
    obtain ⟨c, hc, rfl⟩ := List.mem_map.1 ha
    have h₁ := h.chains_lt c hc
    have h₂ := (List.mem_range'_1.1 hb).1
    omega
  chains_lt := by
    intro c hc
    simp only [State.fanOut, List.mem_append] at hc ⊢
    rcases hc with hc | hc
    · have := h.chains_lt c hc; omega
    · have hn : c.number ∈ List.range' s.next groups.length := by
        rw [← map_number_chainsFor cycle]
        exact List.mem_map_of_mem hc
      have := (List.mem_range'_1.1 hn).2
      omega
  chains_cycle := by
    intro c hc
    simp only [State.fanOut, List.mem_append] at hc
    simp only [State.fanOut, List.map_append, List.mem_append]
    rcases hc with hc | hc
    · exact Or.inl (h.chains_cycle c hc)
    · exact Or.inr (by simp [(of_mem_chainsFor hc).1])

theorem setStage (h : Numbered s) (n : Nat) (stage : Stage) : Numbered (s.setStage n stage) where
  cycles_nodup := h.cycles_nodup
  cycles_lt := h.cycles_lt
  chains_nodup := by rw [map_number_setStage]; exact h.chains_nodup
  chains_lt := by
    intro c hc
    obtain ⟨c₀, hc₀, e, -, -⟩ := of_mem_setStage hc
    exact e ▸ h.chains_lt c₀ hc₀
  chains_cycle := by
    intro c hc
    obtain ⟨c₀, hc₀, -, e, -⟩ := of_mem_setStage hc
    exact e ▸ h.chains_cycle c₀ hc₀

theorem finish (h : Numbered s) (c : Chain) (r : Except PollError Nat) :
    Numbered (s.finish c r).1 where
  cycles_nodup := by rw [map_number_finish]; exact h.cycles_nodup
  cycles_lt := by rw [map_number_finish]; exact h.cycles_lt
  chains_nodup := h.chains_nodup.sublist (List.filter_sublist.map _)
  chains_lt := fun k hk => h.chains_lt k (List.mem_of_mem_filter hk)
  chains_cycle := by
    rw [map_number_finish]
    exact fun k hk => h.chains_cycle k (List.mem_of_mem_filter hk)

/-- The end of a cycle leaves no chain without its cycle, as all of its own have finished. -/
theorem collect (h : Numbered s) {c : Cycle} (complete : s.isComplete c.number = true) :
    Numbered (s.collect c).1 where
  cycles_nodup := by
    simp only [collect_ordered, collect_cycles]
    exact h.cycles_nodup.sublist ((List.filter_sublist.map _).append_left _)
  cycles_lt := by
    simp only [collect_ordered, collect_cycles, collect_next]
    exact fun n hn => h.cycles_lt n (((List.filter_sublist.map _).append_left _).subset hn)
  chains_nodup := by simpa using h.chains_nodup
  chains_lt := by simpa using h.chains_lt
  chains_cycle := by
    simp only [collect_chains, collect_cycles]
    intro k hk
    obtain ⟨c₀, hc₀, e⟩ := List.mem_map.1 (h.chains_cycle k hk)
    have hne : k.cycle ≠ c.number := by
      simpa using List.all_eq_true.1 complete k hk
    refine List.mem_map.2 ⟨c₀, List.mem_filter.2 ⟨hc₀, ?_⟩, e⟩
    simpa [e] using hne

/-- Numbers given out later do no harm. -/
theorem mono (h : Numbered s) {s' : State} (ordered : s'.ordered = s.ordered)
    (cycles : s'.cycles = s.cycles) (chains : s'.chains = s.chains) (next : s.next ≤ s'.next) :
    Numbered s' where
  cycles_nodup := by rw [ordered, cycles]; exact h.cycles_nodup
  cycles_lt := by
    rw [ordered, cycles]
    exact fun n hn => Nat.lt_of_lt_of_le (h.cycles_lt n hn) next
  chains_nodup := by rw [chains]; exact h.chains_nodup
  chains_lt := by rw [chains]; exact fun c hc => Nat.lt_of_lt_of_le (h.chains_lt c hc) next
  chains_cycle := by rw [chains, cycles]; exact h.chains_cycle

theorem unorder (h : Numbered s) (n : Nat) : Numbered (s.unorder n) where
  cycles_nodup := h.cycles_nodup.sublist (List.erase_sublist.append_right _)
  cycles_lt := fun k hk =>
    h.cycles_lt k ((List.erase_sublist.append_right _).subset hk)
  chains_nodup := h.chains_nodup
  chains_lt := h.chains_lt
  chains_cycle := h.chains_cycle

theorem order (h : Numbered s) :
    Numbered { s with ordered := s.ordered ++ [s.next], next := s.next + 1 } where
  cycles_nodup := by
    have fresh : s.next ∉ s.ordered ++ s.cycles.map Cycle.number :=
      fun hm => Nat.lt_irrefl _ (h.cycles_lt _ hm)
    have perm : (s.ordered ++ [s.next] ++ s.cycles.map Cycle.number).Perm
        (s.next :: (s.ordered ++ s.cycles.map Cycle.number)) := by
      rw [List.append_assoc]
      exact List.perm_middle
    exact perm.nodup_iff.2 (List.nodup_cons.2 ⟨fresh, h.cycles_nodup⟩)
  cycles_lt := by
    intro n hn
    have hn' : n = s.next ∨ n ∈ s.ordered ++ s.cycles.map Cycle.number := by
      simp only [List.mem_append, List.mem_singleton] at hn ⊢
      tauto
    rcases hn' with rfl | hn'
    · exact Nat.lt_succ_self _
    · exact Nat.lt_succ_of_lt (h.cycles_lt n hn')
  chains_nodup := h.chains_nodup
  chains_lt := fun c hc => Nat.lt_succ_of_lt (h.chains_lt c hc)
  chains_cycle := h.chains_cycle

/-- A cycle that has been ordered is in no other place. -/
theorem not_mem_unorder (h : Numbered s) {n : Nat} (waits : n ∈ s.ordered) :
    n ∉ (s.unorder n).ordered ++ (s.unorder n).cycles.map Cycle.number := by
  obtain ⟨h₁, -, h₃⟩ := List.nodup_append.1 h.cycles_nodup
  intro hm
  rcases List.mem_append.1 hm with hm | hm
  · exact h₁.not_mem_erase hm
  · exact h₃ n waits n hm rfl

end Numbered

/-- Every effect keeps the numbers apart. -/
theorem Effect.numbered {view : Context} {a : Action} {s s' : State} {es : List Event}
    (e : Effect view a s es s') (h : Numbered s) : Numbered s' := by
  cases e with
  | install => exact h.mono rfl rfl rfl (Nat.le_succ _)
  | keep => exact h
  | stop => exact h.mono rfl rfl rfl (Nat.le_refl _)
  | refuse => exact h
  | call =>
    have hc : Numbered s.claim := h.mono rfl rfl rfl (Nat.le_succ _)
    exact hc.fanOut _ _ (fun hm => Nat.lt_irrefl _ (h.cycles_lt _ hm)) (Nat.lt_succ_self _)
  | order => exact h.order
  | expire => exact h.mono rfl rfl rfl (Nat.le_refl _)
  | die => exact h.mono rfl rfl rfl (Nat.le_refl _)
  | skip => exact h.unorder _
  | begin waits =>
    exact (h.unorder _).fanOut _ _ (h.not_mem_unorder waits)
      (h.cycles_lt _ (List.mem_append_left _ waits))
  | ask => exact h.setStage _ _
  | fetch => exact h.setStage _ _
  | fail => exact h.finish _ _
  | deliver => exact h.finish _ _
  | collect _ complete => exact h.collect complete

/-! ## Steps and runs -/

/-- A cycle that has just begun without chains is complete. -/
theorem isComplete_fanOut_nil {s : State} (h : Numbered s) {cycle : Nat} (call : Option Nat)
    (fresh : cycle ∉ s.cycles.map Cycle.number) :
    (s.fanOut cycle call []).1.isComplete cycle = true := by
  refine List.all_eq_true.2 fun c hc => ?_
  have hc' : c ∈ s.chains := by simpa [State.fanOut, State.chainsFor] using hc
  have hne : c.cycle ≠ cycle := fun e => fresh (e ▸ h.chains_cycle c hc')
  simpa using hne

theorem start_effect (view : Context) (s : State) : Effect view .start s s.start.2 s.start.1 := by
  unfold State.start
  by_cases active : s.polling = true
  · rw [if_pos active]; exact .keep active
  · rw [if_neg active]; exact .install (by simpa using active)

theorem tick_effect {view : Context} {s : State} {t : Nat} (runs : t ∈ s.timers) :
    Effect view (.tick t) s (s.tick t).2 (s.tick t).1 := by
  unfold State.tick
  by_cases active : s.polling = true
  · rw [if_pos active]; exact .order runs active
  · rw [if_neg active]; exact .expire runs (by simpa using active)

/-- A single call without groups begins a cycle and ends it at once. -/
theorem call_effects {view : Context} {s : State} (h : Numbered s) (id : Nat) :
    Effects view (.call id) s (s.call id view.groups).2 (s.call id view.groups).1 := by
  have unfolded : s.call id view.groups = if s.polling then (s, [.returned id []])
      else if view.groups.isEmpty then
        (((s.claim.fanOut s.next (some id) view.groups).1.collect ⟨s.next, some id, []⟩).1,
          (s.claim.fanOut s.next (some id) view.groups).2 ++
            ((s.claim.fanOut s.next (some id) view.groups).1.collect ⟨s.next, some id, []⟩).2)
      else s.claim.fanOut s.next (some id) view.groups := rfl
  rw [unfolded]
  by_cases active : s.polling = true
  · rw [if_pos active]; exact .one (.refuse active)
  · rw [if_neg active]
    have first : Effect view (.call id) s _ _ := .call (by simpa using active)
    have claimed : Numbered s.claim := h.mono rfl rfl rfl (Nat.le_succ _)
    cases hg : view.groups with
    | cons g rest => rw [hg] at first; exact .one first
    | nil =>
      rw [hg] at first
      refine .two first (.collect (c := ⟨s.next, some id, []⟩) (by simp [State.fanOut]) ?_)
      exact isComplete_fanOut_nil claimed _ fun hm =>
        Nat.lt_irrefl _ (h.cycles_lt _ (List.mem_append_right _ hm))

/-- So does a cycle that a timer ordered. -/
theorem begin_effects {view : Context} {s : State} (h : Numbered s) {n : Nat}
    (waits : n ∈ s.ordered) :
    Effects view (.begin n) s (s.begin n view.groups).2 (s.begin n view.groups).1 := by
  have unfolded : s.begin n view.groups = if !s.polling then (s.unorder n, [])
      else if view.groups.isEmpty then
        ((((s.unorder n).fanOut n none view.groups).1.collect ⟨n, none, []⟩).1,
          ((s.unorder n).fanOut n none view.groups).2 ++
            (((s.unorder n).fanOut n none view.groups).1.collect ⟨n, none, []⟩).2)
      else (s.unorder n).fanOut n none view.groups := rfl
  rw [unfolded]
  by_cases active : s.polling = true
  · rw [if_neg (by simp [active])]
    have first : Effect view (.begin n) s _ _ := .begin waits active
    cases hg : view.groups with
    | cons g rest => rw [hg] at first; exact .one first
    | nil =>
      rw [hg] at first
      refine .two first (.collect (c := ⟨n, none, []⟩) (by simp [State.fanOut]) ?_)
      exact isComplete_fanOut_nil (h.unorder n) _ fun hm =>
        h.not_mem_unorder waits (List.mem_append_right _ hm)
  · have idle : s.polling = false := by simpa using active
    rw [if_pos (by simp [idle])]; exact .one (.skip waits idle)

theorem lookedUp_effect {view : Context} {s : State} {c : Chain} (flies : c ∈ s.chains)
    (stage : c.stage = .lookup) (answer : Except NetworkError (List Snode)) (pick : Nat) :
    Effect view (.lookedUp c.number answer pick) s (s.lookedUp c answer pick).2
      (s.lookedUp c answer pick).1 := by
  have resumes : c.Resumes (.lookedUp c.number answer pick) := ⟨rfl, stage⟩
  unfold State.lookedUp
  cases answer with
  | error e => exact .fail flies resumes rfl
  | ok nodes =>
    cases chosen : State.choose nodes pick with
    | none =>
      simp only [chosen]
      exact .fail (e := .insufficientSnodes) flies resumes (by simp [failure?, chosen])
    | some snode =>
      by_cases active : s.polling = true
      · simp only [chosen, if_pos active]; exact .fetch flies resumes chosen active
      · simp only [chosen, if_neg active]
        exact .fail (e := .canceled) flies resumes (by simp [failure?, chosen, active])

theorem fetched_effect {view : Context} {s : State} {c : Chain} {snode : Snode}
    (flies : c ∈ s.chains) (stage : c.stage = .fetch snode) (answer : Except NetworkError Json) :
    Effect view (.fetched c.number answer) s (s.fetched view.decrypt c answer).2
      (s.fetched view.decrypt c answer).1 := by
  have resumes : c.Resumes (.fetched c.number answer) := ⟨rfl, snode, stage⟩
  unfold State.fetched
  cases answer with
  | error e => exact .fail flies resumes rfl
  | ok response =>
    by_cases active : s.polling = true
    · simp only [if_pos active]; exact .deliver flies resumes active rfl
    · simp only [if_neg active]
      exact .fail (e := .canceled) flies resumes (by simp [failure?, active])

/-- An action that takes on a chain does one effect. -/
theorem step_effect {view : Context} {a : Action} {s s' : State} {es : List Event} {n : Nat}
    (own : a.chain? = some n) (hs : s.step view a = some (s', es)) : Effect view a s es s' := by
  cases a with
  | lookup n =>
    simp only [State.step] at hs
    split at hs
    · rename_i m k g hc
      obtain ⟨flies, rfl⟩ := chain?_eq_some hc
      cases hs
      exact .ask (c := ⟨m, k, g, .queued⟩) flies ⟨rfl, rfl⟩
    · cases hs
  | lookedUp n answer pick =>
    simp only [State.step] at hs
    split at hs
    · rename_i c hc
      obtain ⟨flies, rfl⟩ := chain?_eq_some hc
      simp only [Option.ite_none_right_eq_some, Option.some.injEq] at hs
      have e : Effect view (.lookedUp c.number answer pick) s _ _ :=
        lookedUp_effect flies hs.1 answer pick
      rw [hs.2] at e; exact e
    · cases hs
  | fetched n answer =>
    simp only [State.step] at hs
    split at hs
    · rename_i c hc
      obtain ⟨flies, rfl⟩ := chain?_eq_some hc
      split at hs
      · rename_i snode stage
        simp only [Option.some.injEq] at hs
        have e : Effect view (.fetched c.number answer) s _ _ := fetched_effect flies stage answer
        rw [hs] at e; exact e
      · cases hs
    · cases hs
  | start | stop | call | tick | die | begin | collect => cases own

/-- **A step does one effect, or two**: the second is the end of a cycle that has no groups. -/
theorem step_effects {view : Context} {a : Action} {s s' : State} {es : List Event}
    (h : Numbered s) (hs : s.step view a = some (s', es)) : Effects view a s es s' := by
  cases a with
  | start =>
    simp only [State.step, Option.some.injEq] at hs
    have e := start_effect view s
    rw [hs] at e; exact .one e
  | stop => cases hs; exact .one .stop
  | call id =>
    simp only [State.step, Option.some.injEq] at hs
    have e : Effects view (.call id) s _ _ := call_effects h id
    rw [hs] at e; exact e
  | tick t =>
    simp only [State.step, List.contains_iff_mem, Option.ite_none_right_eq_some,
      Option.some.injEq] at hs
    have e : Effect view (.tick t) s _ _ := tick_effect hs.1
    rw [hs.2] at e; exact .one e
  | die t =>
    simp only [State.step, List.contains_iff_mem, Option.ite_none_right_eq_some,
      Option.some.injEq, Prod.mk.injEq] at hs
    obtain ⟨runs, rfl, rfl⟩ := hs
    exact .one (.die runs)
  | begin n =>
    simp only [State.step, List.contains_iff_mem, Option.ite_none_right_eq_some,
      Option.some.injEq] at hs
    have e : Effects view (.begin n) s _ _ := begin_effects h hs.1
    rw [hs.2] at e; exact e
  | lookup | lookedUp | fetched => exact .one (step_effect rfl hs)
  | collect n =>
    simp only [State.step] at hs
    split at hs
    · rename_i c hc
      obtain ⟨flies, rfl⟩ := cycle?_eq_some hc
      simp only [Option.ite_none_right_eq_some, Option.some.injEq] at hs
      have e : Effect view (.collect c.number) s _ _ := .collect flies hs.1
      rw [hs.2] at e; exact .one e
    · cases hs

theorem Effects.numbered {view : Context} {a : Action} {s s' : State} {es : List Event}
    (e : Effects view a s es s') (h : Numbered s) : Numbered s' := by
  cases e with
  | one e => exact e.numbered h
  | two e₁ e₂ => exact e₂.numbered (e₁.numbered h)

theorem Run.numbered {s s' : State} {moves : List Move} (run : Run s moves s')
    (h : Numbered s) : Numbered s' := by
  induction run with
  | nil => exact h
  | snoc m _ step ih => exact (step_effects ih step).numbered ih

/-- **Induction over a run.** What holds of the events so far and the state, and is kept by every
effect of the actions that may be done, holds at the end of a run. -/
theorem Run.induct {allowed : Action → Prop} {P : List Event → State → Prop}
    (ends : ∀ n, allowed (.collect n))
    (keeps : ∀ {view : Context} {a : Action} {s s' : State} {before es : List Event}, allowed a →
      Numbered s → Effect view a s es s' → P before s → P (before ++ es) s')
    {s s' : State} {moves : List Move} (run : Run s moves s') (num : Numbered s)
    (all : ∀ m ∈ moves, allowed m.action) (start : P [] s) : P (trace moves) s' := by
  induction run with
  | nil => exact start
  | snoc m run step ih =>
    have num₁ := run.numbered num
    have before := ih fun m hm => all m (List.mem_append_left _ hm)
    have ok : allowed m.action := all m (by simp)
    have moved : ∀ moves, trace (moves ++ [m]) = trace moves ++ m.events := by simp [trace]
    rw [moved]
    have effects := step_effects num₁ step
    generalize m.events = es at effects
    cases effects with
    | one e => exact keeps ok num₁ e before
    | two e₁ e₂ =>
      rw [← List.append_assoc]
      exact keeps (ends _) (e₁.numbered num₁) e₂ (keeps ok num₁ e₁ before)

/-- The same, where every action may be done. -/
theorem Run.keeps {P : List Event → State → Prop}
    (keeps : ∀ {view : Context} {a : Action} {s s' : State} {before es : List Event},
      Numbered s → Effect view a s es s' → P before s → P (before ++ es) s')
    {s s' : State} {moves : List Move} (run : Run s moves s') (num : Numbered s) (start : P [] s) :
    P (trace moves) s' :=
  @Run.induct (fun _ => True) P (fun _ => trivial) (fun _ num e h => keeps num e h) s s' moves run
    num (fun _ _ => trivial) start

/-! ## Runs put together -/

theorem Run.append {s s₁ s₂ : State} {moves later : List Move} (run : Run s moves s₁)
    (next : Run s₁ later s₂) : Run s (moves ++ later) s₂ := by
  induction next with
  | nil => rwa [List.append_nil]
  | snoc m _ step ih =>
    rw [← List.append_assoc]
    exact .snoc m ih step

theorem Run.split {s s' : State} {moves later : List Move} (run : Run s (moves ++ later) s') :
    ∃ s₁, Run s moves s₁ ∧ Run s₁ later s' := by
  generalize hall : moves ++ later = all at run
  induction run generalizing later with
  | nil =>
    obtain ⟨rfl, rfl⟩ := List.append_eq_nil_iff.1 hall
    exact ⟨s, .nil, .nil⟩
  | @snoc all s₁ s₂ m run step ih =>
    rcases List.eq_nil_or_concat later with rfl | ⟨rest, last, rfl⟩
    · rw [List.append_nil] at hall
      exact ⟨s₂, hall ▸ run.snoc m step, .nil⟩
    · rw [List.concat_eq_append, ← List.append_assoc] at hall
      obtain ⟨rfl, same⟩ := List.append_inj' hall rfl
      obtain rfl := List.singleton_inj.1 same
      obtain ⟨s₃, first, rest⟩ := ih rfl
      exact ⟨s₃, first, List.concat_eq_append ▸ rest.snoc last step⟩

theorem Run.eq_of_nil {s s' : State} (run : Run s [] s') : s' = s := by
  generalize hall : [] = all at run
  cases run with
  | nil => rfl
  | snoc m => simp at hall

/-- A run by its first move. -/
theorem Run.uncons {s s' : State} {m : Move} {later : List Move} (run : Run s (m :: later) s') :
    ∃ s₁, s.step m.view m.action = some (s₁, m.events) ∧ Run s₁ later s' := by
  have cut : Run s ([m] ++ later) s' := run
  obtain ⟨s₁, first, rest⟩ := cut.split
  generalize hall : [m] = all at first
  cases first with
  | nil => cases hall
  | snoc k first step =>
    have ends : [] ++ [m] = _ ++ [k] := hall
    obtain ⟨rfl, same⟩ := List.append_inj' ends rfl
    obtain rfl := List.singleton_inj.1 same
    rw [first.eq_of_nil] at step
    exact ⟨_, step, rest⟩

/-! ## Playing a run -/

/-- Does actions one after the other, each under its own view; none if one is not possible. -/
def play : List (Context × Action) → State → Option (List Move × State)
  | [], s => some ([], s)
  | (view, a) :: rest, s =>
    match s.step view a with
    | none => none
    | some (s₁, es) => (play rest s₁).map fun r => (⟨view, a, es⟩ :: r.1, r.2)

theorem Run.cons {s s₁ s₂ : State} {moves : List Move} (m : Move)
    (step : s.step m.view m.action = some (s₁, m.events)) (run : Run s₁ moves s₂) :
    Run s (m :: moves) s₂ := by
  induction run with
  | nil => exact .snoc m .nil step
  | snoc k _ hk ih => exact .snoc k ih hk

theorem play_run (actions : List (Context × Action)) {s s' : State} {moves : List Move}
    (h : play actions s = some (moves, s')) : Run s moves s' := by
  induction actions generalizing s moves with
  | nil => cases h; exact .nil
  | cons a rest ih =>
    obtain ⟨view, a⟩ := a
    simp only [play] at h
    split at h
    · cases h
    · rename_i s₁ es step
      obtain ⟨⟨later, s₂⟩, played, e⟩ := Option.map_eq_some_iff.1 h
      cases e
      exact (ih played).cons ⟨view, a, es⟩ step

end SealedPost.Poller

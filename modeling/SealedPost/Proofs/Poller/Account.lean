import SealedPost.Proofs.Poller.Run

/-!
# An account of chains

A chain that is in flight stays so or ends, once, and its outcome goes to its cycle. `Ledger` is the
account of that since some state, over a choice of cycles; every effect keeps it that begins none of
them (`Effect.ledger`). A cycle that has begun never begins again, so of one cycle there is always an
account (`Run.ledger`).
-/

namespace SealedPost.Poller

/-! ## The ends of chains -/

/-- What stays the same of a chain from stage to stage. -/
def Chain.tag (c : Chain) : Nat × Nat × String := (c.number, c.cycle, c.group)

def State.tags (s : State) : List (Nat × Nat × String) := s.chains.map Chain.tag

def Event.endOf? : Event → Option (Nat × Nat × Outcome)
  | .finished n k o => some (n, k, o)
  | _ => none

/-- The ends of chains among events: the chain, its cycle and its outcome. -/
def ends (es : List Event) : List (Nat × Nat × Outcome) := es.filterMap Event.endOf?

/-- The tags of the chains that ended. -/
def ended (es : List Event) : List (Nat × Nat × String) :=
  (ends es).map fun e => (e.1, e.2.1, e.2.2.group)

/-- The outcomes of the chains of a cycle that ended, in the order in which they did. -/
def outcomesOf (cycle : Nat) (es : List Event) : List Outcome :=
  ((ends es).filter fun e => e.2.1 = cycle).map fun e => e.2.2

theorem ends_append (es es' : List Event) : ends (es ++ es') = ends es ++ ends es' := by
  simp [ends]

theorem ended_append (es es' : List Event) : ended (es ++ es') = ended es ++ ended es' := by
  simp [ended, ends_append]

theorem outcomesOf_append (cycle : Nat) (es es' : List Event) :
    outcomesOf cycle (es ++ es') = outcomesOf cycle es ++ outcomesOf cycle es' := by
  simp [outcomesOf, ends_append]

theorem mem_ends {es : List Event} {n k : Nat} {o : Outcome} :
    (n, k, o) ∈ ends es ↔ .finished n k o ∈ es := by
  simp only [ends, List.mem_filterMap]
  constructor
  · rintro ⟨e, he, h⟩
    cases e <;> cases h
    exact he
  · exact fun h => ⟨_, h, rfl⟩

theorem mem_outcomesOf {es : List Event} {k : Nat} {o : Outcome} :
    o ∈ outcomesOf k es ↔ ∃ n, .finished n k o ∈ es := by
  simp only [outcomesOf, List.mem_map, List.mem_filter, decide_eq_true_eq]
  constructor
  · rintro ⟨⟨n, k', o'⟩, ⟨he, rfl⟩, rfl⟩
    exact ⟨n, mem_ends.1 he⟩
  · rintro ⟨n, h⟩
    exact ⟨(n, k, o), ⟨mem_ends.2 h, rfl⟩, rfl⟩

theorem setStage_tags (s : State) (n : Nat) (stage : Stage) : (s.setStage n stage).tags = s.tags := by
  simp only [State.tags, State.setStage, List.map_map]
  apply List.map_congr_left
  intro c _
  simp only [Function.comp_apply]
  split <;> rfl

/-- A chain that ends goes from those in flight to those that ended. -/
theorem finish_tags {s : State} (h : Numbered s) {c : Chain} (flies : c ∈ s.chains)
    (r : Except PollError Nat) :
    (ended (s.finish c r).2 ++ (s.finish c r).1.tags).Perm s.tags :=
  ((perm_cons_filter_ne (f := Chain.number) flies h.chains_nodup).map Chain.tag).symm

/-- What is in flight for a cycle, read off the tags. -/
theorem groups_of_tags (s : State) (cycle : Nat) :
    ((s.tags.filter fun t => t.2.1 = cycle).map fun t => t.2.2) =
      (s.chains.filter fun c => c.cycle = cycle).map Chain.group := by
  rw [State.tags, List.filter_map, List.map_map]
  rfl

theorem groups_of_ended (es : List Event) (cycle : Nat) :
    (((ended es).filter fun t => t.2.1 = cycle).map fun t => t.2.2) =
      (outcomesOf cycle es).map Outcome.group := by
  rw [ended, outcomesOf, List.filter_map, List.map_map, List.map_map]
  rfl

/-! ## The ledger -/

/-- What has become, since a state `s₀`, of the chains and outcomes of the cycles that `p` holds of,
none of which has begun since. -/
structure Ledger (p : Nat → Bool) (s₀ : State) (es : List Event) (s : State) : Prop where
  /-- Every chain is in flight or has ended, and none twice. -/
  account : ((ended es ++ s.tags).filter fun t => p t.2.1).Perm (s₀.tags.filter fun t => p t.2.1)
  /-- A cycle has gained the outcomes of its chains that ended. -/
  cycles : ∀ c ∈ s.cycles, p c.number = true → ∃ c₀ ∈ s₀.cycles, c₀.number = c.number ∧
    c₀.call = c.call ∧ c.outcomes = c₀.outcomes ++ outcomesOf c.number es

theorem ledger_refl (p : Nat → Bool) (s : State) : Ledger p s [] s where
  account := .refl _
  cycles := fun c hc _ => ⟨c, hc, rfl, rfl, by simp [outcomesOf, ends]⟩

namespace Ledger
variable {p : Nat → Bool} {s₀ s s' : State} {es es' : List Event}

/-- A segment that ends no chain and brings no cycle. -/
theorem still (h : Ledger p s₀ es s)
    (tags : (s'.tags.filter fun t => p t.2.1) = s.tags.filter fun t => p t.2.1)
    (cycles : ∀ c ∈ s'.cycles, p c.number = true → c ∈ s.cycles) (none : ends es' = []) :
    Ledger p s₀ (es ++ es') s' where
  account := by
    have unended : ended es' = [] := by simp [ended, none]
    rw [ended_append, unended, List.append_nil, List.filter_append, tags, ← List.filter_append]
    exact h.account
  cycles := by
    intro c hc hp
    have unended : outcomesOf c.number es' = [] := by simp [outcomesOf, none]
    rw [outcomesOf_append, unended, List.append_nil]
    exact h.cycles c (cycles c hc hp) hp

theorem finish (h : Ledger p s₀ es s) (num : Numbered s) {c : Chain} (flies : c ∈ s.chains)
    (r : Except PollError Nat) : Ledger p s₀ (es ++ (s.finish c r).2) (s.finish c r).1 where
  account := by
    rw [ended_append, List.append_assoc]
    exact (((finish_tags num flies _).append_left _).filter _).trans h.account
  cycles := by
    intro k hk hp
    obtain ⟨k', hk', rfl⟩ := List.mem_map.1 hk
    have number : (if k'.number = c.cycle then { k' with outcomes := k'.outcomes ++ [⟨c.group, r⟩] }
        else k').number = k'.number := by split <;> rfl
    rw [number] at hp
    obtain ⟨k₀, hk₀, hnumber, hcall, houtcomes⟩ := h.cycles k' hk' hp
    by_cases own : k'.number = c.cycle
    · refine ⟨k₀, hk₀, by simp [own, hnumber], by simp [own, hcall], ?_⟩
      rw [outcomesOf_append]
      simp [own, houtcomes, State.finish, outcomesOf, ends, Event.endOf?]
    · refine ⟨k₀, hk₀, by simp [own, hnumber], by simp [own, hcall], ?_⟩
      have other : c.cycle ≠ k'.number := fun e => own e.symm
      rw [outcomesOf_append]
      simp [own, other, houtcomes, State.finish, outcomesOf, ends, Event.endOf?]

/-- The chains of a new cycle are not on the account. -/
theorem fanOut (h : Ledger p s₀ es s) {n : Nat} (new : p n = false) (call : Option Nat)
    (groups : List String) :
    Ledger p s₀ (es ++ (s.fanOut n call groups).2) (s.fanOut n call groups).1 := by
  refine h.still ?_ ?_ rfl
  · have none : (((State.chainsFor n s.next groups).map Chain.tag).filter fun t => p t.2.1) = [] := by
      refine List.filter_eq_nil_iff.2 fun t ht => ?_
      obtain ⟨c, hc, rfl⟩ := List.mem_map.1 ht
      simp [Chain.tag, (of_mem_chainsFor hc).1, new]
    simp only [State.tags, State.fanOut, List.map_append, List.filter_append, none, List.append_nil]
  · intro c hc hp
    rcases List.mem_append.1 hc with hc | hc
    · exact hc
    · rw [List.mem_singleton.1 hc] at hp
      exact absurd hp (by simp [new])

theorem collect (h : Ledger p s₀ es s) (c : Cycle) :
    Ledger p s₀ (es ++ (s.collect c).2) (s.collect c).1 := by
  refine h.still (by rw [State.tags, collect_chains, State.tags]) ?_ ?_
  · rw [collect_cycles]
    exact fun k hk _ => List.mem_of_mem_filter hk
  · unfold State.collect
    cases c.call <;> rfl

/-- The outcomes of a cycle that is complete account for all the chains that it had. -/
theorem outcomes_perm (h : Ledger p s₀ es s) {k : Nat} (on : p k = true)
    (complete : s.isComplete k = true) : ((outcomesOf k es).map Outcome.group).Perm
      ((s₀.chains.filter fun c => c.cycle = k).map Chain.group) := by
  have perm := (h.account.filter fun t => t.2.1 = k).map fun t => t.2.2
  have narrow : ∀ tags : List (Nat × Nat × String),
      ((tags.filter fun t => p t.2.1).filter fun t => t.2.1 = k) =
        tags.filter fun t => t.2.1 = k := by
    intro tags
    rw [List.filter_filter]
    refine List.filter_congr fun t _ => ?_
    by_cases own : t.2.1 = k
    · simp [own, on]
    · simp [own]
  have landed : (s.chains.filter fun c => c.cycle = k) = [] := by
    refine List.filter_eq_nil_iff.2 fun c hc => ?_
    simpa using List.all_eq_true.1 complete c hc
  rw [narrow, narrow, List.filter_append, List.map_append, groups_of_ended, groups_of_tags,
    groups_of_tags, landed, List.map_nil, List.append_nil] at perm
  exact perm

end Ledger

/-- Every effect keeps the account of the cycles that it does not begin. -/
theorem Effect.ledger {view : Context} {a : Action} {s₀ s s' : State} {before es : List Event}
    {p : Nat → Bool} (e : Effect view a s es s') (num : Numbered s) (h : Ledger p s₀ before s)
    (new : ∀ n chains, .fannedOut n chains ∈ es → p n = false) : Ledger p s₀ (before ++ es) s' := by
  cases e with
  | keep | refuse => exact h.still rfl (fun _ hc _ => hc) rfl
  | install | stop | order | expire | die | skip => exact h.still rfl (fun _ hc _ => hc) rfl
  | @call id =>
    have claimed : Ledger p s₀ before s.claim := ⟨h.account, h.cycles⟩
    exact claimed.fanOut (new _ _ (List.mem_singleton_self _)) _ _
  | @begin _ n =>
    have unordered : Ledger p s₀ before (s.unorder n) := ⟨h.account, h.cycles⟩
    exact unordered.fanOut (new _ _ (List.mem_singleton_self _)) _ _
  | ask | fetch => exact h.still (by rw [setStage_tags]) (fun _ hc _ => hc) rfl
  | fail flies => exact h.finish num flies _
  | @deliver _ c _ messages flies =>
    have handed : Ledger p s₀ (before ++ messages.map fun m => .delivered c.number m.1 m.2) s :=
      h.still rfl (fun _ hc _ => hc) (by simp [ends, List.filterMap_map, Function.comp_def,
        Event.endOf?])
    rw [← List.append_assoc]
    exact handed.finish num flies _
  | @collect _ c => exact h.collect c

/-! ## One cycle -/

/-- A cycle that has its number, and does not wait to begin. -/
structure Spent (k : Nat) (s : State) : Prop where
  lt : k < s.next
  begun : k ∉ s.ordered

theorem Numbered.spent {s : State} (h : Numbered s) {k : Nat}
    (flies : k ∈ s.cycles.map Cycle.number) : Spent k s where
  lt := h.cycles_lt k (List.mem_append_right _ flies)
  begun := fun waits => (List.nodup_append.1 h.cycles_nodup).2.2 k waits k flies rfl

theorem Effect.next_le {view : Context} {a : Action} {s s' : State} {es : List Event}
    (e : Effect view a s es s') : s.next ≤ s'.next := by
  cases e with
  | install | order => exact Nat.le_succ _
  | call => exact Nat.le_trans (Nat.le_succ _) (Nat.le_add_right _ _)
  | begin => exact Nat.le_add_right _ _
  | collect => exact Nat.le_of_eq (collect_next _ _).symm
  | keep | stop | refuse | expire | die | skip | ask | fetch | fail | deliver => exact Nat.le_refl _

theorem not_fannedOut_collect {s : State} {c : Cycle} {n : Nat} {chains : List Nat} :
    .fannedOut n chains ∉ (s.collect c).2 := by
  unfold State.collect
  cases c.call <;> simp

/-- It does not begin again, -/
theorem Effect.begins_not {view : Context} {a : Action} {s s' : State} {es : List Event}
    (e : Effect view a s es s') {k : Nat} (h : Spent k s) {n : Nat} {chains : List Nat}
    (fans : .fannedOut n chains ∈ es) : n ≠ k := by
  cases e with
  | call =>
    obtain ⟨rfl, -⟩ := Event.fannedOut.inj (List.mem_singleton.1 fans)
    exact (Nat.ne_of_lt h.lt).symm
  | begin waits =>
    obtain ⟨rfl, -⟩ := Event.fannedOut.inj (List.mem_singleton.1 fans)
    exact fun same => h.begun (same ▸ waits)
  | collect => exact absurd fans not_fannedOut_collect
  | install | keep | stop | refuse | order | expire | die | skip | ask | fetch | fail | deliver =>
    simp [State.finish] at fans

/-- and once it has ended it does not come back. -/
theorem Effect.spent {view : Context} {a : Action} {s s' : State} {es : List Event}
    (e : Effect view a s es s') {k : Nat} (h : Spent k s) :
    Spent k s' ∧ (k ∉ s.cycles.map Cycle.number → k ∉ s'.cycles.map Cycle.number) := by
  refine ⟨⟨Nat.lt_of_lt_of_le h.lt e.next_le, ?_⟩, ?_⟩
  · cases e with
    | order =>
      have other : k ≠ s.next := Nat.ne_of_lt h.lt
      simpa [other] using h.begun
    | skip | begin => exact fun waits => h.begun (List.mem_of_mem_erase waits)
    | collect => rw [collect_ordered]; exact h.begun
    | install | keep | stop | refuse | call | expire | die | ask | fetch | fail | deliver =>
      exact h.begun
  · intro gone
    cases e with
    | call =>
      have other : k ≠ s.next := Nat.ne_of_lt h.lt
      simpa [State.fanOut, State.claim, other] using gone
    | begin waits =>
      have other : k ≠ _ := fun same => h.begun (same ▸ waits)
      simpa [State.fanOut, State.unorder, other] using gone
    | fail | deliver => rw [map_number_finish]; exact gone
    | collect =>
      rw [collect_cycles]
      exact fun back => gone ((List.filter_sublist.map _).subset back)
    | install | keep | stop | refuse | order | expire | die | skip | ask | fetch => exact gone

/-- **The account of a cycle** that has begun: its chains end or stay in flight, and it gains the
outcomes of those that end. -/
theorem Run.ledger {s₀ s : State} {moves : List Move} (run : Run s₀ moves s) (num : Numbered s₀)
    {k : Nat} (spent : Spent k s₀) : Ledger (· == k) s₀ (trace moves) s := by
  have both : Ledger (· == k) s₀ (trace moves) s ∧ Spent k s := by
    refine run.keeps (P := fun es s => Ledger (· == k) s₀ es s ∧ Spent k s) ?_ num
      ⟨ledger_refl _ _, spent⟩
    intro _ _ _ _ _ _ num e h
    refine ⟨e.ledger num h.1 fun n chains fans => ?_, (e.spent h.2).1⟩
    simpa using e.begins_not h.2 fans
  exact both.1

/-- A cycle has no other outcomes than those of the chains that it began. -/
theorem Run.of_fanOut {s s' : State} {k : Nat} {call : Option Nat} {groups : List String}
    {moves : List Move} (run : Run (s.fanOut k call groups).1 moves s')
    (num : Numbered (s.fanOut k call groups).1) {c : Cycle} (flies : c ∈ s'.cycles)
    (number : c.number = k) : c.call = call ∧ c.outcomes = outcomesOf k (trace moves) := by
  have opened : (⟨k, call, []⟩ : Cycle) ∈ (s.fanOut k call groups).1.cycles :=
    List.mem_append_right _ (List.mem_singleton_self _)
  have ledger := run.ledger num (num.spent (List.mem_map_of_mem opened))
  obtain ⟨c₀, flies₀, number₀, call₀, outcomes⟩ := ledger.cycles c flies (by simp [number])
  obtain rfl := num.cycle_eq flies₀ opened (number₀.trans number)
  exact ⟨call₀.symm, by simpa [number] using outcomes⟩

/-- A cycle in flight that has ended does not come back. -/
theorem Run.gone {s₀ s : State} {moves : List Move} (run : Run s₀ moves s) (num : Numbered s₀)
    {k : Nat} (spent : Spent k s₀) (gone : k ∉ s₀.cycles.map Cycle.number) :
    k ∉ s.cycles.map Cycle.number := by
  have both : Spent k s ∧ k ∉ s.cycles.map Cycle.number := by
    refine run.keeps (P := fun _ s => Spent k s ∧ k ∉ s.cycles.map Cycle.number) ?_ num ⟨spent, gone⟩
    intro _ _ _ _ _ _ _ e h
    exact ⟨(e.spent h.1).1, (e.spent h.1).2 h.2⟩
  exact both.2

end SealedPost.Poller

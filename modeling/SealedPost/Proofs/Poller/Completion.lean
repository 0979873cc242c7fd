import Mathlib.Algebra.GroupWithZero.Nat
import SealedPost.Proofs.Poller.Course
import SealedPost.Proofs.Poller.Stop

/-!
# Cycles come to an end

Wherever a cycle has come to, its chains can be taken on until all have ended, by nothing but their
own turns and whatever the network answers them (`exists_completion`). Neither the flag nor the
timer changes on the way, and the other chains stay where they are (`Completes.aside`).
-/

namespace SealedPost.Poller

/-- What the chain of a group gets: its view of the stores and the answers of the network. -/
structure Reply where
  view : Context
  lookup : Except NetworkError (List Snode)
  pick : Nat
  fetch : Except NetworkError Json

/-- The action with which a chain goes on. -/
def Reply.action (r : Reply) (c : Chain) : Action :=
  match c.stage with
  | .queued => .lookup c.number
  | .lookup => .lookedUp c.number r.lookup r.pick
  | .fetch _ => .fetched c.number r.fetch

theorem Reply.resumes (r : Reply) (c : Chain) : c.Resumes (r.action c) := by
  unfold Reply.action
  cases stage : c.stage with
  | queued => exact ⟨rfl, stage⟩
  | lookup => exact ⟨rfl, stage⟩
  | fetch snode => exact ⟨rfl, snode, stage⟩

/-- What stays the same of a cycle. -/
def Cycle.tag (c : Cycle) : Nat × Option Nat := (c.number, c.call)

/-- A run of nothing but the chains of one cycle, up to its end. -/
structure Completes (k : Nat) (reply : String → Reply) (s : State) (moves : List Move) (s' : State) :
    Prop where
  run : Run s moves s'
  complete : s'.isComplete k = true
  polling : s'.polling = s.polling
  timer : s'.timer = s.timer
  cycles : s'.cycles.map Cycle.tag = s.cycles.map Cycle.tag
  replied : ∀ t ∈ turns s moves, t.polling = s.polling ∧
    ∃ c : Chain, c.cycle = k ∧ c.tag ∈ s.tags ∧ t.view = (reply c.group).view ∧
      t.action = (reply c.group).action c

/-! ## Work left -/

def Stage.left : Stage → Nat
  | .queued => 3
  | .lookup => 2
  | .fetch _ => 1

/-- How many turns the chains of a cycle still take, at most. -/
def State.left (k : Nat) (s : State) : Nat :=
  ((s.chains.filter fun c => c.cycle = k).map fun c => c.stage.left).sum

theorem left_perm {k : Nat} {s : State} (h : Numbered s) {c : Chain} (flies : c ∈ s.chains)
    (mine : c.cycle = k) : s.left k = c.stage.left +
      (((s.chains.filter fun b => b.number ≠ c.number).filter fun b => b.cycle = k).map
        fun b => b.stage.left).sum := by
  have perm := perm_cons_filter_ne (f := Chain.number) flies h.chains_nodup
  have split := ((perm.filter fun b => b.cycle = k).map fun b => b.stage.left).sum_nat
  rw [State.left, split, List.filter_cons_of_pos (by simpa using mine), List.map_cons, List.sum_cons]

theorem left_finish {k : Nat} {s : State} (h : Numbered s) {c : Chain} (flies : c ∈ s.chains)
    (mine : c.cycle = k) (r : Except PollError Nat) : (s.finish c r).1.left k < s.left k := by
  have pos : 0 < c.stage.left := by cases c.stage <;> simp [Stage.left]
  rw [left_perm h flies mine]
  simp only [State.left, State.finish]
  omega

theorem left_setStage {k : Nat} {s : State} (h : Numbered s) {c : Chain} (flies : c ∈ s.chains)
    (mine : c.cycle = k) {stage : Stage} (less : stage.left < c.stage.left) :
    (s.setStage c.number stage).left k < s.left k := by
  have staged : ({ c with stage } : Chain) ∈ (s.setStage c.number stage).chains :=
    List.mem_map.2 ⟨c, flies, if_pos rfl⟩
  have others : ((s.setStage c.number stage).chains.filter fun b => b.number ≠ c.number) =
      s.chains.filter fun b => b.number ≠ c.number := by
    have numbers : ((fun b : Chain => decide (b.number ≠ c.number)) ∘ fun b : Chain =>
        if b.number = c.number then { b with stage } else b) =
        fun b : Chain => decide (b.number ≠ c.number) := by
      funext b
      simp only [Function.comp_apply]
      split <;> rfl
    rw [State.setStage, List.filter_map, numbers]
    refine (List.map_congr_left fun b hb => ?_).trans (List.map_id _)
    exact if_neg (by simpa using List.of_mem_filter hb)
  rw [left_perm h flies mine, left_perm (h.setStage _ _) staged mine]
  simp only [others]
  omega

/-! ## One turn after the other -/

/-- What a turn of a chain leaves as it was, and that it takes the chain on. -/
structure Advances (k : Nat) (s s' : State) : Prop where
  polling : s'.polling = s.polling
  timer : s'.timer = s.timer
  cycles : s'.cycles.map Cycle.tag = s.cycles.map Cycle.tag
  tags : s'.tags ⊆ s.tags
  left : s'.left k < s.left k

theorem Effect.advances {view : Context} {a : Action} {s s' : State} {es : List Event}
    (e : Effect view a s es s') (h : Numbered s) {c : Chain} (flies : c ∈ s.chains)
    (own : a.chain? = some c.number) : Advances c.cycle s s' := by
  have same : ∀ {b : Chain}, b ∈ s.chains → b.number = c.number → b = c :=
    fun hb => h.chain_eq hb flies
  have finished : ∀ r, Advances c.cycle s (s.finish c r).1 := by
    refine fun r => ⟨rfl, rfl, ?_, ?_, left_finish h flies rfl r⟩
    · simp only [State.finish, List.map_map]
      refine List.map_congr_left fun b _ => ?_
      simp only [Function.comp_apply]
      split <;> rfl
    · exact (List.filter_sublist.map Chain.tag).subset
  have staged : ∀ stage : Stage, stage.left < c.stage.left →
      Advances c.cycle s (s.setStage c.number stage) := by
    refine fun stage less => ⟨rfl, rfl, rfl, ?_, left_setStage h flies rfl less⟩
    rw [setStage_tags]
    exact List.Subset.refl _
  cases e with
  | ask hb resumes =>
    obtain rfl := same hb (Option.some.inj own)
    exact staged _ (by simp [resumes.2, Stage.left])
  | fetch hb resumes =>
    obtain rfl := same hb (Option.some.inj own)
    exact staged _ (by simp [resumes.2, Stage.left])
  | fail hb resumes =>
    obtain rfl := same hb (Option.some.inj (resumes.chain?.symm.trans own))
    exact finished _
  | deliver hb =>
    obtain rfl := same hb (Option.some.inj own)
    exact finished _
  | install | keep | stop | refuse | call | order | expire | die | skip | begin | collect => cases own

/-- **A cycle can always be brought to its end**, whatever the network answers its chains. -/
theorem exists_completion {s : State} (h : Numbered s) (k : Nat) (reply : String → Reply) :
    ∃ moves s', Completes k reply s moves s' := by
  induction work : s.left k using Nat.strongRecOn generalizing s with
  | ind work ih =>
    by_cases complete : s.isComplete k = true
    · exact ⟨[], s, .nil, complete, rfl, rfl, rfl, by simp [turns]⟩
    · obtain ⟨c, flies, mine⟩ : ∃ c ∈ s.chains, c.cycle = k := by
        simpa [State.isComplete] using complete
      have resumes := (reply c.group).resumes c
      obtain ⟨⟨s₁, es⟩, step⟩ :=
        Option.isSome_iff_exists.1 (step_of_resumes h flies (reply c.group).view resumes)
      have e := step_effect resumes.chain? step
      have advances := e.advances h flies resumes.chain?
      rw [mine] at advances
      obtain ⟨moves, s', rest⟩ := ih _ (work ▸ advances.left) (e.numbered h) rfl
      refine ⟨⟨(reply c.group).view, (reply c.group).action c, es⟩ :: moves, s',
        rest.run.cons _ step, rest.complete, rest.polling.trans advances.polling,
        rest.timer.trans advances.timer, rest.cycles.trans advances.cycles, ?_⟩
      intro t ht
      simp only [turns, State.after, step, List.mem_cons] at ht
      rcases ht with rfl | ht
      · exact ⟨rfl, c, mine, List.mem_map_of_mem flies, rfl, rfl⟩
      · obtain ⟨polling, b, cycle, known, turn⟩ := rest.replied t ht
        exact ⟨polling.trans advances.polling, b, cycle, advances.tags known, turn⟩

/-- Nobody stops the poller meanwhile. -/
theorem Completes.unstopped {k : Nat} {reply : String → Reply} {s s' : State}
    {moves : List Move} (h : Completes k reply s moves s') : ∀ m ∈ moves, m.action ≠ .stop := by
  intro m hm stop
  have known := List.mem_map_of_mem (f := Move.action) hm
  rw [← map_action_turns s, stop] at known
  obtain ⟨t, ht, same⟩ := List.mem_map.1 known
  obtain ⟨-, c, -, -, -, action⟩ := h.replied t ht
  have resumes := (reply c.group).resumes c
  rw [← action, same] at resumes
  exact resumes

/-- The cycles that were in flight still are. -/
theorem Completes.cycle {k : Nat} {reply : String → Reply} {s s' : State} {moves : List Move}
    (h : Completes k reply s moves s') {c : Cycle} (flies : c ∈ s.cycles) :
    ∃ c' ∈ s'.cycles, c'.number = c.number ∧ c'.call = c.call := by
  have known : c.tag ∈ s'.cycles.map Cycle.tag := h.cycles ▸ List.mem_map_of_mem flies
  obtain ⟨c', flies', tag⟩ := List.mem_map.1 known
  exact ⟨c', flies', Prod.mk.inj tag⟩

/-- A chain of another cycle stays where it is. -/
theorem Completes.aside {k : Nat} {reply : String → Reply} {s s' : State} {moves : List Move}
    (h : Completes k reply s moves s') (num : Numbered s) {c : Chain} (flies : c ∈ s.chains)
    (other : c.cycle ≠ k) : s'.chain? c.number = some c := by
  have course := h.run.course num flies
  have none : own c.number (turns s moves) = [] := by
    refine List.filter_eq_nil_iff.2 fun t ht mine => ?_
    obtain ⟨-, b, cycle, known, -, action⟩ := h.replied t ht
    obtain ⟨c', flies', tag⟩ := List.mem_map.1 known
    rw [action, ((reply b.group).resumes b).chain?] at mine
    obtain ⟨number, cycle', -⟩ : c'.number = b.number ∧ c'.cycle = b.cycle ∧ c'.group = b.group := by
      simpa [Chain.tag] using tag
    obtain rfl := num.chain_eq flies' flies (number.trans (by simpa using mine))
    exact other (cycle'.trans cycle)
  rw [none] at course
  exact course.unmoved.2

/-! ## The end of a cycle -/

/-- A cycle ends where it is in flight and complete. -/
theorem step_collect_iff {s s' : State} (h : Numbered s) {view : Context} {n : Nat}
    {es : List Event} : s.step view (.collect n) = some (s', es) ↔
      ∃ c ∈ s.cycles, c.number = n ∧ s.isComplete n = true ∧ s.collect c = (s', es) := by
  constructor
  · intro step
    simp only [State.step] at step
    split at step
    · rename_i c found
      obtain ⟨flies, number⟩ := cycle?_eq_some found
      simp only [Option.ite_none_right_eq_some, Option.some.injEq] at step
      exact ⟨c, flies, number, step⟩
    · cases step
  · rintro ⟨c, flies, number, complete, e⟩
    simp [State.step, (cycle?_eq_some_iff h).2 ⟨flies, number⟩, complete, e]

/-! ## What a single call returns -/

/-- What a single call that begins in `s` returns, and what is done until then: at once, or as its
cycle ends. -/
inductive Returns (s : State) (view : Context) (id : Nat) : List Move → State → List Outcome → Prop
  | atOnce {s' : State} {es : List Event} {outcomes : List Outcome} :
      s.step view (.call id) = some (s', es) → .returned id outcomes ∈ es →
      Returns s view id [] s' outcomes
  | later {s₁ s' s'' : State} {es : List Event} {during : List Move} {outcomes : List Outcome}
      (last : Context) : s.step view (.call id) = some (s₁, es) → Run s₁ during s' →
      s'.step last (.collect s.next) = some (s'', [.returned id outcomes]) →
      Returns s view id during s' outcomes

theorem step_call {s : State} {view : Context} (idle : s.polling = false) (id : Nat)
    (groups : view.groups ≠ []) :
    s.step view (.call id) = some (s.claim.fanOut s.next (some id) view.groups) := by
  simp [State.step, State.call, State.claim, idle, groups]

/-- A call without groups leaves no cycle. -/
theorem call_nil {s s' : State} {view : Context} {id : Nat} {es : List Event}
    (num : Numbered s) (idle : s.polling = false) (groups : view.groups = [])
    (step : s.step view (.call id) = some (s', es)) :
    Spent s.next s' ∧ s.next ∉ s'.cycles.map Cycle.number ∧
      ∀ outcomes, .returned id outcomes ∈ es → outcomes = [] := by
  have begun : s.next ∉ s.ordered :=
    fun waits => Nat.lt_irrefl _ (num.cycles_lt _ (List.mem_append_left _ waits))
  simp only [State.step, State.call, idle, groups, State.fanOut, State.chainsFor, State.collect,
    Bool.false_eq_true, if_false, List.isEmpty_nil, if_true, List.append_nil, List.length_nil,
    Nat.add_zero, List.map_nil, Option.some.injEq, Prod.mk.injEq] at step
  obtain ⟨rfl, rfl⟩ := step
  exact ⟨⟨Nat.lt_succ_self _, begun⟩, by simp, by simp⟩

/-- A call without groups returns nothing. Any other returns what its chains have ended with, once
all of them have. -/
theorem Returns.collected {s s' : State} {view : Context} {id : Nat} {during : List Move}
    {outcomes : List Outcome} (returns : Returns s view id during s' outcomes)
    (num : Numbered s) (idle : s.polling = false) :
    view.groups = [] ∧ during = [] ∧ outcomes = [] ∨
    view.groups ≠ [] ∧ Run (s.claim.fanOut s.next (some id) view.groups).1 during s' ∧
      s.next ∈ s'.cycles.map Cycle.number ∧ s'.isComplete s.next = true ∧
      outcomes = outcomesOf s.next (trace during) := by
  have called : Effect view (.call id) s _ _ := .call idle
  have num₁ := called.numbered num
  by_cases groups : view.groups = []
  · refine Or.inl ⟨groups, ?_⟩
    cases returns with
    | atOnce step back => exact ⟨rfl, (call_nil num idle groups step).2.2 _ back⟩
    | later _ step run back =>
      obtain ⟨spent, gone, -⟩ := call_nil num idle groups step
      have num' := (step_effects num step).numbered num
      obtain ⟨c, flies, number, -⟩ := (step_collect_iff (run.numbered num')).1 back
      exact absurd (number ▸ List.mem_map_of_mem flies) (run.gone num' spent gone)
  · refine Or.inr ⟨groups, ?_⟩
    cases returns with
    | atOnce step back =>
      rw [step_call idle id groups] at step
      obtain ⟨rfl, rfl⟩ := Prod.mk.inj (Option.some.inj step)
      simp at back
    | later _ step run back =>
      rw [step_call idle id groups] at step
      obtain ⟨rfl, rfl⟩ := Prod.mk.inj (Option.some.inj step)
      obtain ⟨c, flies, number, complete, ended⟩ := (step_collect_iff (run.numbered num₁)).1 back
      obtain ⟨call, own⟩ := run.of_fanOut num₁ flies number
      have same : outcomes = c.outcomes := by
        simpa [State.collect, call] using (congrArg Prod.snd ended).symm
      exact ⟨run, number ▸ List.mem_map_of_mem flies, complete, same.trans own⟩

end SealedPost.Poller

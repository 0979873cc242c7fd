import SealedPost.Poller.Timeline
import SealedPost.Proofs.Poller.Flag

/-!
# Pollers on a clock make runs

Whatever is done to a timeline, and however long it runs, each of its pollers has only made moves of
its own (`Timeline.Leads`). What holds of every run of a poller therefore holds of every poller on
every clock: `Timeline.Reached.run` is the way from one to the other.
-/

namespace SealedPost.Poller

namespace Timeline

/-- From one timeline to another every poller makes a run. Its timers do not die, unless the clock
gives them no period. -/
structure Leads (w w' : Timeline) : Prop where
  interval_eq : w'.interval = w.interval
  runs : ∀ p, ∃ moves, Run (w.poller p) moves (w'.poller p) ∧
    (0 < w.interval → ∀ m ∈ moves, m.action.hasPeriod = true)

theorem Leads.of_pollers {w w' : Timeline} (pollers : w'.pollers = w.pollers)
    (interval : w'.interval = w.interval) : Leads w w' where
  interval_eq := interval
  runs p := ⟨[], by rw [poller, poller, pollers]; exact .nil, by simp⟩

theorem Leads.refl (w : Timeline) : Leads w w := .of_pollers rfl rfl

theorem Leads.trans {w w₁ w₂ : Timeline} (h : Leads w w₁) (h' : Leads w₁ w₂) : Leads w w₂ where
  interval_eq := h'.interval_eq.trans h.interval_eq
  runs p := by
    obtain ⟨moves, run, period⟩ := h.runs p
    obtain ⟨later, run', period'⟩ := h'.runs p
    refine ⟨moves ++ later, run.append run', fun positive m hm => ?_⟩
    rcases List.mem_append.1 hm with hm | hm
    · exact period positive m hm
    · exact period' (h.interval_eq ▸ positive) m hm

theorem Leads.foldl {α : Type} {f : Timeline → α → Timeline} (step : ∀ w a, Leads w (f w a))
    (as : List α) (w : Timeline) : Leads w (as.foldl f w) := by
  induction as generalizing w with
  | nil => exact .refl w
  | cons a as ih => exact (step w a).trans (ih (f w a))

/-! ## One poller at a time -/

/-- A move of one poller leaves the others where they are. -/
theorem Leads.of_step {w : Timeline} {p : Nat} {view : Context} {a : Action} {s : State}
    {es : List Event} (step : (w.poller p).step view a = some (s, es))
    (period : 0 < w.interval → a.hasPeriod = true) :
    Leads w { w with pollers := w.pollers.set p s } where
  interval_eq := rfl
  runs q := by
    by_cases moved : p = q ∧ p < w.pollers.length
    · obtain ⟨rfl, inside⟩ := moved
      refine ⟨[⟨view, a, es⟩], ?_, ?_⟩
      · have after : poller { w with pollers := w.pollers.set p s } p = s := by
          simp [poller, inside]
        rw [after]
        exact .snoc _ .nil step
      · intro positive m hm
        rw [List.mem_singleton.1 hm]
        exact period positive
    · refine ⟨[], ?_, by simp⟩
      have still : poller { w with pollers := w.pollers.set p s } q = w.poller q := by
        simp only [poller]
        by_cases hq : p = q
        · have outside : w.pollers.length ≤ p := Nat.le_of_not_lt fun h => moved ⟨hq, h⟩
          rw [List.set_eq_of_length_le outside]
        · rw [List.getElem?_set_ne hq]
      rw [still]
      exact .nil

theorem modify_stop (w : Timeline) (p : Nat) :
    w.pollers.modify p State.stop = w.pollers.set p (w.poller p).stop := by
  apply List.ext_getElem?
  intro q
  rw [List.getElem?_modify, List.getElem?_set]
  by_cases hq : p = q
  · subst hq
    cases hp : w.pollers[p]? with
    | none => simp [List.getElem?_eq_none_iff.1 hp]
    | some s =>
      obtain ⟨inside, found⟩ := List.getElem?_eq_some_iff.1 hp
      simp [poller, inside, found]
  · simp [hq]

theorem leads_release (w : Timeline) (p : Nat) : Leads w (w.release p) := by
  unfold release
  split
  · exact .refl w
  · rw [modify_stop]
    have step : (w.poller p).step ⟨[], fun _ => .error .noData⟩ .stop =
        some ((w.poller p).stop, []) := rfl
    exact .of_step step fun _ => rfl

theorem leads_follow (w : Timeline) (p : Nat) (event : Event) : Leads w (w.follow p event) := by
  cases event with
  | started | ordered | fannedOut | lookup | fetch | delivered => exact .of_pollers rfl rfl
  | finished =>
    unfold follow
    dsimp only
    split <;> exact .of_pollers rfl rfl
  | returned id outcomes =>
    let called : Timeline :=
      { w with
        log := ⟨w.now, p, .returned id outcomes⟩ :: w.log
        calls := w.calls.filter fun c => c ≠ (p, id) }
    have noted : Leads w called := .of_pollers rfl rfl
    exact noted.trans (leads_release called p)

theorem leads_service (w : Timeline) (service : SwarmService) :
    Leads w { w with service := service } := .of_pollers rfl rfl

theorem leads_schedule (w : Timeline) (delay p : Nat) (job : Job) :
    Leads w (w.schedule delay p job) := .of_pollers rfl rfl

theorem leads_leap (w : Timeline) (ms : Nat) : Leads w (w.leap ms) := .of_pollers rfl rfl

/-! ## What the owner does -/

theorem poller_create (w : Timeline) (p : Nat) : w.create.1.poller p = w.poller p := by
  simp only [create, poller]
  by_cases inside : p < w.pollers.length
  · rw [List.getElem?_append_left inside]
  · rw [List.getElem?_append_right (Nat.not_lt.1 inside),
      List.getElem?_eq_none (Nat.not_lt.1 inside)]
    cases p - w.pollers.length <;> rfl

theorem leads_create (w : Timeline) : Leads w w.create.1 where
  interval_eq := rfl
  runs p := ⟨[], by rw [poller_create]; exact .nil, by simp⟩

theorem leads_hold (w : Timeline) (p : Option Nat) : Leads w (w.hold p) := by
  have held : Leads w { w with held := p } := .of_pollers rfl rfl
  unfold hold
  split
  · exact held.trans (leads_release _ _)
  · exact held

theorem leads_holdShared (w : Timeline) : Leads w w.holdShared := by
  unfold holdShared
  split
  · exact leads_hold w _
  · have registered : Leads w.create.1 { w.create.1 with registered := some w.create.2 } :=
      .of_pollers rfl rfl
    exact ((leads_create w).trans registered).trans (leads_hold _ _)

theorem leads_holdNew (w : Timeline) : Leads w w.holdNew :=
  (leads_create w).trans (leads_hold _ _)

theorem leads_letGo (w : Timeline) : Leads w w.letGo := by
  have forgotten : Leads w { w with registered := none } := .of_pollers rfl rfl
  have dropped := forgotten.trans (leads_hold { w with registered := none } none)
  unfold letGo
  simp only
  split
  · exact dropped.trans (leads_release _ _)
  · exact dropped

theorem leads_callLater (w : Timeline) (p : Nat) : Leads w (w.callLater p).1 := .of_pollers rfl rfl

/-! ## Actions -/

variable [Curve]

theorem leads_perform (w : Timeline) (p : Nat) {a : Action}
    (period : 0 < w.interval → a.hasPeriod = true) : Leads w (w.perform p a).1 := by
  unfold perform
  split
  · exact .refl w
  · rename_i s events step
    exact (Leads.of_step step period).trans (.foldl (fun w e => leads_follow w p e) events _)

/-! ## Jobs -/

theorem leads_runFetch (w : Timeline) (p chain : Nat) (group : String) (rule : SwarmRule) :
    Leads w (w.runFetch p chain group rule) :=
  (leads_service w (w.service.fetch rule group).2).trans (leads_perform _ p fun _ => rfl)

theorem leads_runFetches (p : Nat) (events : List Event) (w : Timeline) :
    Leads w (w.runFetches p events) := by
  induction events generalizing w with
  | nil => exact .refl w
  | cons event rest ih =>
    cases event with
    | fetch chain group snode nodes =>
      by_cases now : (w.service.ruleOf group).fetchDelay = 0
      · simp only [runFetches, if_pos now]
        exact (leads_runFetch w p chain group _).trans (ih _)
      · simp only [runFetches, if_neg now]
        exact (leads_schedule w _ p _).trans (ih _)
    | started | ordered | fannedOut | lookup | delivered | finished | returned => exact ih w

theorem leads_runAnswer (w : Timeline) (p chain : Nat)
    (answer : Except NetworkError (List Snode)) : Leads w (w.runAnswer p chain answer) :=
  (leads_perform w p fun _ => rfl).trans (leads_runFetches p _ _)

theorem leads_runLookup (w : Timeline) (p chain : Nat) (group : String) (rule : SwarmRule) :
    Leads w (w.runLookup p chain group rule) := by
  unfold runLookup
  split
  · exact leads_runAnswer w p chain _
  · have counted := leads_service w w.service.countLookup
    simp only
    split
    · exact counted.trans (leads_runAnswer _ p chain _)
    · exact counted.trans (leads_schedule _ _ p _)

theorem leads_runChain (w : Timeline) (p chain : Nat) : Leads w (w.runChain p chain) := by
  have begun := leads_perform w p (a := .lookup chain) fun _ => rfl
  unfold runChain
  split
  · rename_i w₁ _ group performed
    rw [performed] at begun
    simp only
    split
    · exact begun.trans (leads_runLookup w₁ p chain group _)
    · exact begun.trans (leads_schedule w₁ _ p _)
  · rename_i w₁ _ _ performed
    rw [performed] at begun
    exact begun

theorem leads_runTick (w : Timeline) (p timer : Nat) : Leads w (w.runTick p timer) := by
  unfold runTick
  split
  · rename_i none
    exact leads_perform w p fun positive => absurd none (Nat.ne_of_gt positive)
  · have ticked := leads_perform w p (a := .tick timer) fun _ => rfl
    simp only
    split
    · exact ticked.trans (leads_schedule _ _ p _)
    · exact ticked

theorem leads_run (w : Timeline) (task : Task) : Leads w (w.run task) := by
  obtain ⟨p, job⟩ := task
  cases job with
  | tick timer => exact leads_runTick w p timer
  | cycle number => exact leads_perform w p fun _ => rfl
  | call id => exact leads_perform w p fun _ => rfl
  | chain number => exact leads_runChain w p number
  | lookup chain group rule => exact leads_runLookup w p chain group rule
  | nodes chain group => exact leads_runAnswer w p chain _
  | fetch chain group rule => exact leads_runFetch w p chain group rule
  | collect cycle => exact leads_perform w p fun _ => rfl

/-! ## Time -/

theorem leads_round (w : Timeline) : Leads w w.round := by
  have taken : Leads w { w with line := [] } := .of_pollers rfl rfl
  exact taken.trans (.foldl leads_run w.line { w with line := [] })

theorem leads_settle (w : Timeline) : Leads w w.settle :=
  (((leads_round w).trans (leads_round _)).trans (leads_round _)).trans (leads_round _)

theorem leads_runUntil (enough : Timeline → Bool) (ms : Nat) (w : Timeline) :
    Leads w (w.runUntil enough ms) := by
  induction ms using Nat.strongRecOn generalizing w with
  | ind ms ih =>
    unfold runUntil
    split
    · exact .refl w
    · simp only
      split
      · exact leads_settle w
      · split
        · exact (leads_settle w).trans (leads_leap _ ms)
        · rename_i wait _
          split
          · rename_i sooner
            exact ((leads_settle w).trans (leads_leap _ wait)).trans (ih _ (by omega) _)
          · exact (leads_settle w).trans (leads_leap _ ms)

/-! ## Whole scripts -/

theorem leads_start (w : Timeline) (p : Nat) : Leads w (w.start p) := leads_perform w p fun _ => rfl

theorem leads_stop (w : Timeline) (p : Nat) : Leads w (w.stop p) := leads_perform w p fun _ => rfl

theorem leads_callAndWait (w : Timeline) (p : Nat) : Leads w (w.callAndWait p).1 := by
  have called : Leads w
      { w with calls := (p, w.nextCall) :: w.calls, nextCall := w.nextCall + 1 } :=
    .of_pollers rfl rfl
  have begun := called.trans (leads_perform _ p (a := .call w.nextCall) fun _ => rfl)
  unfold callAndWait
  simp only
  split
  · exact begun
  · exact begun.trans (leads_runUntil _ _ _)

/-- What an owner of pollers does, or lets happen: all that a timeline is ever used for. -/
inductive Deed (w : Timeline) : Timeline → Prop
  | holdShared : Deed w w.holdShared
  | holdNew : Deed w w.holdNew
  | letGo : Deed w w.letGo
  | start {p : Nat} (known : p < w.pollers.length) : Deed w (w.start p)
  | stop {p : Nat} (known : p < w.pollers.length) : Deed w (w.stop p)
  | callLater {p : Nat} (known : p < w.pollers.length) : Deed w (w.callLater p).1
  | callAndWait {p : Nat} (known : p < w.pollers.length) : Deed w (w.callAndWait p).1
  | advance (ms : Nat) : Deed w (w.advance ms)
  /-- The stores change, as somebody joins a group or leaves it. -/
  | store (store : Store) : Deed w { w with store := store }
  /-- The swarm changes, as somebody writes to a mailbox or the network does. -/
  | service (service : SwarmService) : Deed w { w with service := service }
  | takeLog : Deed w w.takeLog.2

theorem Deed.leads {w w' : Timeline} (h : Deed w w') : Leads w w' := by
  cases h with
  | holdShared => exact leads_holdShared w
  | holdNew => exact leads_holdNew w
  | letGo => exact leads_letGo w
  | start => exact leads_start w _
  | stop => exact leads_stop w _
  | callLater => exact leads_callLater w _
  | callAndWait => exact leads_callAndWait w _
  | advance ms => exact leads_runUntil _ ms w
  | service service => exact leads_service w service
  | store | takeLog => exact .of_pollers rfl rfl

/-- The timelines that owners of pollers can come to. -/
inductive Reached (interval delay : Nat) : Timeline → Prop
  | empty : Reached interval delay (empty interval delay)
  | after {w w' : Timeline} : Reached interval delay w → Deed w w' → Reached interval delay w'

theorem Reached.leads {interval delay : Nat} {w : Timeline} (h : Reached interval delay w) :
    Leads (Timeline.empty interval delay) w := by
  induction h with
  | empty => exact .refl _
  | after _ deed ih => exact ih.trans deed.leads

/-- **Every poller on every clock makes a run**, and its timers do not die if they have a period. -/
theorem Reached.run {interval delay : Nat} {w : Timeline} (h : Reached interval delay w) (p : Nat) :
    ∃ moves, Run .idle moves (w.poller p) ∧
      (0 < interval → ∀ m ∈ moves, m.action.hasPeriod = true) := h.leads.runs p

/-- So its flag goes with its timer. -/
theorem Reached.coherent {interval delay : Nat} {w : Timeline} (h : Reached interval delay w)
    (positive : 0 < interval) (p : Nat) : Coherent (w.poller p) := by
  obtain ⟨moves, run, period⟩ := h.run p
  exact run.coherent (period positive)

end Timeline

end SealedPost.Poller

import SealedPost.Proofs.Poller.Share

/-!
# What an owner does to a poller's share

A deed of an owner is something done at once and then changes of the timeline (`Deed.stages`). What
is done at once has a share of each poller as well (`Stage`): it is started, stopped or called for a
cycle, or let go.
-/

namespace SealedPost.Poller

namespace Timeline

/-! ## The log -/

/-- What is in the log since an earlier time, unless the log has been taken. -/
def newsSince (w' w : Timeline) : List Entry :=
  (w'.log.take (w'.log.length - w.log.length)).reverse

theorem newsSince_of_log {w w' : Timeline} {es : List Entry} (log : w'.log = es.reverse ++ w.log) :
    w'.newsSince w = es := by
  simp [newsSince, log]

/-! ## Holding and letting go -/

/-- What is done with whole pollers: work stays as it is, and a poller is stopped if nobody keeps it
any longer. -/
structure Handover (w w' : Timeline) : Prop where
  leads : Leads w w'
  now_eq : w'.now = w.now
  line_eq : w'.line = w.line
  agenda_eq : w'.agenda = w.agenda
  log_eq : w'.log = w.log
  length_le : w.pollers.length ≤ w'.pollers.length
  state : ∀ p, w'.poller p = w.poller p ∨ w'.poller p = (w.poller p).stop

theorem Handover.release {w w' : Timeline} (h : Handover w w') (q : Nat) :
    Handover w (w'.release q) := by
  have leads := h.leads.trans (leads_release w' q)
  unfold Timeline.release at leads ⊢
  by_cases unkept : w'.isKept q = true
  · rw [if_pos unkept]
    exact h
  · rw [if_neg unkept] at leads ⊢
    refine { h with leads, length_le := ?_, state := fun p => ?_ }
    · rw [List.length_modify]
      exact h.length_le
    · by_cases own : p = q
      · subst own
        refine .inr ?_
        rw [poller_modify_stop]
        rcases h.state p with same | stopped
        · rw [same]
        · rw [stopped, stop_stop]
      · have same :
            poller { w' with pollers := w'.pollers.modify q State.stop } p = w'.poller p := by
          rw [modify_stop, poller_set_ne w' own]
        rw [same]
        exact h.state p

/-- Nothing is stopped before somebody lets go of it. -/
theorem handover_hold {w w' : Timeline} (h : Handover w w')
    (same : ∀ p, w'.poller p = w.poller p) (p : Option Nat) : Handover w (w'.hold p) := by
  have held : Handover w { w' with held := p } :=
    { h with
      leads := h.leads.trans (.of_pollers rfl rfl)
      state := fun q => .inl (same q) }
  unfold hold
  split
  · exact held.release _
  · exact held

theorem handover_refl (w : Timeline) : Handover w w :=
  ⟨.refl w, rfl, rfl, rfl, rfl, Nat.le_refl _, fun _ => .inl rfl⟩

theorem handover_create (w : Timeline) : Handover w w.create.1 :=
  ⟨leads_create w, rfl, rfl, rfl, rfl, by simp [create],
    fun p => .inl (poller_create w p)⟩

theorem handover_holdNew (w : Timeline) : Handover w w.holdNew :=
  handover_hold (handover_create w) (poller_create w) _

theorem handover_holdShared (w : Timeline) : Handover w w.holdShared := by
  unfold holdShared
  split
  · exact handover_hold (handover_refl w) (fun _ => rfl) _
  · have registered : Handover w { w.create.1 with registered := some w.create.2 } :=
      { handover_create w with
        leads := (leads_create w).trans (.of_pollers rfl rfl)
        state := fun p => .inl (poller_create w p) }
    exact handover_hold registered (poller_create w) _

theorem handover_letGo (w : Timeline) : Handover w w.letGo := by
  have forgotten : Handover w { w with registered := none } :=
    { handover_refl w with
      leads := .of_pollers rfl rfl
      state := fun _ => .inl rfl }
  have dropped := handover_hold forgotten (fun _ => rfl) none
  unfold letGo
  simp only
  split
  · exact dropped.release _
  · exact dropped

/-! ## Deeds -/

/-- The timeline in which a single call waits to be run at once. -/
def called (w : Timeline) (p : Nat) : Timeline :=
  { w with calls := (p, w.nextCall) :: w.calls, nextCall := w.nextCall + 1 }

theorem leads_called (w : Timeline) (p : Nat) : Leads w (w.called p) := .of_pollers rfl rfl

variable [Curve]

/-- What an owner does at once, with what is noted of it. -/
structure Stage (w w' : Timeline) (es : List Entry) : Prop where
  sound : Sound w'
  interval_eq : w'.interval = w.interval
  shares : ∀ p, ∃ evs, Share p w w' evs ∧ entriesOf p es = w.noted p evs

theorem Handover.stage {w w' : Timeline} (h : Handover w w') (sound : Sound w) : Stage w w' [] where
  sound := {
    toFit := h.leads.fit sound.toFit
    line := fun task mem => Nat.lt_of_lt_of_le (sound.line task (h.line_eq ▸ mem)) h.length_le
    agenda := fun a mem => by
      obtain ⟨later, known, waits⟩ := sound.agenda a (h.agenda_eq ▸ mem)
      exact ⟨h.now_eq ▸ later, Nat.lt_of_lt_of_le known h.length_le, waits⟩ }
  interval_eq := h.leads.interval_eq
  shares p := by
    refine ⟨[], .aside h.now_eq ?_ ?_ ?_, rfl⟩
    · rw [queue, h.line_eq, queue]
    · rw [alarms, h.agenda_eq, alarms]
    · exact h.state p

theorem stage_start {w : Timeline} (sound : Sound w) {p : Nat} (known : p < w.pollers.length) :
    Stage w (w.start p) (w.noted p (w.perform p .start).2) where
  sound := sound.perform known rfl
  interval_eq := (perform_frame w p .start).interval_eq
  shares q := by
    by_cases own : p = q
    · subst own
      exact ⟨_, share_unprompted known rfl, entriesOf_noted w p _⟩
    · obtain ⟨state, queue⟩ := perform_elsewhere w own .start
      exact ⟨[], .aside (perform_frame w p .start).now_eq queue (alarms_perform w q p .start)
        (.inl state), entriesOf_noted_ne w own _⟩

theorem stage_stop {w : Timeline} (sound : Sound w) {p : Nat} (known : p < w.pollers.length) :
    Stage w (w.stop p) [] where
  sound := sound.perform known rfl
  interval_eq := rfl
  shares q := by
    refine ⟨[], .aside rfl rfl rfl ?_, rfl⟩
    by_cases own : p = q
    · subst own
      exact .inr (poller_set_self known _)
    · exact .inl (poller_set_ne w (Ne.symm own) _)

/-- A poller's line once a single call to it has been made. -/
theorem stage_call {w w' : Timeline} (sound : Sound w) {p : Nat} (known : p < w.pollers.length)
    (leads : Leads w w') (now : w'.now = w.now) (agenda : w'.agenda = w.agenda)
    (pollers : w'.pollers = w.pollers)
    (line : w'.line = w.line ++ [⟨p, .call w.nextCall⟩] ∨
      w'.line = ⟨p, .call w.nextCall⟩ :: w.line) : Stage w w' [] where
  sound := {
    toFit := leads.fit sound.toFit
    line := fun task mem => by
      have mem : task ∈ w.line ∨ task = ⟨p, .call w.nextCall⟩ := by
        rcases line with line | line <;> rw [line] at mem
        · simpa using mem
        · exact (List.mem_cons.1 mem).symm
      rw [pollers]
      rcases mem with mem | rfl
      · exact sound.line task mem
      · exact known
    agenda := by rw [agenda, now, pollers]; exact sound.agenda }
  interval_eq := leads.interval_eq
  shares q := by
    have state : w'.poller q = w.poller q := by rw [poller, pollers, poller]
    have alarms : w'.alarms q = w.alarms q := by rw [alarms, agenda, Timeline.alarms]
    by_cases own : p = q
    · subst own
      refine ⟨[], .invite w.nextCall now (line.imp (fun line => ?_) fun line => ?_) alarms state, rfl⟩
      · rw [queue, line, jobsOf_append, jobsOf_cons_of_prompt? rfl]
        rfl
      · rw [queue, line, jobsOf_cons_of_prompt? rfl]
        rfl
    · refine ⟨[], .aside now ?_ alarms (.inl state), rfl⟩
      rcases line with line | line
      · rw [queue, line, jobsOf_append, jobsOf_cons_of_ne own]
        exact List.append_nil _
      · rw [queue, line, jobsOf_cons_of_ne own]
        rfl

theorem stage_called {w : Timeline} (sound : Sound w) {p : Nat} (known : p < w.pollers.length) :
    Stage w ((w.called p).behind [⟨p, .call w.nextCall⟩]) [] :=
  stage_call sound known ((leads_called w p).trans (leads_line _ _)) rfl rfl rfl (.inr rfl)

/-- The timeline in which a single call has been run as far as it goes at once. -/
def calledNow (w : Timeline) (p : Nat) : Timeline := ((w.called p).perform p (.call w.nextCall)).1

theorem callAndWait_fst (w : Timeline) (p : Nat) :
    (w.callAndWait p).1 =
      if (w.calledNow p).hasReturned p w.nextCall then w.calledNow p
      else (w.calledNow p).runUntil (hasReturned p w.nextCall)
        ((w.calledNow p).service.patience + 1) := rfl

theorem Sound.calledNow {w : Timeline} (sound : Sound w) {p : Nat}
    (known : p < w.pollers.length) : Sound (w.calledNow p) := by
  have called : Sound (w.called p) := { sound with toFit := (leads_called w p).fit sound.toFit }
  exact called.perform known rfl

theorem changes_callAndWait {w : Timeline} (sound : Sound w) {p : Nat}
    (known : p < w.pollers.length) :
    ∃ es, Changes ((w.called p).behind [⟨p, .call w.nextCall⟩]) es (w.callAndWait p).1 := by
  have front : Change ((w.called p).behind [⟨p, .call w.nextCall⟩]) _ (w.calledNow p) :=
    .work rfl rfl
  rw [callAndWait_fst]
  split
  · exact ⟨_, front.changes⟩
  · obtain ⟨⟨es, changes⟩, -⟩ :=
      changes_runUntil (hasReturned p w.nextCall) _ (sound.calledNow known)
    exact ⟨_, front.changes.trans changes⟩

/-- **A deed is something done at once, and then changes.** -/
theorem Deed.stages {w w' : Timeline} (deed : Deed w w') (sound : Sound w) :
    ∃ w₁ es₀ es, Stage w w₁ es₀ ∧ Changes w₁ es w' ∧ w'.newsSince w = es₀ ++ es := by
  have handed : ∀ {w'}, Handover w w' → ∃ w₁ es₀ es, Stage w w₁ es₀ ∧ Changes w₁ es w' ∧
      w'.newsSince w = es₀ ++ es := fun {w'} h =>
    ⟨w', [], [], h.stage sound, .refl, newsSince_of_log h.log_eq⟩
  cases deed with
  | holdShared => exact handed (handover_holdShared w)
  | holdNew => exact handed (handover_holdNew w)
  | letGo => exact handed (handover_letGo w)
  | service service =>
    exact handed { handover_refl w with leads := .of_pollers rfl rfl, state := fun _ => .inl rfl }
  | store store =>
    exact handed { handover_refl w with leads := .of_pollers rfl rfl, state := fun _ => .inl rfl }
  | @start p known =>
    exact ⟨_, _, [], stage_start sound known, .refl,
      (newsSince_of_log (perform_log w p .start)).trans (List.append_nil _).symm⟩
  | @stop p known => exact ⟨_, [], [], stage_stop sound known, .refl, newsSince_of_log rfl⟩
  | @callLater p known =>
    have stage := stage_call sound known (leads_callLater w p) rfl rfl rfl (.inl rfl)
    exact ⟨_, [], [], stage, .refl, newsSince_of_log rfl⟩
  | @callAndWait p known =>
    obtain ⟨es, changes⟩ := changes_callAndWait sound known
    exact ⟨_, [], es, stage_called sound known, changes,
      newsSince_of_log (changes.log sound.period)⟩
  | advance ms =>
    have idle : Stage w w [] := (handover_refl w).stage sound
    obtain ⟨⟨es, changes⟩, -⟩ := changes_runUntil (fun _ => false) ms sound
    exact ⟨w, [], es, idle, changes, newsSince_of_log (changes.log sound.period)⟩
  | takeLog =>
    have kept : Stage w w.takeLog.2 [] :=
      ⟨{ sound with toFit := Deed.takeLog.leads.fit sound.toFit }, rfl,
        fun p => ⟨[], .aside rfl rfl rfl (.inl rfl), rfl⟩⟩
    have none : w.takeLog.2.log = [] := rfl
    exact ⟨_, [], [], kept, .refl, by simp [newsSince, none]⟩

end Timeline

end SealedPost.Poller

import SealedPost.Proofs.Poller.Run
import SealedPost.Proofs.Poller.Timeline

/-!
# Changes of a timeline

A timeline runs its work in rounds, and a job may go on at once from one action to the next. Taken
apart, all of that is a sequence of changes, and `Change` says what one change can be: a job is
taken from the front of the line and its action done, an answer arrives, something is put off, or
the clock moves because no work is left. What every change keeps holds however long a timeline
runs.

- `Follows`: what the events of an action leave behind.
- `Performed`: what an action of one poller does to the timeline.
- `Change.sound`: work belongs to pollers that exist, and what is put off is still to come.
-/

namespace SealedPost.Poller

namespace Timeline

/-! ## What follows from an event -/

/-- The work that an event of a poller in the state `s` puts into the line. -/
def followUps (p : Nat) (s : State) : Event → List Task
  | .started timer => [⟨p, .tick timer⟩]
  | .ordered _ cycle => [⟨p, .cycle cycle⟩]
  | .fannedOut _ chains => chains.map fun n => ⟨p, .chain n⟩
  | .finished _ cycle _ => if s.isComplete cycle then [⟨p, .collect cycle⟩] else []
  | .lookup _ _ | .fetch _ _ _ _ | .delivered _ _ _ | .returned _ _ => []

/-- The events of a poller, as they are noted now. -/
def noted (w : Timeline) (p : Nat) (es : List Event) : List Entry :=
  es.map fun e => ⟨w.now, p, e⟩

/-- What no action of a poller changes. -/
structure Frame (w w' : Timeline) : Prop where
  now_eq : w'.now = w.now
  interval_eq : w'.interval = w.interval
  store_eq : w'.store = w.store
  service_eq : w'.service = w.service
  agenda_eq : w'.agenda = w.agenda
  held_eq : w'.held = w.held
  registered_eq : w'.registered = w.registered
  nextCall_eq : w'.nextCall = w.nextCall
  length_eq : w'.pollers.length = w.pollers.length

theorem Frame.refl (w : Timeline) : Frame w w := ⟨rfl, rfl, rfl, rfl, rfl, rfl, rfl, rfl, rfl⟩

theorem Frame.trans {w w₁ w₂ : Timeline} (h : Frame w w₁) (h' : Frame w₁ w₂) : Frame w w₂ where
  now_eq := h'.now_eq.trans h.now_eq
  interval_eq := h'.interval_eq.trans h.interval_eq
  store_eq := h'.store_eq.trans h.store_eq
  service_eq := h'.service_eq.trans h.service_eq
  agenda_eq := h'.agenda_eq.trans h.agenda_eq
  held_eq := h'.held_eq.trans h.held_eq
  registered_eq := h'.registered_eq.trans h.registered_eq
  nextCall_eq := h'.nextCall_eq.trans h.nextCall_eq
  length_eq := h'.length_eq.trans h.length_eq

/-- What events of a poller leave behind when all has been noted that follows from them. The return
of a call can stop the poller, because nobody else may keep it. -/
structure Follows (p : Nat) (es : List Event) (w w' : Timeline) : Prop extends Frame w w' where
  line_eq : w'.line = w.line ++ es.flatMap (followUps p (w.poller p))
  log_eq : w'.log = (w.noted p es).reverse ++ w.log
  others : ∀ q, q ≠ p → w'.poller q = w.poller q
  own : w'.poller p = w.poller p ∨
    w'.poller p = (w.poller p).stop ∧ ∃ id outcomes, .returned id outcomes ∈ es

@[simp] theorem stop_stop (s : State) : s.stop.stop = s.stop := rfl

theorem followUps_stop (p : Nat) (s : State) : followUps p s.stop = followUps p s := by
  funext e
  cases e <;> rfl

theorem Follows.refl (p : Nat) (w : Timeline) : Follows p [] w w where
  toFrame := .refl w
  line_eq := (List.append_nil _).symm
  log_eq := rfl
  others _ _ := rfl
  own := .inl rfl

theorem Follows.trans {p : Nat} {es es' : List Event} {w w₁ w₂ : Timeline} (h : Follows p es w w₁)
    (h' : Follows p es' w₁ w₂) : Follows p (es ++ es') w w₂ where
  toFrame := h.toFrame.trans h'.toFrame
  line_eq := by
    have same : followUps p (w₁.poller p) = followUps p (w.poller p) := by
      rcases h.own with same | ⟨stopped, -⟩
      · rw [same]
      · rw [stopped, followUps_stop]
    rw [h'.line_eq, h.line_eq, same, List.flatMap_append, List.append_assoc]
  log_eq := by
    rw [h'.log_eq, h.log_eq, noted, noted, noted, h.now_eq, List.map_append, List.reverse_append,
      List.append_assoc]
  others q hq := (h'.others q hq).trans (h.others q hq)
  own := by
    rcases h.own with same | ⟨stopped, id, o, returns⟩
    · refine (h'.own.imp (fun still => still.trans same) fun ⟨again, id, o, returns⟩ => ?_)
      exact ⟨again.trans (congrArg State.stop same), id, o, List.mem_append_right _ returns⟩
    · refine .inr ⟨?_, id, o, List.mem_append_left _ returns⟩
      rcases h'.own with same | ⟨again, -⟩
      · exact same.trans stopped
      · rw [again, stopped, stop_stop]

theorem poller_set_self {w : Timeline} {p : Nat} (exist : p < w.pollers.length) (s : State) :
    poller { w with pollers := w.pollers.set p s } p = s := by
  simp [poller, exist]

theorem poller_set_ne (w : Timeline) {p q : Nat} (other : q ≠ p) (s : State) :
    poller { w with pollers := w.pollers.set p s } q = w.poller q := by
  simp only [poller, List.getElem?_set_ne (Ne.symm other)]

theorem poller_of_length_le {w : Timeline} {p : Nat} (none : w.pollers.length ≤ p) :
    w.poller p = .idle := by
  rw [poller, List.getElem?_eq_none none, Option.getD_none]

theorem poller_modify_stop (w : Timeline) (p : Nat) :
    poller { w with pollers := w.pollers.modify p State.stop } p = (w.poller p).stop := by
  rw [modify_stop]
  by_cases exist : p < w.pollers.length
  · exact poller_set_self exist _
  · have none := Nat.not_lt.1 exist
    rw [poller_of_length_le (by simpa using none), poller_of_length_le none]
    rfl

theorem follows_release {w : Timeline} {p id : Nat} {outcomes : List Outcome} {w₀ : Timeline}
    (h : Follows p [.returned id outcomes] w₀ w) (same : w.poller p = w₀.poller p) :
    Follows p [.returned id outcomes] w₀ (w.release p) := by
  unfold release
  split
  · exact h
  · refine ⟨{ h.toFrame with length_eq := ?_ }, h.line_eq, h.log_eq, ?_, ?_⟩
    · rw [List.length_modify, h.length_eq]
    · intro q hq
      rw [modify_stop, poller_set_ne w hq]
      exact h.others q hq
    · refine .inr ⟨?_, id, outcomes, List.mem_singleton_self _⟩
      rw [poller_modify_stop, same]

theorem follows_follow (w : Timeline) (p : Nat) (e : Event) : Follows p [e] w (w.follow p e) := by
  cases e with
  | started | ordered | fannedOut =>
    exact ⟨⟨rfl, rfl, rfl, rfl, rfl, rfl, rfl, rfl, rfl⟩, by simp [follow, enqueue, followUps], rfl,
      fun _ _ => rfl, .inl rfl⟩
  | lookup | fetch | delivered =>
    exact ⟨⟨rfl, rfl, rfl, rfl, rfl, rfl, rfl, rfl, rfl⟩, by simp [follow, followUps], rfl,
      fun _ _ => rfl, .inl rfl⟩
  | finished n cycle o =>
    have same : poller { w with log := ⟨w.now, p, .finished n cycle o⟩ :: w.log } p =
        w.poller p := rfl
    simp only [follow, same]
    split <;> rename_i complete
    · exact ⟨⟨rfl, rfl, rfl, rfl, rfl, rfl, rfl, rfl, rfl⟩,
        by simp [enqueue, followUps, complete], rfl, fun _ _ => rfl, .inl rfl⟩
    · exact ⟨⟨rfl, rfl, rfl, rfl, rfl, rfl, rfl, rfl, rfl⟩, by simp [followUps, complete], rfl,
        fun _ _ => rfl, .inl rfl⟩
  | returned id outcomes =>
    refine follows_release ?_ rfl
    exact ⟨⟨rfl, rfl, rfl, rfl, rfl, rfl, rfl, rfl, rfl⟩, by simp [followUps], rfl,
      fun _ _ => rfl, .inl rfl⟩

theorem follows_foldl (p : Nat) (es : List Event) (w : Timeline) :
    Follows p es w (es.foldl (fun w e => w.follow p e) w) := by
  induction es generalizing w with
  | nil => exact .refl p w
  | cons e rest ih => exact (follows_follow w p e).trans (ih _)

/-! ## Rounds -/

theorem rounds_pos (job : Job) : 0 < job.rounds := by
  cases job <;> simp [Job.rounds]

theorem rounds_le (job : Job) : job.rounds ≤ 4 := by
  cases job <;> simp [Job.rounds]

/-- The rounds that follow from an action, and one. -/
def rounds : Action → Nat
  | .start => 5
  | .tick _ => 4
  | .begin _ | .call _ => 3
  | .lookup _ | .lookedUp _ _ _ | .fetched _ _ => 2
  | .stop | .die _ | .collect _ => 1

theorem rounds_effect {view : Context} {a : Action} {s s' : State} {es : List Event}
    (e : Effect view a s es s') (p : Nat) (t : State) :
    ∀ task ∈ es.flatMap (followUps p t), task.job.rounds < rounds a := by
  have ends : ∀ {c : Chain} {r : Except PollError Nat}, ∀ task ∈ (s.finish c r).2.flatMap
      (followUps p t), task.job.rounds < 2 := by
    intro c r task mem
    simp only [State.finish, List.flatMap_singleton, followUps] at mem
    split at mem
    · rw [List.mem_singleton.1 mem]
      exact Nat.one_lt_two
    · cases mem
  have answers : ∀ {b : Action} {c : Chain}, c.Resumes b → 2 ≤ rounds b := by
    intro b c resumes
    cases b with
    | lookup | lookedUp | fetched => exact Nat.le_refl _
    | start | stop | call | tick | die | begin | collect => exact resumes.elim
  cases e with
  | keep | stop | expire | die | skip => simp
  | install | order => simp [followUps, rounds, Job.rounds]
  | refuse | ask | fetch => simp [followUps]
  | call | begin => simp [State.fanOut, followUps, rounds, Job.rounds]
  | fail _ resumes => exact fun task mem => Nat.lt_of_lt_of_le (ends task mem) (answers resumes)
  | deliver =>
    intro task mem
    rw [List.flatMap_append] at mem
    refine ends task ((List.mem_append.1 mem).resolve_left ?_)
    simp [followUps]
  | @collect _ c =>
    unfold State.collect
    cases c.call <;> simp [followUps]

theorem rounds_effects {view : Context} {a : Action} {s s' : State} {es : List Event}
    (e : Effects view a s es s') (p : Nat) (t : State) :
    ∀ task ∈ es.flatMap (followUps p t), task.job.rounds < rounds a := by
  have least : 1 ≤ rounds a := by cases a <;> simp [rounds]
  cases e with
  | one e => exact rounds_effect e p t
  | two e₁ e₂ =>
    intro task mem
    rw [List.flatMap_append] at mem
    rcases List.mem_append.1 mem with mem | mem
    · exact rounds_effect e₁ p t task mem
    · exact Nat.lt_of_lt_of_le (rounds_effect e₂ p t task mem) least

theorem poller_followUps {p : Nat} {s : State} {es : List Event} :
    ∀ task ∈ es.flatMap (followUps p s), task.poller = p := by
  intro task mem
  obtain ⟨e, -, mem⟩ := List.mem_flatMap.1 mem
  cases e with
  | started | ordered => rw [List.mem_singleton.1 mem]
  | fannedOut =>
    obtain ⟨n, -, rfl⟩ := List.mem_map.1 mem
    rfl
  | finished =>
    simp only [followUps] at mem
    split at mem
    · rw [List.mem_singleton.1 mem]
    · cases mem
  | lookup | fetch | delivered | returned => cases mem

/-! ## What an action does -/

/-- What the poller of every number can rely on. -/
structure Fit (w : Timeline) : Prop where
  period : 0 < w.interval
  numbered : ∀ p, Numbered (w.poller p)

theorem leads_line (w : Timeline) (line : List Task) : Leads w { w with line := line } :=
  .of_pollers rfl rfl

theorem Leads.fit {w w' : Timeline} (h : Leads w w') (fit : Fit w) : Fit w' where
  period := by
    rw [h.interval_eq]
    exact fit.period
  numbered p := by
    obtain ⟨moves, run, -⟩ := h.runs p
    exact run.numbered (fit.numbered p)

variable [Curve]

/-- What an action of a poller in the state `s` does to the timeline: the poller comes to `s'`, and
what follows from the events `es` is noted. -/
structure Performed (w : Timeline) (p : Nat) (a : Action) (w' : Timeline) (es : List Event)
    (s' : State) : Prop where
  step : (w.poller p).step (Context.ofStore w.store) a = some (s', es)
  follows : Follows p es { w with pollers := w.pollers.set p s' } w'

/-- An action is done, or nothing happens because it is not possible. -/
theorem perform_cases (w : Timeline) (p : Nat) (a : Action) :
    (w.perform p a = (w, []) ∧ (w.poller p).step (Context.ofStore w.store) a = none) ∨
      ∃ s', Performed w p a (w.perform p a).1 (w.perform p a).2 s' := by
  unfold perform
  cases step : (w.poller p).step (Context.ofStore w.store) a with
  | none => exact .inl ⟨rfl, rfl⟩
  | some r =>
    obtain ⟨s', es⟩ := r
    exact .inr ⟨s', step, follows_foldl p es _⟩

theorem perform_frame (w : Timeline) (p : Nat) (a : Action) : Frame w (w.perform p a).1 := by
  rcases perform_cases w p a with ⟨still, -⟩ | ⟨s', done⟩
  · rw [still]
    exact .refl w
  · have moved : Frame w { w with pollers := w.pollers.set p s' } :=
      ⟨rfl, rfl, rfl, rfl, rfl, rfl, rfl, rfl, List.length_set⟩
    exact moved.trans done.follows.toFrame

/-- An action puts work into the line that takes fewer rounds than itself. -/
theorem perform_line {w : Timeline} (fit : Fit w) {p : Nat} (known : p < w.pollers.length)
    (a : Action) : ∃ new, (w.perform p a).1.line = w.line ++ new ∧
      ∀ task ∈ new, task.job.rounds < rounds a ∧ task.poller < w.pollers.length := by
  rcases perform_cases w p a with ⟨still, -⟩ | ⟨s', done⟩
  · exact ⟨[], by rw [still, List.append_nil], by simp⟩
  · refine ⟨_, done.follows.line_eq, fun task mem => ⟨?_, ?_⟩⟩
    · exact rounds_effects (step_effects (fit.numbered p) done.step) p _ task mem
    · rw [poller_followUps task mem]
      exact known

theorem runTick_eq {w : Timeline} (period : 0 < w.interval) (p t : Nat) :
    (((w.perform p (.tick t)).1.poller p).timers.contains t = false ∧
        w.runTick p t = (w.perform p (.tick t)).1) ∨
      ((w.perform p (.tick t)).1.poller p).timers.contains t = true ∧
        w.runTick p t = (w.perform p (.tick t)).1.schedule w.interval p (.tick t) := by
  have same : (w.perform p (.tick t)).1.interval = w.interval := (perform_frame w p _).interval_eq
  unfold runTick
  rw [if_neg (Nat.ne_of_gt period)]
  simp only
  split
  · rename_i runs
    exact .inr ⟨runs, by rw [same]⟩
  · rename_i stopped
    exact .inl ⟨by simpa using stopped, rfl⟩

end Timeline

/-! ## Changes -/

/-- What a job does with its poller when its turn comes; ticks and what is on its way apart. -/
def Job.action? : Job → Option Action
  | .cycle n => some (.begin n)
  | .call id => some (.call id)
  | .chain n => some (.lookup n)
  | .collect n => some (.collect n)
  | .tick _ | .lookup _ _ _ | .nodes _ _ | .fetch _ _ _ => none

/-- Whether a job is a request that is on its way. -/
def Job.isRequest : Job → Bool
  | .lookup _ _ _ | .nodes _ _ | .fetch _ _ _ => true
  | .tick _ | .cycle _ | .call _ | .chain _ | .collect _ => false

/-- Whether an action takes on the answer to a request. -/
def Action.isAnswer : Action → Bool
  | .lookedUp _ _ _ | .fetched _ _ => true
  | _ => false

theorem Job.action?_of_isRequest {job : Job} (request : job.isRequest = true) :
    job.action? = none := by
  cases job with
  | lookup | nodes | fetch => rfl
  | tick | cycle | call | chain | collect => cases request

theorem Job.hasPeriod_of_action? {job : Job} {a : Action} (does : job.action? = some a) :
    a.hasPeriod = true := by
  cases job <;> cases does <;> rfl

theorem Action.hasPeriod_of_isAnswer {a : Action} (answers : a.isAnswer = true) :
    a.hasPeriod = true := by
  cases a with
  | lookedUp | fetched => rfl
  | start | stop | call | tick | die | begin | lookup | collect => cases answers

namespace Timeline

/-- **One change of a timeline**, and what is noted of it. -/
inductive Change [Curve] (w : Timeline) : List Entry → Timeline → Prop
  /-- A job at the front does its action. -/
  | work {p : Nat} {job : Job} {rest : List Task} {a : Action} (first : w.line = ⟨p, job⟩ :: rest)
      (does : job.action? = some a) :
      Change w (w.noted p ({ w with line := rest }.perform p a).2)
        ({ w with line := rest }.perform p a).1
  /-- A tick at the front is done, and comes back after the period if its timer still runs. -/
  | tick {p t : Nat} {rest : List Task} (first : w.line = ⟨p, .tick t⟩ :: rest) :
      Change w (w.noted p ({ w with line := rest }.perform p (.tick t)).2)
        ({ w with line := rest }.runTick p t)
  /-- A request at the front arrives. -/
  | take {p : Nat} {job : Job} {rest : List Task} (first : w.line = ⟨p, job⟩ :: rest)
      (request : job.isRequest = true) : Change w [] { w with line := rest }
  /-- A chain is answered. -/
  | answer {p : Nat} {a : Action} (known : p < w.pollers.length) (answers : a.isAnswer = true) :
      Change w (w.noted p (w.perform p a).2) (w.perform p a).1
  /-- A request goes on its way. -/
  | send {delay p : Nat} {job : Job} (known : p < w.pollers.length) (positive : 0 < delay)
      (request : job.isRequest = true) : Change w [] (w.schedule delay p job)
  | serve (service : SwarmService) : Change w [] { w with service := service }
  /-- No work is left, and the clock moves no further than to the next time of the agenda. -/
  | leap {ms : Nat} (positive : 0 < ms) (none : w.line = [])
      (near : ∀ a ∈ w.agenda, w.now + ms ≤ a.1) : Change w [] (w.leap ms)

/-- Changes one after the other. -/
inductive Changes [Curve] (w : Timeline) : List Entry → Timeline → Prop
  | refl : Changes w [] w
  | snoc {es es' : List Entry} {w₁ w₂ : Timeline} :
      Changes w es w₁ → Change w₁ es' w₂ → Changes w (es ++ es') w₂

theorem Changes.trans [Curve] {w w₁ w₂ : Timeline} {es es' : List Entry} (h : Changes w es w₁)
    (h' : Changes w₁ es' w₂) : Changes w (es ++ es') w₂ := by
  induction h' with
  | refl => rwa [List.append_nil]
  | snoc _ change ih =>
    rw [← List.append_assoc]
    exact ih.snoc change

theorem Change.changes [Curve] {w w' : Timeline} {es : List Entry} (h : Change w es w') :
    Changes w es w' := by
  simpa using Changes.refl.snoc h

/-! ## Sound timelines -/

/-- What a timeline needs so that all that it does is a sequence of changes: its work belongs to its
pollers, and in its agenda stand only ticks and requests that are still to come. -/
structure Sound (w : Timeline) : Prop extends Fit w where
  line : ∀ task ∈ w.line, task.poller < w.pollers.length
  agenda : ∀ a ∈ w.agenda, w.now < a.1 ∧ a.2.poller < w.pollers.length ∧ a.2.job.action? = none

namespace Sound
variable {w : Timeline} {p : Nat}

theorem take {task : Task} {rest : List Task} (sound : Sound w) (first : w.line = task :: rest) :
    Sound { w with line := rest } ∧ task.poller < w.pollers.length :=
  ⟨{ sound with
      toFit := (leads_line w rest).fit sound.toFit
      line := fun task mem => sound.line task (first ▸ List.mem_cons_of_mem _ mem) },
    sound.line task (first ▸ List.mem_cons_self)⟩

theorem schedule {delay : Nat} {job : Job} (sound : Sound w) (known : p < w.pollers.length)
    (positive : 0 < delay) (waits : job.action? = none) : Sound (w.schedule delay p job) where
  toFit := (leads_schedule w delay p job).fit sound.toFit
  line := sound.line
  agenda x mem := by
    rcases List.mem_cons.1 mem with rfl | mem
    · exact ⟨Nat.lt_add_of_pos_right positive, known, waits⟩
    · exact sound.agenda x mem

theorem leap (sound : Sound w) (ms : Nat) : Sound (w.leap ms) where
  toFit := (leads_leap w ms).fit sound.toFit
  line task mem := by
    rcases List.mem_append.1 mem with mem | mem
    · exact sound.line task mem
    · obtain ⟨x, due, rfl⟩ := List.mem_map.1 mem
      exact (sound.agenda x (List.mem_reverse.1 (List.mem_of_mem_filter due))).2.1
  agenda x mem := by
    obtain ⟨waits, later⟩ := List.mem_filter.1 mem
    exact ⟨of_decide_eq_true later, (sound.agenda x waits).2⟩

end Sound

/-! ## What changes keep -/

variable [Curve]

theorem Sound.perform {w : Timeline} {p : Nat} {a : Action} (sound : Sound w)
    (known : p < w.pollers.length) (period : a.hasPeriod = true) : Sound (w.perform p a).1 where
  toFit := (leads_perform w p fun _ => period).fit sound.toFit
  line task mem := by
    obtain ⟨new, line, later⟩ := perform_line sound.toFit known a
    rw [line] at mem
    rw [(perform_frame w p a).length_eq]
    exact (List.mem_append.1 mem).elim (sound.line task) fun mem => (later task mem).2
  agenda x mem := by
    have frame := perform_frame w p a
    rw [frame.agenda_eq] at mem
    rw [frame.now_eq, frame.length_eq]
    exact sound.agenda x mem

theorem Change.sound {w w' : Timeline} {es : List Entry} (h : Change w es w') (sound : Sound w) :
    Sound w' := by
  cases h with
  | work first does =>
    obtain ⟨rest, known⟩ := sound.take first
    exact rest.perform known (Job.hasPeriod_of_action? does)
  | @tick p t rest first =>
    obtain ⟨rest, known⟩ := sound.take first
    have ticked := rest.perform (a := .tick t) known rfl
    rcases runTick_eq rest.period p t with ⟨-, same⟩ | ⟨-, same⟩
    · rw [same]
      exact ticked
    · rw [same]
      refine ticked.schedule ?_ rest.period rfl
      rw [(perform_frame _ p _).length_eq]
      exact known
  | take first => exact (sound.take first).1
  | answer known answers => exact sound.perform known (Action.hasPeriod_of_isAnswer answers)
  | send known positive request =>
    exact sound.schedule known positive (Job.action?_of_isRequest request)
  | serve service =>
    exact { sound with toFit := (leads_service w service).fit sound.toFit }
  | leap => exact sound.leap _

theorem Changes.sound {w w' : Timeline} {es : List Entry} (h : Changes w es w') (sound : Sound w) :
    Sound w' := by
  induction h with
  | refl => exact sound
  | snoc _ change ih => exact change.sound ih

theorem perform_log (w : Timeline) (p : Nat) (a : Action) :
    (w.perform p a).1.log = (w.noted p (w.perform p a).2).reverse ++ w.log := by
  rcases perform_cases w p a with ⟨still, -⟩ | ⟨s', done⟩
  · rw [still]
    rfl
  · exact done.follows.log_eq

theorem Change.interval_eq {w w' : Timeline} {es : List Entry} (h : Change w es w') :
    w'.interval = w.interval := by
  cases h with
  | work => exact (perform_frame _ _ _).interval_eq
  | @tick p t rest => exact (leads_runTick _ p t).interval_eq
  | answer => exact (perform_frame w _ _).interval_eq
  | take | send | serve | leap => rfl

theorem Changes.interval_eq {w w' : Timeline} {es : List Entry} (h : Changes w es w') :
    w'.interval = w.interval := by
  induction h with
  | refl => rfl
  | snoc _ change ih => exact change.interval_eq.trans ih

/-- What is noted of a change is what its log gains. -/
theorem Change.log {w w' : Timeline} {es : List Entry} (h : Change w es w')
    (period : 0 < w.interval) : w'.log = es.reverse ++ w.log := by
  cases h with
  | work => exact perform_log _ _ _
  | @tick p t rest =>
    have ticked := perform_log { w with line := rest } p (.tick t)
    rcases runTick_eq (w := { w with line := rest }) period p t with ⟨-, same⟩ | ⟨-, same⟩
    · rw [same]
      exact ticked
    · rw [same]
      exact ticked
  | answer => exact perform_log w _ _
  | take | send | serve | leap => rfl

theorem Changes.log {w w' : Timeline} {es : List Entry} (h : Changes w es w')
    (period : 0 < w.interval) : w'.log = es.reverse ++ w.log := by
  induction h with
  | refl => rfl
  | snoc before change ih =>
    rw [change.log (before.interval_eq ▸ period), ih, List.reverse_append, List.append_assoc]

end Timeline

end SealedPost.Poller

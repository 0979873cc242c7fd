import SealedPost.Proofs.Poller.Change

/-!
# Work in line, one job after the other

A round runs the jobs in line in their order, each with all that it does at its turn. What one job
does does not hang on the work behind it (`perform_behind`), so that a round is a sequence of
changes, each at the front of the line (`Passes`). A job puts only jobs into the line that take
fewer rounds than itself, so that the line empties (`changes_settle`), and letting time pass is a
sequence of changes too (`changes_runUntil`).
-/

namespace SealedPost.Poller

namespace Timeline

/-! ## The next time of the agenda -/

theorem wait?_eq_none {w : Timeline} (none : w.wait? = none) : ∀ a ∈ w.agenda, a.1 ≤ w.now := by
  intro a mem
  by_contra later
  have waits : a.1 - w.now ∈ (w.agenda.map fun a => a.1 - w.now).filter fun ms => 0 < ms :=
    List.mem_filter.2 ⟨List.mem_map_of_mem mem, by simp; omega⟩
  rw [List.min?_eq_none_iff.1 none] at waits
  cases waits

theorem wait?_eq_some {w : Timeline} {ms : Nat} (next : w.wait? = some ms) :
    0 < ms ∧ ∀ a ∈ w.agenda, w.now < a.1 → w.now + ms ≤ a.1 := by
  obtain ⟨mem, least⟩ := List.min?_eq_some_iff.1 next
  refine ⟨by simpa using (List.mem_filter.1 mem).2, fun a mem later => ?_⟩
  have := least (a.1 - w.now)
    (List.mem_filter.2 ⟨List.mem_map_of_mem mem, by simp; omega⟩)
  omega

/-! ## Work in front of the line -/

/-- A timeline with other work in front of its line. -/
def behind (w : Timeline) (tasks : List Task) : Timeline := { w with line := tasks ++ w.line }

theorem release_behind (w : Timeline) (tasks : List Task) (p : Nat) :
    (w.behind tasks).release p = (w.release p).behind tasks := by
  have same : (w.behind tasks).isKept p = w.isKept p := rfl
  unfold release
  rw [same]
  split <;> rfl

theorem follow_behind (w : Timeline) (tasks : List Task) (p : Nat) (e : Event) :
    (w.behind tasks).follow p e = (w.follow p e).behind tasks := by
  cases e with
  | started | ordered | fannedOut => simp [follow, enqueue, behind]
  | lookup | fetch | delivered => rfl
  | finished n cycle o =>
    have same : ∀ log, poller { w.behind tasks with log } p = w.poller p := fun _ => rfl
    have same' : ∀ log, poller { w with log } p = w.poller p := fun _ => rfl
    simp only [follow, same, same']
    split
    · simp [enqueue, behind]
    · rfl
  | returned id outcomes =>
    let called : Timeline :=
      { w with
        log := ⟨w.now, p, .returned id outcomes⟩ :: w.log
        calls := w.calls.filter fun c => c ≠ (p, id) }
    exact release_behind called tasks p

theorem foldl_follow_behind (p : Nat) (tasks : List Task) (es : List Event) (w : Timeline) :
    es.foldl (fun w e => w.follow p e) (w.behind tasks) =
      (es.foldl (fun w e => w.follow p e) w).behind tasks := by
  induction es generalizing w with
  | nil => rfl
  | cons e rest ih => rw [List.foldl_cons, List.foldl_cons, follow_behind, ih]

variable [Curve]

theorem perform_behind (w : Timeline) (tasks : List Task) (p : Nat) (a : Action) :
    (w.behind tasks).perform p a = ((w.perform p a).1.behind tasks, (w.perform p a).2) := by
  unfold perform
  have same : (w.behind tasks).poller p = w.poller p := rfl
  have same' : (w.behind tasks).store = w.store := rfl
  rw [same, same']
  cases (w.poller p).step (Context.ofStore w.store) a with
  | none => rfl
  | some r =>
    obtain ⟨s, es⟩ := r
    exact Prod.ext (foldl_follow_behind p tasks es { w with pollers := w.pollers.set p s }) rfl

theorem runTick_behind (w : Timeline) (tasks : List Task) (p t : Nat) :
    (w.behind tasks).runTick p t = (w.runTick p t).behind tasks := by
  have same : ∀ w : Timeline, (w.behind tasks).poller p = w.poller p := fun _ => rfl
  have same' : (w.behind tasks).interval = w.interval := rfl
  unfold runTick
  simp only [perform_behind, same, same']
  split
  · rfl
  · split <;> rfl

/-! ## What runs at one turn -/

/-- What takes the jobs `front` from the line, and all that they do at their turns: it puts work of
fewer rounds than `r` into the line, and is a sequence of changes, whatever stands behind them. -/
structure Passes (front : List Task) (r : Nat) (w w' : Timeline) : Prop where
  now_eq : w'.now = w.now
  length_eq : w'.pollers.length = w.pollers.length
  line : ∃ new, w'.line = w.line ++ new ∧
    ∀ task ∈ new, task.job.rounds < r ∧ task.poller < w.pollers.length
  changes : ∃ es, ∀ tasks, Changes (w.behind (front ++ tasks)) es (w'.behind tasks)

namespace Passes
variable {front front' : List Task} {r : Nat} {w w₁ w₂ : Timeline}

theorem refl : Passes [] r w w :=
  ⟨rfl, rfl, ⟨[], (List.append_nil _).symm, by simp⟩, ⟨[], fun _ => .refl⟩⟩

theorem trans (h : Passes front r w w₁) (h' : Passes front' r w₁ w₂) :
    Passes (front ++ front') r w w₂ where
  now_eq := h'.now_eq.trans h.now_eq
  length_eq := h'.length_eq.trans h.length_eq
  line := by
    obtain ⟨new, line, small⟩ := h.line
    obtain ⟨new', line', small'⟩ := h'.line
    refine ⟨new ++ new', by rw [line', line, List.append_assoc], fun task mem => ?_⟩
    rcases List.mem_append.1 mem with mem | mem
    · exact small task mem
    · exact h.length_eq ▸ small' task mem
  changes := by
    obtain ⟨es, first⟩ := h.changes
    obtain ⟨es', second⟩ := h'.changes
    refine ⟨es ++ es', fun tasks => ?_⟩
    rw [List.append_assoc]
    exact (first _).trans (second tasks)

/-- One change that leaves the line as it is, but for the jobs that it takes from the front. -/
theorem of_change (now : w₁.now = w.now) (length : w₁.pollers.length = w.pollers.length)
    (line : w₁.line = w.line)
    {es : List Entry} (change : ∀ tasks, Change (w.behind (front ++ tasks)) es (w₁.behind tasks)) :
    Passes front r w w₁ :=
  ⟨now, length, ⟨[], by rw [line, List.append_nil], by simp⟩,
    ⟨es, fun tasks => (change tasks).changes⟩⟩

/-- An action that is done when the jobs `front` have been taken. -/
theorem of_perform (fit : Fit w) {p : Nat} (known : p < w.pollers.length) {a : Action}
    (small : rounds a ≤ r) (change : ∀ tasks, Change (w.behind (front ++ tasks))
      (w.noted p (w.perform p a).2) ((w.behind tasks).perform p a).1) :
    Passes front r w (w.perform p a).1 := by
  have changes : ∃ es, ∀ tasks,
      Changes (w.behind (front ++ tasks)) es ((w.perform p a).1.behind tasks) := by
    refine ⟨w.noted p (w.perform p a).2, fun tasks => ?_⟩
    have := (change tasks).changes
    rwa [perform_behind] at this
  obtain ⟨new, line, later⟩ := perform_line fit known a
  have frame := perform_frame w p a
  exact ⟨frame.now_eq, frame.length_eq, ⟨new, line, fun task mem =>
    ⟨Nat.lt_of_lt_of_le (later task mem).1 small, (later task mem).2⟩⟩, changes⟩

theorem mono {r' : Nat} (le : r ≤ r') (h : Passes front r w w₁) : Passes front r' w w₁ := by
  refine ⟨h.now_eq, h.length_eq, ?_, h.changes⟩
  obtain ⟨new, line, small⟩ := h.line
  exact ⟨new, line, fun task mem => ⟨Nat.lt_of_lt_of_le (small task mem).1 le, (small task mem).2⟩⟩

/-- A job that does its action. -/
theorem of_work (fit : Fit w) {p : Nat} (known : p < w.pollers.length) {job : Job} {a : Action}
    (does : job.action? = some a) (small : rounds a ≤ r) :
    Passes [⟨p, job⟩] r w (w.perform p a).1 := by
  refine of_perform fit known small fun tasks => ?_
  have first : (w.behind ([⟨p, job⟩] ++ tasks)).line = ⟨p, job⟩ :: (tasks ++ w.line) := rfl
  have change := Change.work first does
  have taken : { w.behind ([⟨p, job⟩] ++ tasks) with line := tasks ++ w.line } =
      w.behind tasks := rfl
  rw [taken, perform_behind] at change
  rwa [perform_behind]

/-- An answer that arrives. -/
theorem of_answer (fit : Fit w) {p : Nat} (known : p < w.pollers.length) {a : Action}
    (answers : a.isAnswer = true) : Passes [] 2 w (w.perform p a).1 := by
  refine of_perform fit known ?_ fun tasks => ?_
  · cases a with
    | lookedUp | fetched => exact Nat.le_refl 2
    | start | stop | call | tick | die | begin | lookup | collect => cases answers
  · have change := Change.answer (w := w.behind tasks) (p := p) known answers
    rwa [perform_behind] at change ⊢

theorem of_serve (service : SwarmService) : Passes [] r w { w with service := service } :=
  of_change rfl rfl rfl fun _ => .serve service

theorem of_send {p delay : Nat} {job : Job} (known : p < w.pollers.length) (later : delay ≠ 0)
    (request : job.isRequest = true) : Passes [] r w (w.schedule delay p job) :=
  of_change rfl rfl rfl fun _ => .send known (Nat.pos_of_ne_zero later) request

theorem runFetch (fit : Fit w) {p : Nat} (known : p < w.pollers.length) (chain : Nat)
    (group : String) (rule : SwarmRule) : Passes [] 2 w (w.runFetch p chain group rule) := by
  have served := of_serve (r := 2) (w := w) (w.service.fetch rule group).2
  have fit' := (leads_service w (w.service.fetch rule group).2).fit fit
  exact served.trans (of_answer (a := .fetched chain (w.service.fetch rule group).1) fit' known rfl)

theorem runFetches {p : Nat} (events : List Event) (fit : Fit w) (known : p < w.pollers.length) :
    Passes [] 2 w (w.runFetches p events) := by
  induction events generalizing w with
  | nil => exact .refl
  | cons event rest ih =>
    cases event with
    | fetch chain group snode nodes =>
      by_cases now : (w.service.ruleOf group).fetchDelay = 0
      · simp only [Timeline.runFetches, if_pos now]
        have first := runFetch fit known chain group (w.service.ruleOf group)
        have fit' := (leads_runFetch w p chain group (w.service.ruleOf group)).fit fit
        exact first.trans (ih fit' (first.length_eq ▸ known))
      · simp only [Timeline.runFetches, if_neg now]
        have first : Passes [] 2 w (w.schedule (w.service.ruleOf group).fetchDelay p
            (.fetch chain group (w.service.ruleOf group))) := of_send known now rfl
        exact first.trans (ih ((leads_schedule w _ p _).fit fit) known)
    | started | ordered | fannedOut | lookup | delivered | finished | returned => exact ih fit known

theorem runAnswer (fit : Fit w) {p : Nat} (known : p < w.pollers.length) (chain : Nat)
    (answer : Except NetworkError (List Snode)) : Passes [] 2 w (w.runAnswer p chain answer) := by
  have answered := of_answer (a := .lookedUp chain answer 0) fit known rfl
  exact answered.trans (runFetches _ ((leads_perform w p fun _ => rfl).fit fit)
    (answered.length_eq ▸ known))

theorem runLookup (fit : Fit w) {p : Nat} (known : p < w.pollers.length) (chain : Nat)
    (group : String) (rule : SwarmRule) : Passes [] 2 w (w.runLookup p chain group rule) := by
  unfold Timeline.runLookup
  split
  · exact runAnswer fit known chain _
  · have counted := of_serve (r := 2) (w := w) w.service.countLookup
    have fit' := (leads_service w w.service.countLookup).fit fit
    simp only
    split
    · exact counted.trans (runAnswer fit' known chain _)
    · rename_i later
      exact counted.trans (of_send known later rfl)

theorem runChain (fit : Fit w) {p : Nat} (known : p < w.pollers.length) (chain : Nat) :
    Passes [⟨p, .chain chain⟩] 2 w (w.runChain p chain) := by
  have begun : Passes [⟨p, .chain chain⟩] 2 w (w.perform p (.lookup chain)).1 :=
    of_work fit known rfl (Nat.le_refl 2)
  have fit' := (leads_perform w p (a := .lookup chain) fun _ => rfl).fit fit
  unfold Timeline.runChain
  split
  · rename_i w₁ _ group performed
    rw [performed] at begun fit'
    have known' : p < w₁.pollers.length := begun.length_eq ▸ known
    simp only
    split
    · exact begun.trans (runLookup fit' known' chain group _)
    · rename_i later
      exact begun.trans (of_send known' later rfl)
  · rename_i w₁ _ _ performed
    rw [performed] at begun
    exact begun

theorem runTick (fit : Fit w) {p : Nat} (known : p < w.pollers.length) (t : Nat) :
    Passes [⟨p, .tick t⟩] 4 w (w.runTick p t) := by
  have frame := perform_frame w p (.tick t)
  have line := perform_line fit known (.tick t)
  have changes : ∀ tasks, Change (w.behind ([⟨p, .tick t⟩] ++ tasks))
      (w.noted p (w.perform p (.tick t)).2) ((w.runTick p t).behind tasks) := by
    intro tasks
    have first : (w.behind ([⟨p, .tick t⟩] ++ tasks)).line =
        ⟨p, .tick t⟩ :: (tasks ++ w.line) := rfl
    have change := Change.tick first
    have taken : { w.behind ([⟨p, .tick t⟩] ++ tasks) with line := tasks ++ w.line } =
        w.behind tasks := rfl
    rw [taken, perform_behind, runTick_behind] at change
    exact change
  rcases runTick_eq fit.period p t with ⟨-, same⟩ | ⟨-, same⟩
  · rw [same] at changes ⊢
    exact ⟨frame.now_eq, frame.length_eq, line, _, fun tasks => (changes tasks).changes⟩
  · rw [same] at changes ⊢
    exact ⟨frame.now_eq, frame.length_eq, line, _, fun tasks => (changes tasks).changes⟩

/-- A request that arrives. -/
theorem of_take {p : Nat} {job : Job} (request : job.isRequest = true) :
    Passes [⟨p, job⟩] r w w :=
  of_change rfl rfl rfl fun _ => .take rfl request

theorem run (fit : Fit w) {task : Task} (known : task.poller < w.pollers.length) :
    Passes [task] task.job.rounds w (w.run task) := by
  obtain ⟨p, job⟩ := task
  cases job with
  | tick timer => exact runTick fit known timer
  | cycle number => exact of_work fit known rfl (Nat.le_refl 3)
  | call id => exact of_work fit known rfl (Nat.le_refl 3)
  | chain number => exact runChain fit known number
  | lookup chain group rule => exact (of_take rfl).trans (runLookup fit known chain group rule)
  | nodes chain group => exact (of_take rfl).trans (runAnswer fit known chain _)
  | fetch chain group rule => exact (of_take rfl).trans (runFetch fit known chain group rule)
  | collect cycle => exact of_work fit known rfl (Nat.le_refl 1)

theorem foldl_run (tasks : List Task) (fit : Fit w)
    (known : ∀ task ∈ tasks, task.poller < w.pollers.length)
    (small : ∀ task ∈ tasks, task.job.rounds ≤ r) :
    Passes tasks r w (tasks.foldl Timeline.run w) := by
  induction tasks generalizing w with
  | nil => exact .refl
  | cons task rest ih =>
    have first := (run fit (known task (by simp))).mono (small task (by simp))
    have fit' := (leads_run w task).fit fit
    refine first.trans (ih fit' (fun task mem => ?_) fun task mem => small task (by simp [mem]))
    rw [first.length_eq]
    exact known task (by simp [mem])

end Passes

/-! ## The line empties -/

/-- The work in line takes no more than `r` rounds. -/
structure Within (r : Nat) (w : Timeline) : Prop where
  known : ∀ task ∈ w.line, task.poller < w.pollers.length
  small : ∀ task ∈ w.line, task.job.rounds ≤ r

/-- A round does the work in line, and leaves work that takes one round less. -/
theorem changes_round {r : Nat} {w : Timeline} (fit : Fit w) (within : Within (r + 1) w) :
    (∃ es, Changes w es w.round) ∧ Within r w.round ∧ w.round.now = w.now := by
  have passes := Passes.foldl_run (w := { w with line := [] }) w.line
    ((leads_line w []).fit fit)
    within.known within.small
  obtain ⟨new, line, small⟩ := passes.line
  have line : w.round.line = new := line
  obtain ⟨es, changes⟩ := passes.changes
  have before : behind { w with line := [] } (w.line ++ []) = w := by simp [behind]
  have changes := changes []
  rw [before] at changes
  refine ⟨⟨es, changes⟩, ⟨fun task mem => ?_, fun task mem => ?_⟩, passes.now_eq⟩
  · have length : w.round.pollers.length = w.pollers.length := passes.length_eq
    rw [length]
    exact (small task (line ▸ mem)).2
  · exact Nat.le_of_lt_succ (small task (line ▸ mem)).1

/-- **The line empties** when the work in it is run with all that follows from it. -/
theorem changes_settle {w : Timeline} (fit : Fit w)
    (known : ∀ task ∈ w.line, task.poller < w.pollers.length) :
    (∃ es, Changes w es w.settle) ∧ w.settle.line = [] ∧ w.settle.now = w.now := by
  have fit₁ := (leads_round w).fit fit
  have fit₂ := (leads_round _).fit fit₁
  have fit₃ := (leads_round _).fit fit₂
  obtain ⟨⟨es₁, first⟩, within₁, now₁⟩ :=
    changes_round (r := 3) fit ⟨known, fun task _ => rounds_le task.job⟩
  obtain ⟨⟨es₂, second⟩, within₂, now₂⟩ := changes_round fit₁ within₁
  obtain ⟨⟨es₃, third⟩, within₃, now₃⟩ := changes_round fit₂ within₂
  obtain ⟨⟨es₄, fourth⟩, within₄, now₄⟩ := changes_round fit₃ within₃
  refine ⟨⟨_, ((first.trans second).trans third).trans fourth⟩, ?_,
    ((now₄.trans now₃).trans now₂).trans now₁⟩
  refine List.eq_nil_iff_forall_not_mem.2 fun task mem => ?_
  exact Nat.not_lt.2 (within₄.small task mem) (rounds_pos task.job)

/-! ## Time -/

/-- **Letting time pass is a sequence of changes.** If any passes, no work is in line at the end but
what is due then. If it is never enough, all the time passes. -/
theorem changes_runUntil (enough : Timeline → Bool) (ms : Nat) {w : Timeline} (sound : Sound w) :
    (∃ es, Changes w es (w.runUntil enough ms)) ∧
      (0 < ms → ∀ task ∈ (w.runUntil enough ms).line, task.job.action? = none) ∧
      ((∀ w, enough w = false) → (w.runUntil enough ms).now = w.now + ms) := by
  -- the part of the agenda that a leap brings into an empty line
  have due : ∀ {w : Timeline} (ms : Nat), Sound w → w.line = [] →
      ∀ task ∈ (w.leap ms).line, task.job.action? = none := by
    intro w ms sound none task mem
    rw [leap, none] at mem
    obtain ⟨x, waited, rfl⟩ := List.mem_map.1 mem
    exact (sound.agenda x (List.mem_reverse.1 (List.mem_of_mem_filter waited))).2.2
  induction ms using Nat.strongRecOn generalizing w with
  | ind ms ih =>
    unfold runUntil
    split
    · rename_i zero
      exact ⟨⟨[], .refl⟩, fun positive => absurd zero (Nat.ne_of_gt positive), fun _ => by omega⟩
    · rename_i nonzero
      obtain ⟨⟨es, changes⟩, none, now⟩ := changes_settle sound.toFit sound.line
      have passed : (w.settle.leap ms).now = w.now + ms := congrArg (· + ms) now
      have settled := changes.sound sound
      simp only
      split
      · rename_i reached
        refine ⟨⟨es, changes⟩, fun _ task mem => ?_, fun never => ?_⟩
        · rw [none] at mem
          cases mem
        · rw [never] at reached
          cases reached
      · split
        · rename_i never
          have leap : Change w.settle [] (w.settle.leap ms) :=
            .leap (Nat.pos_of_ne_zero nonzero) none fun a mem =>
              absurd (settled.agenda a mem).1 (Nat.not_lt.2 (wait?_eq_none never a mem))
          exact ⟨⟨_, changes.snoc leap⟩, fun _ => due ms settled none, fun _ => passed⟩
        · rename_i wait next
          obtain ⟨positive, near⟩ := wait?_eq_some next
          have near : ∀ a ∈ w.settle.agenda, w.settle.now + wait ≤ a.1 :=
            fun a mem => near a mem (settled.agenda a mem).1
          split
          · rename_i sooner
            have leap := changes.snoc (.leap positive none near)
            obtain ⟨⟨es', later⟩, quiet, all⟩ := ih (ms - wait) (by omega) (settled.leap wait)
            refine ⟨⟨_, leap.trans later⟩, fun _ => quiet (by omega), fun never => ?_⟩
            have before : (w.settle.leap wait).now = w.now + wait := congrArg (· + wait) now
            rw [all never, before]
            omega
          · rename_i last
            have leap : Change w.settle [] (w.settle.leap ms) :=
              .leap (Nat.pos_of_ne_zero nonzero) none fun a mem => by
                have := near a mem
                omega
            exact ⟨⟨_, changes.snoc leap⟩, fun _ => due ms settled none, fun _ => passed⟩

end Timeline

end SealedPost.Poller

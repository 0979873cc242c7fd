import SealedPost.Proofs.Poller.Course
import SealedPost.Proofs.Poller.Stop

/-!
# Restarts

A chain that waits on the network learns of a stop from the flag, when its answer comes. Whoever
starts the poller again by then sets the flag, and the chain cannot tell that it was stopped.
`stopped_chain_discards_iff` says when it does discard its work; `restart_revives` is a run in which
it does not.
-/

namespace SealedPost.Poller

/-- Nothing of a chain was handed over, and it ended with an error if it ended. -/
def Discarded (n : Nat) (es : List Event) : Prop :=
  (∀ envelope message, .delivered n envelope message ∉ es) ∧
    ∀ k o, .finished n k o ∈ es → o.isError = true

/-- Whether messages have come in answer to a fetch. -/
def Turn.hasMessages (t : Turn) : Bool :=
  match t.action with
  | .fetched _ (.ok _) => true
  | _ => false

theorem discarded_seen {n : Nat} {es : List Event} : Discarded n (seen n es) ↔ Discarded n es := by
  simp only [Discarded, finished_mem_seen, delivered_mem_seen]

/-- A chain that fails although the flag is set has got no messages. -/
theorem hasMessages_of_failure {t : Turn} {e : PollError} (active : t.polling = true)
    (failure : failure? t.polling t.action = some e) : t.hasMessages = false := by
  obtain ⟨polling, view, a⟩ := t
  obtain rfl : polling = true := active
  cases a with
  | fetched n answer =>
    cases answer with
    | error => rfl
    | ok => simp [failure?] at failure
  | start | stop | call | tick | die | begin | lookup | lookedUp | collect => rfl

/-! ## A chain that waits -/

/-- A chain that has begun and not ended has found the flag set at all its turns, and has got no
messages. -/
theorem Course.unended {c k : Chain} {ts : List Turn} {es : List Event}
    (h : Course c ts es (some k)) (waits : c.stage ≠ .queued) :
    k.stage ≠ .queued ∧ (∀ t ∈ ts, t.polling = true ∧ t.hasMessages = false) ∧
      ∀ e ∈ es, ∃ n group snode nodes, e = .fetch n group snode nodes := by
  generalize hlast : some k = last at h
  induction h generalizing k with
  | start =>
    obtain rfl := Option.some.inj hlast
    exact ⟨waits, by simp, by simp⟩
  | @turn ts t _ _ k' _ _ segment ih =>
    obtain ⟨waits', turns, events⟩ := ih rfl
    cases segment with
    | ask resumes begins =>
      rw [begins] at resumes
      exact absurd resumes.2 waits'
    | fetch resumes answer chosen active =>
      obtain rfl := Option.some.inj hlast
      refine ⟨nofun, fun t' ht' => ?_, fun e he => ?_⟩
      · rcases List.mem_append.1 ht' with ht' | ht'
        · exact turns t' ht'
        · rw [List.mem_singleton.1 ht']
          exact ⟨active, by rw [Turn.hasMessages, answer]⟩
      · rcases List.mem_append.1 he with he | he
        · exact events e he
        · exact ⟨_, _, _, _, List.mem_singleton.1 he⟩
    | fail | deliver => cases hlast

/-- **What becomes of a chain that waits.** It discards its work if it finds the flag clear at some
turn, or never gets messages, and in no other case; and if it finds the flag clear, it ends. -/
theorem Course.discarded_iff {c : Chain} {ts : List Turn} {es : List Event} {last : Option Chain}
    (h : Course c ts es last) (waits : c.stage ≠ .queued) :
    (Discarded c.number es ↔ (∃ t ∈ ts, t.polling = false) ∨ ∀ t ∈ ts, t.hasMessages = false) ∧
    ((∃ t ∈ ts, t.polling = false) →
      ∃ e, .finished c.number c.cycle ⟨c.group, .error e⟩ ∈ es) := by
  cases last with
  | some k =>
    obtain ⟨-, turns, events⟩ := h.unended waits
    refine ⟨⟨fun _ => Or.inr fun t ht => (turns t ht).2, fun _ => ⟨?_, ?_⟩⟩, ?_⟩
    · intro envelope message he
      obtain ⟨_, _, _, _, e⟩ := events _ he
      cases e
    · intro k o he
      obtain ⟨_, _, _, _, e⟩ := events _ he
      cases e
    · rintro ⟨t, ht, idle⟩
      rw [(turns t ht).1] at idle
      cases idle
  | none =>
    cases h with
    | @turn ts t es _ k _ course segment =>
      obtain ⟨-, turns, events⟩ := course.unended waits
      obtain ⟨number, cycle, group⟩ := course.same k rfl
      cases segment with
      | @fail e _ failure =>
        rw [number, cycle, group]
        refine ⟨⟨fun _ => ?_, fun _ => ⟨?_, ?_⟩⟩, fun _ => ⟨e, by simp⟩⟩
        · by_cases active : t.polling = true
          · right
            intro t' ht'
            rcases List.mem_append.1 ht' with ht' | ht'
            · exact (turns t' ht').2
            · rw [List.mem_singleton.1 ht']
              exact hasMessages_of_failure active failure
          · exact Or.inl ⟨t, by simp, by simpa using active⟩
        · intro envelope message he
          rcases List.mem_append.1 he with he | he
          · obtain ⟨_, _, _, _, e⟩ := events _ he
            cases e
          · simp at he
        · intro k o he
          rcases List.mem_append.1 he with he | he
          · obtain ⟨_, _, _, _, e⟩ := events _ he
            cases e
          · simp only [List.mem_singleton, Event.finished.injEq] at he
            rw [he.2.2]
            rfl
      | @deliver response messages _ answer active =>
        have flags : ∀ t' ∈ ts ++ [t], t'.polling = true := by
          intro t' ht'
          rcases List.mem_append.1 ht' with ht' | ht'
          · exact (turns t' ht').1
          · rw [List.mem_singleton.1 ht']
            exact active
        refine ⟨⟨fun discarded => ?_, ?_⟩, ?_⟩
        · have := discarded.2 c.cycle ⟨c.group, .ok messages.length⟩
            (by simp [number, cycle, group])
          simp [Outcome.isError] at this
        · rintro (⟨t', ht', idle⟩ | none)
          · rw [flags t' ht'] at idle
            cases idle
          · have := none t (by simp)
            simp [Turn.hasMessages, answer] at this
        · rintro ⟨t', ht', idle⟩
          rw [flags t' ht'] at idle
          cases idle

/-! ## Stops and starts -/

/-- **When a stop is lasting.** Take a chain that waits for nodes or for messages when the poller is
stopped, and let anything follow. It discards its work exactly if it finds the flag clear when an
answer comes, or never gets messages; and if it finds the flag clear, it ends with an error. It does
find it clear if its next answer comes before anybody starts the timer or makes a single call. -/
theorem stopped_chain_discards_iff {s s' : State} {before after : List Move}
    (reached : Run .idle before s) {c : Chain} (flies : c ∈ s.chains) (waits : c.stage ≠ .queued)
    (run : Run s.stop after s') :
    (Discarded c.number (trace after) ↔
      (∃ t ∈ own c.number (turns s.stop after), t.polling = false) ∨
        ∀ t ∈ own c.number (turns s.stop after), t.hasMessages = false) ∧
    ((∃ t ∈ own c.number (turns s.stop after), t.polling = false) →
      ∃ e, .finished c.number c.cycle ⟨c.group, .error e⟩ ∈ trace after) ∧
    (∀ first m rest, after = first ++ m :: rest → (∀ k ∈ first, k.action.isQuiet = true) →
      m.action.chain? = some c.number →
      ∃ t ∈ own c.number (turns s.stop after), t.polling = false) := by
  have num : Numbered s.stop :=
    (reached.numbered numbered_idle).mono rfl rfl rfl (Nat.le_refl _)
  have course := run.course num (c := c) flies
  obtain ⟨iff, ends⟩ := course.discarded_iff waits
  refine ⟨discarded_seen.symm.trans iff, fun idle => ?_, ?_⟩
  · obtain ⟨e, he⟩ := ends idle
    exact ⟨e, finished_mem_seen.1 he⟩
  · rintro first m rest rfl quiet mine
    obtain ⟨s₁, run₁, -⟩ := run.split
    have idle : s₁.polling = false := (run₁.wound num rfl quiet).idle
    refine ⟨⟨s₁.polling, m.view, m.action⟩, mem_own.2 ⟨?_, mine⟩, idle⟩
    rw [run₁.turns_append]
    exact List.mem_append_right _ List.mem_cons_self

/-- One group that opens every envelope alike. -/
def oneGroup : Context := ⟨["a"], fun _ => .ok ⟨[1], "sender"⟩⟩

def oneNode : List Snode := [⟨"127.0.0.1", 22021⟩]

/-- A single call for it, whose chain waits for nodes. -/
def waiting : State where
  polling := true
  timer := none
  timers := []
  ordered := []
  cycles := [⟨0, some 7, []⟩]
  chains := [⟨1, 0, "a", .lookup⟩]
  next := 2

theorem waiting_reached : ∃ moves, Run .idle moves waiting :=
  ⟨_, play_run [(oneGroup, .call 7), (oneGroup, .lookup 1)] rfl⟩

/-- A second stop, before the nodes come, makes up for the start. -/
theorem stopped_chain_discards_twice :
    ∃ after s, Run waiting.stop after s ∧ Discarded 1 (trace after) ∧
      ∃ e, .finished 1 0 ⟨"a", .error e⟩ ∈ trace after := by
  obtain ⟨before, reached⟩ := waiting_reached
  have run : Run waiting.stop _ _ := play_run [(oneGroup, .start), (oneGroup, .stop),
    (oneGroup, .lookedUp 1 (.ok oneNode) 0)] rfl
  have h := stopped_chain_discards_iff reached (c := ⟨1, 0, "a", .lookup⟩) (by decide) (by decide) run
  have idle := h.1.2 (Or.inl ⟨⟨false, oneGroup, .lookedUp 1 (.ok oneNode) 0⟩,
    List.mem_singleton_self _, rfl⟩)
  exact ⟨_, _, run, idle, h.2.1 ⟨_, List.mem_singleton_self _, rfl⟩⟩

/-- **A restart revives what was stopped**: its chain goes on to the messages, and hands them
over. -/
theorem restart_revives :
    ∃ before rest s, Run .idle before waiting ∧
      Run waiting.stop (⟨oneGroup, .start, [.started 2]⟩ :: rest) s ∧
      .delivered 1 (.closedGroup "a" [1] 0) ⟨[1], "sender"⟩ ∈ trace rest ∧
      .finished 1 0 ⟨"a", .ok 1⟩ ∈ trace rest ∧ ¬ Discarded 1 (trace rest) := by
  obtain ⟨before, reached⟩ := waiting_reached
  let response := Retrieval.response [⟨"AQ==", 0⟩]
  let rest : List Move :=
    [⟨oneGroup, .lookedUp 1 (.ok oneNode) 0, [.fetch 1 "a" ⟨"127.0.0.1", 22021⟩ oneNode]⟩,
      ⟨oneGroup, .fetched 1 (.ok response),
        [.delivered 1 (.closedGroup "a" [1] 0) ⟨[1], "sender"⟩, .finished 1 0 ⟨"a", .ok 1⟩]⟩]
  have run : Run waiting.stop (⟨oneGroup, .start, [.started 2]⟩ :: rest)
      ⟨true, some 2, [2], [], [⟨0, some 7, [⟨"a", .ok 1⟩]⟩], [], 3⟩ :=
    play_run [(oneGroup, .start), (oneGroup, .lookedUp 1 (.ok oneNode) 0),
      (oneGroup, .fetched 1 (.ok response))] rfl
  refine ⟨before, rest, _, reached, run, by simp [rest, trace], by simp [rest, trace], ?_⟩
  exact fun discarded => discarded.1 (.closedGroup "a" [1] 0) ⟨[1], "sender"⟩ (by simp [rest, trace])

end SealedPost.Poller

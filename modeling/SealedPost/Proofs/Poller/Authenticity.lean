import SealedPost.Proofs.Messenger.Opening
import SealedPost.Proofs.Poller.Independence
import SealedPost.Proofs.Poller.Restart
import SealedPost.Proofs.Swarm.Retrieval

/-!
# Only authentic messages are handed over

Between the beginning of a cycle and a delivery anything may happen to the stores and to the poller,
and the network answers what it likes. What is handed over is authentic all the same
(`only_authentic_delivered`), for two reasons.

* `Messenger.decrypt_closedGroup_eq_ok_iff`: an envelope of a group opens exactly if it is
  `Authentic` for the table of groups at that moment.
* `Origins`: the chain that hands it over began with its cycle, for a group that was listed then.

A chain counts what it hands over, and it does so once (`Tally`).
-/

namespace SealedPost.Poller

/-! ## Where a chain comes from -/

/-- Among these events, under this view, the chain `n` began with the cycle `k` for a group: it is
the one in the group's place. -/
def Begins (view : Context) (es : List Event) (n k : Nat) (group : String) : Prop :=
  ∃ (chains : List Nat) (i : Nat), .fannedOut k chains ∈ es ∧ chains[i]? = some n ∧
    view.groups[i]? = some group

theorem Begins.listed {view : Context} {es : List Event} {n k : Nat} {group : String}
    (h : Begins view es n k group) : group ∈ view.groups := by
  obtain ⟨_, _, -, -, listed⟩ := h
  exact List.mem_of_getElem? listed

theorem getElem?_chainsFor (cycle first i : Nat) (groups : List String) :
    (State.chainsFor cycle first groups)[i]? =
      groups[i]?.map fun group => ⟨first + i, cycle, group, .queued⟩ := by
  induction groups generalizing first i with
  | nil => rfl
  | cons g rest ih =>
    cases i with
    | zero => rfl
    | succ i =>
      rw [State.chainsFor, List.getElem?_cons_succ, List.getElem?_cons_succ, ih]
      have shifted : first + 1 + i = first + (i + 1) := by omega
      rw [shifted]

section
variable {view : Context} {s : State} {n k g : Nat} {call : Option Nat} {group : String}

/-- A chain that begins gets a number of its own, and is the only one of that number. -/
theorem begins_fanOut_iff :
    Begins view (s.fanOut k call view.groups).2 n g group ↔
      g = k ∧ ∃ i, n = s.next + i ∧ view.groups[i]? = some group := by
  constructor
  · rintro ⟨chains, i, fans, nth, listed⟩
    obtain ⟨rfl, rfl⟩ := Event.fannedOut.inj (List.mem_singleton.1 fans)
    rw [List.getElem?_map, getElem?_chainsFor, listed] at nth
    exact ⟨rfl, i, (Option.some.inj nth).symm, listed⟩
  · rintro ⟨rfl, i, rfl, listed⟩
    refine ⟨_, i, List.mem_singleton_self _, ?_, listed⟩
    rw [List.getElem?_map, getElem?_chainsFor, listed]
    rfl

theorem mem_fanOut_iff {c : Chain} : c ∈ (s.fanOut k call view.groups).1.chains ↔
    c ∈ s.chains ∨ ∃ i, view.groups[i]? = some c.group ∧ c = ⟨s.next + i, k, c.group, .queued⟩ := by
  simp only [State.fanOut, List.mem_append, List.mem_iff_getElem? (l := State.chainsFor _ _ _),
    getElem?_chainsFor, Option.map_eq_some_iff]
  refine or_congr_right ⟨?_, ?_⟩
  · rintro ⟨i, group, listed, rfl⟩
    exact ⟨i, listed, rfl⟩
  · rintro ⟨i, listed, same⟩
    exact ⟨i, c.group, listed, same.symm⟩

end

/-- What an effect can do to the chains in flight: those that were there stay or end, and others
begin now. -/
structure Sprouts (view : Context) (es : List Event) (s s' : State) : Prop where
  origin : ∀ c ∈ s'.chains,
    (∃ c₀ ∈ s.chains, c₀.tag = c.tag) ∨ Begins view es c.number c.cycle c.group
  fresh : ∀ n k group, Begins view es n k group → s.next ≤ n ∧ n < s'.next ∧
    ∀ c ∈ s'.chains, c.number = n → c.cycle = k ∧ c.group = group

theorem sprouts_fanOut {view : Context} {s₀ s : State} (h : Numbered s) (k : Nat)
    (call : Option Nat) (chains : s.chains = s₀.chains) (le : s₀.next ≤ s.next) :
    Sprouts view (s.fanOut k call view.groups).2 s₀ (s.fanOut k call view.groups).1 where
  origin := by
    intro c hc
    rcases mem_fanOut_iff.1 hc with hc | ⟨i, listed, same⟩
    · exact .inl ⟨c, chains ▸ hc, rfl⟩
    · rw [same]
      exact .inr (begins_fanOut_iff.2 ⟨rfl, i, rfl, listed⟩)
  fresh := by
    intro n g group begins
    obtain ⟨rfl, i, rfl, listed⟩ := begins_fanOut_iff.1 begins
    have lt : i < view.groups.length := (List.getElem?_eq_some_iff.1 listed).1
    refine ⟨by omega, by simpa [State.fanOut] using lt, fun c hc number => ?_⟩
    rcases mem_fanOut_iff.1 hc with hc | ⟨j, listed', same⟩
    · have := h.chains_lt c hc
      omega
    · rw [same] at number ⊢
      obtain rfl : j = i := by simpa using number
      exact ⟨rfl, Option.some.inj (listed'.symm.trans listed)⟩

theorem sprouts_of_quiet {view : Context} {es : List Event} {s s' : State}
    (old : ∀ c ∈ s'.chains, ∃ c₀ ∈ s.chains, c₀.tag = c.tag)
    (quiet : ∀ k chains, .fannedOut k chains ∉ es) : Sprouts view es s s' where
  origin := fun c hc => .inl (old c hc)
  fresh := by
    rintro n k group ⟨chains, i, fans, -⟩
    exact absurd fans (quiet k chains)

theorem Effect.sprouts {view : Context} {a : Action} {s s' : State} {es : List Event}
    (e : Effect view a s es s') (h : Numbered s) : Sprouts view es s s' := by
  have staged : ∀ n stage, ∀ c ∈ (s.setStage n stage).chains, ∃ c₀ ∈ s.chains, c₀.tag = c.tag := by
    intro n stage c hc
    obtain ⟨c₀, hc₀, number, cycle, group⟩ := of_mem_setStage hc
    exact ⟨c₀, hc₀, by simp [Chain.tag, number, cycle, group]⟩
  cases e with
  | install | keep | stop | refuse | order | expire | die | skip =>
    exact sprouts_of_quiet (fun c hc => ⟨c, hc, rfl⟩) (by simp)
  | call =>
    have claimed : Numbered s.claim := h.mono rfl rfl rfl (Nat.le_succ _)
    exact sprouts_fanOut claimed _ _ rfl (Nat.le_succ _)
  | begin => exact sprouts_fanOut (h.unorder _) _ _ rfl (Nat.le_refl _)
  | ask | fetch => exact sprouts_of_quiet (staged _ _) (by simp)
  | fail | deliver =>
    exact sprouts_of_quiet (fun c hc => ⟨c, List.mem_of_mem_filter hc, rfl⟩)
      (by simp [State.finish])
  | collect =>
    refine sprouts_of_quiet (fun c hc => ?_) fun _ _ => not_fannedOut_collect
    rw [collect_chains] at hc
    exact ⟨c, hc, rfl⟩

theorem Effects.sprouts {view : Context} {a : Action} {s s' : State} {es : List Event}
    (e : Effects view a s es s') (h : Numbered s) : Sprouts view es s s' := by
  cases e with
  | one e => exact e.sprouts h
  | @two s₁ _ es₁ es₂ _ e₁ e₂ =>
    have first := e₁.sprouts h
    -- the end of a cycle begins nothing
    have narrow : ∀ {n k group}, Begins view (es₁ ++ es₂) n k group →
        Begins view es₁ n k group := by
      rintro n k group ⟨chains, i, fans, rest⟩
      refine ⟨chains, i, (List.mem_append.1 fans).resolve_right fun fans => ?_, rest⟩
      cases e₂ with
      | collect => exact not_fannedOut_collect fans
      | fail _ resumes => exact resumes.elim
    constructor
    · rw [e₂.chains_eq]
      refine fun c hc => (first.origin c hc).imp_right ?_
      rintro ⟨chains, i, fans, rest⟩
      exact ⟨chains, i, List.mem_append_left _ fans, rest⟩
    · intro n k group begins
      rw [e₂.chains_eq]
      obtain ⟨le, lt, only⟩ := first.fresh n k group (narrow begins)
      exact ⟨le, Nat.lt_of_lt_of_le lt e₂.next_le, only⟩

/-- Where the chains of a run come from: each began in one of its moves, for the group of which it
is the chain, and in no other. -/
structure Origins (moves : List Move) (s : State) : Prop where
  found : ∀ c ∈ s.chains, ∃ m ∈ moves, Begins m.view m.events c.number c.cycle c.group
  known : ∀ m ∈ moves, ∀ n k group, Begins m.view m.events n k group → n < s.next ∧
    ∀ c ∈ s.chains, c.number = n → c.cycle = k ∧ c.group = group

theorem Run.origins {moves : List Move} {s : State} (run : Run .idle moves s) :
    Origins moves s := by
  induction run with
  | nil => exact ⟨by simp [State.idle], by simp⟩
  | @snoc moves s₁ s₂ m run step ih =>
    have num := run.numbered numbered_idle
    have effects := step_effects num step
    have sprouts := effects.sprouts num
    constructor
    · intro c hc
      rcases sprouts.origin c hc with ⟨c₀, hc₀, tag⟩ | begins
      · obtain ⟨m₀, hm₀, begins⟩ := ih.found c₀ hc₀
        obtain ⟨number, cycle, group⟩ : c₀.number = c.number ∧ c₀.cycle = c.cycle ∧
          c₀.group = c.group := by simpa [Chain.tag] using tag
        exact ⟨m₀, List.mem_append_left _ hm₀, number ▸ cycle ▸ group ▸ begins⟩
      · exact ⟨m, by simp, begins⟩
    · intro m₀ hm₀ n k group begins
      rcases List.mem_append.1 hm₀ with hm₀ | hm₀
      · obtain ⟨lt, only⟩ := ih.known m₀ hm₀ n k group begins
        refine ⟨Nat.lt_of_lt_of_le lt effects.next_le, fun c hc number => ?_⟩
        rcases sprouts.origin c hc with ⟨c₀, hc₀, tag⟩ | begins
        · obtain ⟨number', cycle, group'⟩ : c₀.number = c.number ∧ c₀.cycle = c.cycle ∧
            c₀.group = c.group := by simpa [Chain.tag] using tag
          exact cycle ▸ group' ▸ only c₀ hc₀ (number'.trans number)
        · have := (sprouts.fresh _ _ _ begins).1
          omega
      · obtain rfl := List.mem_singleton.1 hm₀
        exact (sprouts.fresh n k group begins).2

/-! ## What is handed over -/

/-- What an effect hands over it has read from a response to a chain in flight, while the flag is
set. -/
theorem Effects.of_delivered {view : Context} {a : Action} {s s' : State} {es : List Event}
    (e : Effects view a s es s') {n : Nat} {envelope : Envelope} {message : Message}
    (hands : .delivered n envelope message ∈ es) :
    s.polling = true ∧ ∃ c ∈ s.chains, c.number = n ∧ ∃ response,
      a = .fetched n (.ok response) ∧ envelope ∈ Retrieval.envelopes c.group response ∧
      view.decrypt envelope = .ok message := by
  have uncollected : ∀ (s : State) (c : Cycle),
      .delivered n envelope message ∉ (s.collect c).2 := by
    intro s c
    unfold State.collect
    cases c.call <;> simp
  have first : ∀ {a s' es}, Effect view a s es s' → .delivered n envelope message ∈ es →
      s.polling = true ∧ ∃ c ∈ s.chains, c.number = n ∧ ∃ response,
        a = .fetched n (.ok response) ∧ envelope ∈ Retrieval.envelopes c.group response ∧
        view.decrypt envelope = .ok message := by
    intro a s' es e hands
    cases e with
    | @deliver _ c response messages flies resumes active reads =>
      have hands' : ∃ m ∈ messages, c.number = n ∧ m.1 = envelope ∧ m.2 = message := by
        simpa [State.finish] using hands
      obtain ⟨⟨e, m⟩, read, rfl, rfl, rfl⟩ := hands'
      rw [reads] at read
      obtain ⟨e', he', opens⟩ := List.mem_filterMap.1 read
      refine ⟨active, c, flies, rfl, response, rfl, ?_⟩
      split at opens
      · rename_i m' opened
        obtain ⟨rfl, rfl⟩ := Prod.mk.inj (Option.some.inj opens)
        exact ⟨he', opened⟩
      · cases opens
    | collect => exact absurd hands (uncollected _ _)
    | install | keep | stop | refuse | call | order | expire | die | skip | begin | ask | fetch |
      fail => simp [State.fanOut, State.finish] at hands
  cases e with
  | one e => exact first e hands
  | two e₁ e₂ =>
    rcases List.mem_append.1 hands with hands | hands
    · exact first e₁ hands
    · cases e₂ with
      | collect => exact absurd hands (uncollected _ _)
      | fail _ resumes => exact resumes.elim

/-! ## What is counted -/

/-- A chain's outcome says how many messages it handed over: none if it failed. -/
def Outcome.Counts (o : Outcome) (messages : List (Envelope × Message)) : Prop :=
  match o.result with
  | .ok count => messages.length = count
  | .error _ => messages = []

/-- What a chain reports agrees with what it handed over: nothing until it reports. -/
structure Tally (n : Nat) (es : List Event) (s : State) : Prop where
  pending : (∀ k o, .finished n k o ∉ es) → handed (seen n es) = []
  counted : ∀ k o, .finished n k o ∈ es →
    n < s.next ∧ (∀ c ∈ s.chains, c.number ≠ n) ∧ o.Counts (handed (seen n es))

/-- A turn hands over what its chain then reports. -/
theorem Segment.tally {c : Chain} {t : Turn} {es : List Event} {next : Option Chain}
    (h : Segment c t es next) :
    ((∀ k o, .finished c.number k o ∉ es) → handed es = []) ∧
    ∀ k o, .finished c.number k o ∈ es → next = none ∧ o.Counts (handed es) := by
  cases h with
  | ask | fetch => exact ⟨fun _ => rfl, by simp⟩
  | fail =>
    refine ⟨fun quiet => absurd (List.mem_singleton_self _) (quiet _ _), fun k o ended => ?_⟩
    obtain ⟨-, -, rfl⟩ := Event.finished.inj (List.mem_singleton.1 ended)
    exact ⟨rfl, rfl⟩
  | @deliver _ messages =>
    refine ⟨fun quiet => absurd (by simp) (quiet c.cycle ⟨c.group, .ok messages.length⟩), ?_⟩
    intro k o ended
    obtain ⟨-, rfl⟩ : k = c.cycle ∧ o = ⟨c.group, .ok messages.length⟩ := by simpa using ended
    refine ⟨rfl, ?_⟩
    simp [Outcome.Counts, handed, List.filterMap_map, Function.comp_def, Event.message?]

theorem Effect.tally {view : Context} {a : Action} {s s' : State} {before es : List Event} {n : Nat}
    (e : Effect view a s es s') (num : Numbered s) (h : Tally n before s) :
    Tally n (before ++ es) s' := by
  by_cases mine : a.chain? = some n
  · obtain ⟨c, flies, rfl⟩ := e.flies mine
    have unended : ∀ k o, .finished c.number k o ∉ before :=
      fun k o ended => (h.counted k o ended).2.1 c flies rfl
    obtain ⟨pending, counted⟩ := (e.segment num flies mine).tally
    have all : handed (seen c.number (before ++ es)) = handed (seen c.number es) := by
      rw [seen_append, handed_append, h.pending unended, List.nil_append]
    constructor
    · intro quiet
      rw [all]
      exact pending fun k o ended =>
        quiet k o (List.mem_append_right _ (finished_mem_seen.1 ended))
    · intro k o ended
      obtain ⟨landed, counts⟩ :=
        counted k o (finished_mem_seen.2 ((List.mem_append.1 ended).resolve_left (unended k o)))
      rw [all]
      exact ⟨Nat.lt_of_lt_of_le (num.chains_lt c flies) e.next_le, chain?_eq_none_iff.1 landed,
        counts⟩
  · obtain ⟨quiet, -⟩ := e.elsewhere mine
    have all : handed (seen n (before ++ es)) = handed (seen n before) := by
      rw [seen_append, quiet, List.append_nil]
    have earlier : ∀ {k o}, .finished n k o ∈ before ++ es → .finished n k o ∈ before := by
      intro k o ended
      refine (List.mem_append.1 ended).resolve_right fun ended => ?_
      have := finished_mem_seen.2 ended
      simp [quiet] at this
    constructor
    · intro none
      rw [all]
      exact h.pending fun k o ended => none k o (List.mem_append_left _ ended)
    · intro k o ended
      rw [all]
      obtain ⟨lt, gone, counts⟩ := h.counted k o (earlier ended)
      exact ⟨Nat.lt_of_lt_of_le lt e.next_le, e.unborn lt gone, counts⟩

theorem Run.tally {moves : List Move} {s : State} (run : Run .idle moves s) (n : Nat) :
    Tally n (trace moves) s :=
  run.keeps (fun num e h => e.tally num h) numbered_idle ⟨fun _ => rfl, by simp⟩

/-! ## The whole of it -/

/-- **Only authentic messages are handed over**, whatever was called, in which order answers came and
how the stores changed meanwhile. At a delivery the flag is set. The envelope is one of a group,
which was listed when the chain's cycle began, with that chain in the group's place. It is authentic
for the store as it is now: the group is known, and its secret key belongs to the key that the
envelope names and opens the content as this very message, which is not empty. And every chain
reports as many messages as it handed over. -/
theorem only_authentic_delivered [Curve] {moves : List Move} {s : State}
    (run : Run .idle moves s) :
    (∀ before m after store n envelope message, moves = before ++ m :: after →
      m.view = Context.ofStore store → .delivered n envelope message ∈ m.events →
      ∃ s₁ k source content timestamp secret,
        Run .idle before s₁ ∧ s₁.polling = true ∧
        envelope = .closedGroup source content timestamp ∧
        (∃ m₀ ∈ before, Begins m₀.view m₀.events n k source ∧
          ∀ store₀, m₀.view = Context.ofStore store₀ → source ∈ store₀.groups.publicKeys) ∧
        (∀ m₀ ∈ before, ∀ k' group, Begins m₀.view m₀.events n k' group →
          k' = k ∧ group = source) ∧
        Messenger.Authentic store.groups source content message secret ∧
        message.plaintext ≠ []) ∧
    ∀ n k o, .finished n k o ∈ trace moves → o.Counts (handed (seen n (trace moves))) := by
  refine ⟨?delivered, fun n k o ended => ((run.tally n).counted k o ended).2.2⟩
  rintro before m after store n envelope message rfl view hands
  obtain ⟨s₁, run₁, rest⟩ := run.split
  obtain ⟨s₂, step, -⟩ := rest.uncons
  obtain ⟨active, c, flies, rfl, response, -, listed, opens⟩ :=
    (step_effects (run₁.numbered numbered_idle) step).of_delivered hands
  obtain ⟨content, timestamp, rfl⟩ := Retrieval.of_mem_envelopes listed
  rw [view] at opens
  obtain ⟨secret, authentic⟩ := decrypt_ofStore_eq_ok_iff.1 opens
  obtain ⟨m₀, hm₀, begins⟩ := run₁.origins.found c flies
  have source : ∀ store₀, m₀.view = Context.ofStore store₀ →
      c.group ∈ store₀.groups.publicKeys := by
    intro store₀ view₀
    have := begins.listed
    rwa [view₀] at this
  refine ⟨s₁, c.cycle, c.group, content, timestamp, secret, run₁, active, rfl,
    ⟨m₀, hm₀, begins, source⟩, ?_, authentic, authentic.nonempty⟩
  intro m₁ hm₁ k' group begins'
  obtain ⟨cycle, named⟩ := (run₁.origins.known m₁ hm₁ _ _ _ begins').2 c flies rfl
  exact ⟨cycle.symm, named.symm⟩

/-! ## A message for a group on the curve itself -/

/-- A single call for the one group of a store: one message is read from the response and handed
over. -/
def delivering (view : Context) (group : String) (response : Json) (envelope : Envelope)
    (message : Message) : List Move :=
  [⟨view, .call 7, [.fannedOut 0 [1]]⟩, ⟨view, .lookup 1, [.lookup 1 group]⟩,
    ⟨view, .lookedUp 1 (.ok oneNode) 0, [.fetch 1 group ⟨"127.0.0.1", 22021⟩ oneNode]⟩,
    ⟨view, .fetched 1 (.ok response),
      [.delivered 1 envelope message, .finished 1 0 ⟨group, .ok 1⟩]⟩]

theorem run_delivering {view : Context} {group : String} {response : Json} {envelope : Envelope}
    {message : Message} (groups : view.groups = [group])
    (reads : State.readable view.decrypt (Retrieval.envelopes group response) =
      [(envelope, message)]) :
    Run .idle (delivering view group response envelope message)
      ⟨true, none, [], [], [⟨0, some 7, [⟨group, .ok 1⟩]⟩], [], 2⟩ := by
  obtain ⟨_, decrypt⟩ := view
  obtain rfl := groups
  let view : Context := ⟨[group], decrypt⟩
  let fetching : State :=
    ⟨true, none, [], [], [⟨0, some 7, []⟩], [⟨1, 0, group, .fetch ⟨"127.0.0.1", 22021⟩⟩], 2⟩
  have asked : Run .idle _ fetching :=
    play_run [(view, .call 7), (view, .lookup 1), (view, .lookedUp 1 (.ok oneNode) 0)] rfl
  have hands : fetching.step view (.fetched 1 (.ok response)) = some (_, _) :=
    step_fetched (s := fetching) (c := ⟨1, 0, group, .fetch ⟨"127.0.0.1", 22021⟩⟩) rfl rfl rfl reads
  exact asked.snoc _ hands

theorem groups_readersStore :
    (Context.ofStore Messenger.readersStore).groups = [Messenger.readers.sessionId] :=
  List.mergeSort_singleton _

theorem only_authentic_delivered_to_readers :
    ∃ response content message secret s, Run .idle
      (delivering (Context.ofStore Messenger.readersStore) Messenger.readers.sessionId response
        (.closedGroup Messenger.readers.sessionId content 0) message) s ∧
      Messenger.Authentic Messenger.readersStore.groups Messenger.readers.sessionId content
        message secret ∧
      message.plaintext ≠ [] := by
  obtain ⟨content, message, secret, authentic⟩ := Messenger.exists_authentic
  have opened : (Context.ofStore Messenger.readersStore).decrypt
      (.closedGroup Messenger.readers.sessionId content 0) = .ok message :=
    decrypt_ofStore_eq_ok_iff.2 ⟨secret, authentic⟩
  have run := run_delivering groups_readersStore (readable_response opened)
  obtain ⟨-, -, source, content', timestamp, secret, -, -, same, -, -, authentic, nonempty⟩ :=
    (only_authentic_delivered run).1 [_, _, _] _ [] Messenger.readersStore 1 _ _ rfl rfl
      List.mem_cons_self
  obtain ⟨rfl, rfl, rfl⟩ : Messenger.readers.sessionId = source ∧ content = content' ∧
      0 = timestamp := by simpa [Envelope.closedGroup] using same
  exact ⟨_, content, message, secret, _, run, authentic, nonempty⟩

end SealedPost.Poller

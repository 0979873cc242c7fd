import SealedPost.Proofs.Poller.Account

/-!
# The course of a chain

Chains run side by side and share one flag, and yet what a chain does hangs on its own turns alone:
on what it is answered, and on the flag and the stores as it finds them. `Course` takes a chain
through nothing but its turns; `Run.course` finds every chain of every run on such a course.
-/

namespace SealedPost.Poller

/-! ## Turns -/

/-- A move as it begins: the flag that it finds, what it sees of the stores, and its action. -/
structure Turn where
  polling : Bool
  view : Context
  action : Action

/-- The state after a move; the same if the move is not possible. -/
def State.after (s : State) (m : Move) : State :=
  match s.step m.view m.action with
  | some (s', _) => s'
  | none => s

/-- Moves from a state, each as it begins. -/
def turns : State → List Move → List Turn
  | _, [] => []
  | s, m :: rest => ⟨s.polling, m.view, m.action⟩ :: turns (s.after m) rest

theorem turns_append (s : State) (moves later : List Move) :
    turns s (moves ++ later) = turns s moves ++ turns (moves.foldl State.after s) later := by
  induction moves generalizing s with
  | nil => rfl
  | cons m rest ih => simp [turns, ih]

theorem Run.foldl_after {s s' : State} {moves : List Move} (run : Run s moves s') :
    moves.foldl State.after s = s' := by
  induction run with
  | nil => rfl
  | snoc m _ step ih => simp [ih, State.after, step]

theorem Run.turns_append {s s' : State} {moves : List Move} (run : Run s moves s')
    (later : List Move) : turns s (moves ++ later) = turns s moves ++ turns s' later := by
  rw [Poller.turns_append, run.foldl_after]

theorem map_action_turns (s : State) (moves : List Move) :
    (turns s moves).map Turn.action = moves.map Move.action := by
  induction moves generalizing s with
  | nil => rfl
  | cons m rest ih => simp [turns, ih]

/-- **Induction along a run**, over its turns and events so far and the state. -/
theorem Run.along {P : List Turn → List Event → State → Prop}
    (keeps : ∀ {view : Context} {a : Action} {s s' : State} {ts : List Turn}
      {before es : List Event}, Numbered s → Effects view a s es s' → P ts before s →
      P (ts ++ [⟨s.polling, view, a⟩]) (before ++ es) s')
    {s s' : State} {moves : List Move} (run : Run s moves s') (num : Numbered s)
    (start : P [] [] s) : P (turns s moves) (trace moves) s' := by
  induction run with
  | nil => exact start
  | snoc m run step ih =>
    have num₁ := run.numbered num
    rw [run.turns_append, trace, List.flatMap_append, List.flatMap_singleton]
    exact keeps num₁ (step_effects num₁ step) ih

/-! ## Whose turn it is -/

/-- The chain that an event tells of. -/
def Event.chain? : Event → Option Nat
  | .lookup n _ | .fetch n _ _ _ | .delivered n _ _ | .finished n _ _ => some n
  | _ => none

/-- The turns of one chain. -/
def own (n : Nat) (ts : List Turn) : List Turn := ts.filter fun t => t.action.chain? = some n

/-- The events that tell of one chain. -/
def seen (n : Nat) (es : List Event) : List Event := es.filter fun e => e.chain? = some n

theorem own_append (n : Nat) (ts ts' : List Turn) : own n (ts ++ ts') = own n ts ++ own n ts' :=
  List.filter_append ..

theorem seen_append (n : Nat) (es es' : List Event) : seen n (es ++ es') = seen n es ++ seen n es' :=
  List.filter_append ..

theorem mem_own {n : Nat} {ts : List Turn} {t : Turn} :
    t ∈ own n ts ↔ t ∈ ts ∧ t.action.chain? = some n := by
  simp [own]

theorem finished_mem_seen {n k : Nat} {o : Outcome} {es : List Event} :
    .finished n k o ∈ seen n es ↔ .finished n k o ∈ es := by
  simp [seen, Event.chain?]

theorem delivered_mem_seen {n : Nat} {e : Envelope} {m : Message} {es : List Event} :
    .delivered n e m ∈ seen n es ↔ .delivered n e m ∈ es := by
  simp [seen, Event.chain?]

/-- Only a chain in flight is taken on. -/
theorem Effect.flies {view : Context} {a : Action} {s s' : State} {es : List Event} {n : Nat}
    (e : Effect view a s es s') (own : a.chain? = some n) : ∃ c ∈ s.chains, c.number = n := by
  cases e with
  | ask flies | fetch flies | deliver flies => exact ⟨_, flies, Option.some.inj own⟩
  | fail flies resumes => exact ⟨_, flies, Option.some.inj (resumes.chain?.symm.trans own)⟩
  | install | keep | stop | refuse | call | order | expire | die | skip | begin | collect => cases own

/-! ## One chain by itself -/

/-- **What one turn can do to its chain**: the events that tell of it, and the chain as it goes on,
if it does. -/
inductive Segment (c : Chain) (t : Turn) : List Event → Option Chain → Prop
  | ask (resumes : c.Resumes t.action) (begins : t.action = .lookup c.number) :
      Segment c t [.lookup c.number c.group] (some { c with stage := .lookup })
  | fetch {nodes : List Snode} {pick : Nat} {snode : Snode} (resumes : c.Resumes t.action)
      (answer : t.action = .lookedUp c.number (.ok nodes) pick)
      (chosen : State.choose nodes pick = some snode) (active : t.polling = true) :
      Segment c t [.fetch c.number c.group snode nodes] (some { c with stage := .fetch snode })
  | fail {e : PollError} (resumes : c.Resumes t.action)
      (failure : failure? t.polling t.action = some e) :
      Segment c t [.finished c.number c.cycle ⟨c.group, .error e⟩] none
  | deliver {response : Json} {messages : List (Envelope × Message)} (resumes : c.Resumes t.action)
      (answer : t.action = .fetched c.number (.ok response)) (active : t.polling = true)
      (reads : messages =
        State.readable t.view.decrypt (Retrieval.envelopes c.group response)) :
      Segment c t (messages.map (fun m => .delivered c.number m.1 m.2) ++
        [.finished c.number c.cycle ⟨c.group, .ok messages.length⟩]) none

/-- **A chain by itself**, over its turns: what was seen of it, and the chain as it goes on, if it
has not ended. -/
inductive Course (c : Chain) : List Turn → List Event → Option Chain → Prop
  | start : Course c [] [] (some c)
  | turn {ts : List Turn} {t : Turn} {es es' : List Event} {k : Chain} {next : Option Chain} :
      Course c ts es (some k) → Segment k t es' next → Course c (ts ++ [t]) (es ++ es') next

theorem Segment.same {c k : Chain} {t : Turn} {es : List Event} (h : Segment c t es (some k)) :
    k.number = c.number ∧ k.cycle = c.cycle ∧ k.group = c.group := by
  cases h <;> exact ⟨rfl, rfl, rfl⟩

/-- It stays the chain of its group and its cycle. -/
theorem Course.same {c : Chain} {ts : List Turn} {es : List Event} {last : Option Chain}
    (h : Course c ts es last) : ∀ k, last = some k →
      k.number = c.number ∧ k.cycle = c.cycle ∧ k.group = c.group := by
  induction h with
  | start => rintro _ ⟨⟩; exact ⟨rfl, rfl, rfl⟩
  | @turn _ _ _ _ k _ _ segment ih =>
    rintro k' rfl
    obtain ⟨number, cycle, group⟩ := ih k rfl
    obtain ⟨number', cycle', group'⟩ := segment.same
    exact ⟨number'.trans number, cycle'.trans cycle, group'.trans group⟩

/-- Without a turn of its own a chain stays where it is. -/
theorem Course.unmoved {c : Chain} {es : List Event} {last : Option Chain}
    (h : Course c [] es last) : es = [] ∧ last = some c := by
  generalize none : ([] : List Turn) = ts at h
  cases h with
  | start => exact ⟨rfl, rfl⟩
  | turn => simp at none

/-! ## Every chain is on its course -/

/-- An action that takes on another chain, or none, leaves a chain as it is. -/
theorem Effect.elsewhere {view : Context} {a : Action} {s s' : State} {es : List Event}
    (e : Effect view a s es s') {n : Nat} (other : a.chain? ≠ some n) :
    seen n es = [] ∧ ∀ c ∈ s.chains, c.number = n → c ∈ s'.chains := by
  cases e with
  | install | keep | stop | refuse | order | expire | die | skip =>
    exact ⟨by simp [seen, Event.chain?], fun _ hc _ => hc⟩
  | call | begin =>
    exact ⟨by simp [seen, State.fanOut, Event.chain?], fun _ hc _ => List.mem_append_left _ hc⟩
  | @ask _ k | @fetch _ k =>
    have hne : k.number ≠ n := fun e => other (congrArg some e)
    refine ⟨by simp [seen, Event.chain?, hne], ?_⟩
    rintro c hc rfl
    exact List.mem_map.2 ⟨c, hc, if_neg (Ne.symm hne)⟩
  | @fail _ k _ _ _ resumes =>
    have hne : k.number ≠ n := fun e => other (resumes.chain?.trans (congrArg some e))
    refine ⟨by simp [seen, State.finish, Event.chain?, hne], ?_⟩
    rintro c hc rfl
    exact List.mem_filter.2 ⟨hc, by simpa using Ne.symm hne⟩
  | @deliver _ k =>
    have hne : k.number ≠ n := fun e => other (congrArg some e)
    have others : ∀ ms : List (Envelope × Message),
        seen n (ms.map fun m => .delivered k.number m.1 m.2) = [] := by
      intro ms
      refine List.filter_eq_nil_iff.2 fun e he => ?_
      obtain ⟨m, -, rfl⟩ := List.mem_map.1 he
      simpa [Event.chain?] using hne
    refine ⟨by simp [seen_append, others]; simp [seen, State.finish, Event.chain?, hne], ?_⟩
    rintro c hc rfl
    exact List.mem_filter.2 ⟨hc, by simpa using Ne.symm hne⟩
  | @collect _ c =>
    refine ⟨?_, fun k hk _ => by rwa [collect_chains]⟩
    unfold State.collect
    cases c.call <;> simp [seen, Event.chain?]

/-- No chain gets a number that was given out. -/
theorem Effect.unborn {view : Context} {a : Action} {s s' : State} {es : List Event}
    (e : Effect view a s es s') {n : Nat} (lt : n < s.next) (gone : ∀ c ∈ s.chains, c.number ≠ n) :
    ∀ c ∈ s'.chains, c.number ≠ n := by
  have fresh : ∀ {cycle first groups} {c : Chain}, n < first →
      c ∈ State.chainsFor cycle first groups → c.number ≠ n := by
    intro cycle first groups c lt hc
    have hn : c.number ∈ List.range' first groups.length := by
      rw [← map_number_chainsFor cycle]
      exact List.mem_map_of_mem hc
    have := (List.mem_range'_1.1 hn).1
    omega
  cases e with
  | install | keep | stop | refuse | order | expire | die | skip => exact gone
  | call =>
    intro c hc
    exact (List.mem_append.1 hc).elim (gone c) (fresh (Nat.lt_succ_of_lt lt))
  | begin =>
    intro c hc
    exact (List.mem_append.1 hc).elim (gone c) (fresh lt)
  | ask | fetch =>
    intro c hc
    obtain ⟨k, hk, number, -⟩ := of_mem_setStage hc
    exact number ▸ gone k hk
  | fail | deliver => exact fun c hc => gone c (List.mem_of_mem_filter hc)
  | collect => rw [collect_chains]; exact gone

/-- An action that takes on a chain does one segment of it. -/
theorem Effect.segment {view : Context} {a : Action} {s s' : State} {es : List Event}
    (e : Effect view a s es s') (h : Numbered s) {c : Chain} (flies : c ∈ s.chains)
    (own : a.chain? = some c.number) :
    Segment c ⟨s.polling, view, a⟩ (seen c.number es) (s'.chain? c.number) := by
  have h' := e.numbered h
  have same : ∀ {k : Chain}, k ∈ s.chains → k.number = c.number → k = c :=
    fun hk => h.chain_eq hk flies
  have staged : ∀ stage, (s.setStage c.number stage).chain? c.number = some { c with stage } := by
    intro stage
    refine (chain?_eq_some_iff (h.setStage _ _)).2 ⟨List.mem_map.2 ⟨c, flies, ?_⟩, rfl⟩
    rw [if_pos rfl]
  have landed : ∀ r, (s.finish c r).1.chain? c.number = none := by
    intro r
    refine chain?_eq_none_iff.2 fun k hk => ?_
    simpa using List.of_mem_filter hk
  cases e with
  | @ask _ k hk resumes =>
    obtain rfl := same hk (Option.some.inj own)
    rw [staged]
    simpa [seen, Event.chain?] using Segment.ask (t := ⟨s.polling, view, _⟩) resumes rfl
  | @fetch _ k nodes pick snode hk resumes chosen active =>
    obtain rfl := same hk (Option.some.inj own)
    rw [staged]
    simpa [seen, Event.chain?] using
      Segment.fetch (t := ⟨s.polling, view, _⟩) resumes rfl chosen active
  | @fail _ k _ _ hk resumes failure =>
    obtain rfl := same hk (Option.some.inj (resumes.chain?.symm.trans own))
    rw [landed]
    simpa [seen, State.finish, Event.chain?] using
      Segment.fail (t := ⟨s.polling, view, _⟩) resumes failure
  | @deliver _ k response messages hk resumes active reads =>
    obtain rfl := same hk (Option.some.inj own)
    rw [landed]
    have all : seen k.number (messages.map (fun m => .delivered k.number m.1 m.2) ++
        (s.finish k (.ok messages.length)).2) = messages.map (fun m => .delivered k.number m.1 m.2) ++
        (s.finish k (.ok messages.length)).2 := by
      refine List.filter_eq_self.2 fun e he => ?_
      rcases List.mem_append.1 he with he | he
      · obtain ⟨m, -, rfl⟩ := List.mem_map.1 he
        simp [Event.chain?]
      · simp [List.mem_singleton.1 he, Event.chain?]
    rw [all]
    exact .deliver resumes rfl active reads
  | install | keep | stop | refuse | call | order | expire | die | skip | begin | collect => cases own

theorem Effects.flies {view : Context} {a : Action} {s s' : State} {es : List Event} {n : Nat}
    (e : Effects view a s es s') (own : a.chain? = some n) : ∃ c ∈ s.chains, c.number = n := by
  cases e with
  | one e => exact e.flies own
  | two e => exact e.flies own

theorem Effects.next_le {view : Context} {a : Action} {s s' : State} {es : List Event}
    (e : Effects view a s es s') : s.next ≤ s'.next := by
  cases e with
  | one e => exact e.next_le
  | two e₁ e₂ => exact Nat.le_trans e₁.next_le e₂.next_le

/-- The end of a cycle leaves the chains as they are. -/
theorem Effect.chains_eq {view : Context} {n : Nat} {s s' : State} {es : List Event}
    (e : Effect view (.collect n) s es s') : s'.chains = s.chains := by
  cases e with
  | collect => exact collect_chains _ _
  | fail flies resumes => exact resumes.elim

theorem Effects.segment {view : Context} {a : Action} {s s' : State} {es : List Event}
    (e : Effects view a s es s') (h : Numbered s) {c : Chain} (flies : c ∈ s.chains)
    (own : a.chain? = some c.number) :
    Segment c ⟨s.polling, view, a⟩ (seen c.number es) (s'.chain? c.number) := by
  cases e with
  | one e => exact e.segment h flies own
  | two e₁ e₂ =>
    have rest := (e₂.elsewhere (n := c.number) nofun).1
    rw [seen_append, rest, List.append_nil, State.chain?, e₂.chains_eq]
    exact e₁.segment h flies own

theorem Effects.elsewhere {view : Context} {a : Action} {s s' : State} {es : List Event}
    (e : Effects view a s es s') {n : Nat} (other : a.chain? ≠ some n) :
    seen n es = [] ∧ ∀ c ∈ s.chains, c.number = n → c ∈ s'.chains := by
  cases e with
  | one e => exact e.elsewhere other
  | two e₁ e₂ =>
    obtain ⟨quiet₁, kept₁⟩ := e₁.elsewhere other
    obtain ⟨quiet₂, kept₂⟩ := e₂.elsewhere (n := n) nofun
    refine ⟨by rw [seen_append, quiet₁, quiet₂]; rfl, fun c hc number => ?_⟩
    exact kept₂ c (kept₁ c hc number) number

theorem Effects.unborn {view : Context} {a : Action} {s s' : State} {es : List Event}
    (e : Effects view a s es s') {n : Nat} (lt : n < s.next) (gone : ∀ c ∈ s.chains, c.number ≠ n) :
    ∀ c ∈ s'.chains, c.number ≠ n := by
  cases e with
  | one e => exact e.unborn lt gone
  | two e₁ e₂ => exact e₂.unborn (Nat.lt_of_lt_of_le lt e₁.next_le) (e₁.unborn lt gone)

/-- **Every chain of every run is on its own course.** What others see of it, and where it has come
to, is what it would do by itself with its own turns, whatever runs between them. -/
theorem Run.course {s s' : State} {moves : List Move} (run : Run s moves s') (num : Numbered s)
    {c : Chain} (flies : c ∈ s.chains) :
    Course c (own c.number (turns s moves)) (seen c.number (trace moves)) (s'.chain? c.number) := by
  have both : Course c (own c.number (turns s moves)) (seen c.number (trace moves))
      (s'.chain? c.number) ∧ c.number < s'.next := by
    refine run.along (P := fun ts es s => Course c (own c.number ts) (seen c.number es)
      (s.chain? c.number) ∧ c.number < s.next) ?_ num ⟨?_, num.chains_lt c flies⟩
    · rintro view a s₁ s₂ ts before es num₁ e ⟨course, lt⟩
      rw [own_append, seen_append]
      cases hc : s₁.chain? c.number with
      | none =>
        have gone := chain?_eq_none_iff.1 hc
        have other : a.chain? ≠ some c.number := by
          intro mine
          obtain ⟨k, hk, number⟩ := e.flies mine
          exact gone k hk number
        have gone' := e.unborn lt gone
        have idle : own c.number [⟨s₁.polling, view, a⟩] = [] := by simp [own, other]
        rw [idle, (e.elsewhere other).1, List.append_nil, List.append_nil,
          chain?_eq_none_iff.2 gone', ← hc]
        exact ⟨course, Nat.lt_of_lt_of_le lt e.next_le⟩
      | some k =>
        obtain ⟨hk, number⟩ := chain?_eq_some hc
        refine ⟨?_, Nat.lt_of_lt_of_le lt e.next_le⟩
        rw [hc] at course
        by_cases mine : a.chain? = some c.number
        · have turn : own c.number [⟨s₁.polling, view, a⟩] = [⟨s₁.polling, view, a⟩] := by
            simp [own, mine]
          rw [turn]
          rw [← number] at mine ⊢
          exact (number ▸ course).turn (e.segment num₁ hk mine)
        · have idle : own c.number [⟨s₁.polling, view, a⟩] = [] := by simp [own, mine]
          obtain ⟨quiet, kept⟩ := e.elsewhere mine
          rw [idle, quiet, List.append_nil, List.append_nil,
            (chain?_eq_some_iff (e.numbered num₁)).2 ⟨kept k hk number, number⟩]
          exact course
    · rw [(chain?_eq_some_iff num).2 ⟨flies, rfl⟩]
      exact .start
  exact both.1

/-- Where a cycle is complete, its chains have ended. -/
theorem Run.landed {s s' : State} {moves : List Move} (run : Run s moves s') (num : Numbered s)
    {c : Chain} (flies : c ∈ s.chains) (complete : s'.isComplete c.cycle = true) :
    s'.chain? c.number = none := by
  cases found : s'.chain? c.number with
  | none => rfl
  | some k =>
    obtain ⟨-, cycle, -⟩ := (run.course num flies).same k found
    have other := List.all_eq_true.1 complete k (chain?_eq_some found).1
    simp [cycle] at other

end SealedPost.Poller

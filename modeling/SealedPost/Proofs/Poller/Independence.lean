import SealedPost.Proofs.Messenger.Opening
import SealedPost.Proofs.Poller.Completion
import SealedPost.Proofs.Swarm.Retrieval

/-!
# Groups fail independently

What a cycle does for a group is a function of that group alone: of what its lookup and its fetch
are answered, and of its own record (`Behaviour.yield`). Each chain is on its own course, and its
course is that function; so whatever order the chains of a cycle come in, and whatever else runs
between them, the outcomes of the cycle are those of its groups (`groups_fail_independently`).
-/

namespace SealedPost.Poller

/-- What is handed over of a batch is what opens of it, envelope by envelope. -/
theorem readable_eq_filterMap (decrypt : Envelope → Except MessageError Message)
    (envelopes : List Envelope) : State.readable decrypt envelopes =
      envelopes.filterMap fun e => (decrypt e).toOption.map fun m => (e, m) := by
  refine congrArg (List.filterMap · envelopes) (funext fun e => ?_)
  cases decrypt e <;> rfl

theorem decrypt_ofStore_eq_ok_iff [Curve] {store : Store} {source : String} {content : Bytes}
    {timestamp : Nat} {message : Message} :
    (Context.ofStore store).decrypt (.closedGroup source content timestamp) = .ok message ↔
      ∃ secret, Messenger.Authentic store.groups source content message secret :=
  Messenger.decrypt_closedGroup_eq_ok_iff

/-! ## What a cycle does for one group -/

/-- All that a group does in a cycle: what its lookup and its fetch are answered, and what is kept
of its secret key. -/
structure Behaviour where
  lookup : Except NetworkError (List Snode)
  fetch : Except NetworkError Json
  secret : Option (Option String)

namespace Behaviour
variable [Curve]

/-- The table of a group that is the only one, if it is known at all. -/
def alone (b : Behaviour) (group : String) : GroupTable :=
  match b.secret with
  | none => .empty
  | some key => GroupTable.empty.add ⟨group, key, [], []⟩

/-- An envelope with the message that the group's own key opens it as, if it does. -/
def opened? (b : Behaviour) (group : String) (e : Envelope) : Option (Envelope × Message) :=
  (Messenger.decrypt .empty (b.alone group) e).toOption.map fun m => (e, m)

/-- **What a cycle does for a group**: the messages that it hands over, or why it does not. -/
def yield (b : Behaviour) (group : String) : Except PollError (List (Envelope × Message)) :=
  match b.lookup with
  | .error e => .error (.network e)
  | .ok [] => .error .insufficientSnodes
  | .ok (_ :: _) =>
    match b.fetch with
    | .error e => .error (.network e)
    | .ok response => .ok ((Retrieval.envelopes group response).filterMap (b.opened? group))

/-- The messages that a cycle hands over for a group; none if it fails. -/
def messages (b : Behaviour) (group : String) : List (Envelope × Message) :=
  match b.yield group with
  | .ok messages => messages
  | .error _ => []

/-- The outcome of a cycle for a group. -/
def outcome (b : Behaviour) (group : String) : Outcome :=
  ⟨group, (b.yield group).map List.length⟩

end Behaviour

theorem secret?_alone (b : Behaviour) (group : String) :
    (b.alone group).secret? group = b.secret := by
  unfold Behaviour.alone
  cases b.secret with
  | none => rfl
  | some key => simp [GroupTable.secret?, GroupTable.find?, GroupTable.add, GroupRecord.fileKey]

/-- Whether a turn goes as a group behaves. -/
def Turn.Obeys [Curve] (t : Turn) (b : Behaviour) (group : String) : Prop :=
  match t.action with
  | .lookedUp _ answer _ => answer = b.lookup
  | .fetched _ answer => answer = b.fetch ∧
      ∃ store : Store, t.view = Context.ofStore store ∧ store.groups.secret? group = b.secret
  | _ => True

/-! ## The course of a chain that is not stopped -/

def Event.message? : Event → Option (Envelope × Message)
  | .delivered _ e m => some (e, m)
  | _ => none

/-- The messages handed over among events, in their order. -/
def handed (es : List Event) : List (Envelope × Message) := es.filterMap Event.message?

theorem handed_append (es es' : List Event) : handed (es ++ es') = handed es ++ handed es' :=
  List.filterMap_append

theorem choose_eq_none_iff {nodes : List Snode} {pick : Nat} :
    State.choose nodes pick = none ↔ nodes = [] := by
  unfold State.choose
  rw [List.getElem?_eq_none_iff]
  constructor
  · intro h
    by_contra some
    have := Nat.mod_lt pick (List.length_pos_iff.2 some)
    omega
  · rintro rfl
    exact Nat.zero_le _

/-- A chain takes at most three turns. -/
theorem Course.length_le {c : Chain} {ts : List Turn} {es : List Event} {last : Option Chain}
    (h : Course c ts es last) :
    ts.length + (match last with | some k => k.stage.left | none => 0) ≤ c.stage.left := by
  induction h with
  | start => simp
  | @turn ts t _ _ k next _ segment ih =>
    simp only [List.length_append, List.length_singleton] at ih ⊢
    cases segment with
    | ask resumes begins =>
      rw [begins] at resumes
      simp only [resumes.2, Stage.left] at ih ⊢
      omega
    | fetch resumes answer =>
      rw [answer] at resumes
      simp only [resumes.2, Stage.left] at ih ⊢
      omega
    | fail | deliver =>
      have : 0 < k.stage.left := by cases k.stage <;> simp [Stage.left]
      simp only
      omega

section
variable [Curve] {b : Behaviour} {c k : Chain} {ts : List Turn} {es : List Event}

/-- While it is on its way it has handed nothing over, and it fetches only where a node was found. -/
theorem Course.pending (h : Course c ts es (some k)) (fresh : c.stage = .queued)
    (obeys : ∀ t ∈ ts, t.Obeys b c.group) :
    handed es = [] ∧ ends es = [] ∧
      ∀ snode, k.stage = .fetch snode → ∃ node nodes, b.lookup = .ok (node :: nodes) := by
  generalize hlast : some k = last at h
  induction h generalizing k with
  | start =>
    obtain rfl := Option.some.inj hlast
    exact ⟨rfl, rfl, by simp [fresh]⟩
  | @turn ts t es es' k' _ course segment ih =>
    obtain ⟨handed₁, ends₁, -⟩ := ih (fun t ht => obeys t (List.mem_append_left _ ht)) rfl
    have last : t.Obeys b c.group := obeys t (by simp)
    rw [handed_append, ends_append, handed₁, ends₁]
    cases segment with
    | ask =>
      obtain rfl := Option.some.inj hlast
      exact ⟨rfl, rfl, nofun⟩
    | @fetch nodes pick snode _ answer chosen =>
      obtain rfl := Option.some.inj hlast
      refine ⟨rfl, rfl, fun _ _ => ?_⟩
      have found : .ok nodes = b.lookup := by simpa [Turn.Obeys, answer] using last
      cases nodes with
      | nil => simp [choose_eq_none_iff.2] at chosen
      | cons node nodes => exact ⟨node, nodes, found.symm⟩
    | fail | deliver => cases hlast

/-- It fails as the group's behaviour says, -/
theorem yield_of_failure {t : Turn} {e : PollError} (resumes : k.Resumes t.action)
    (obeys : t.Obeys b c.group)
    (found : ∀ snode, k.stage = .fetch snode → ∃ node nodes, b.lookup = .ok (node :: nodes))
    (failure : failure? true t.action = some e) : b.yield c.group = .error e := by
  unfold Turn.Obeys at obeys
  cases action : t.action with
  | lookedUp n answer pick =>
    rw [action] at obeys failure
    cases answer with
    | error reason =>
      obtain rfl := Option.some.inj failure
      simp only [Behaviour.yield, ← obeys]
    | ok nodes =>
      cases chosen : State.choose nodes pick with
      | some snode => simp [failure?, chosen] at failure
      | none =>
        obtain rfl := choose_eq_none_iff.1 chosen
        simp only [failure?, chosen, Option.isNone_none, if_true, Option.some.injEq] at failure
        simp only [Behaviour.yield, ← obeys, ← failure]
  | fetched n answer =>
    rw [action] at obeys failure resumes
    obtain ⟨-, snode, stage⟩ := resumes
    obtain ⟨node, nodes, lookup⟩ := found snode stage
    cases answer with
    | error reason =>
      obtain rfl := Option.some.inj failure
      simp only [Behaviour.yield, lookup, ← obeys.1]
    | ok response => simp [failure?] at failure
  | start | stop | call | tick | die | begin | lookup | collect => simp [action, failure?] at failure

/-- and delivers as it says. -/
theorem yield_of_response {t : Turn} {response : Json} {n : Nat}
    (answer : t.action = .fetched n (.ok response)) (obeys : t.Obeys b c.group)
    (lookup : ∃ node nodes, b.lookup = .ok (node :: nodes)) :
    b.yield c.group =
      .ok (State.readable t.view.decrypt (Retrieval.envelopes c.group response)) := by
  simp only [Turn.Obeys, answer] at obeys
  obtain ⟨fetch, store, view, secret⟩ := obeys
  obtain ⟨node, nodes, lookup⟩ := lookup
  have same : b.secret = store.groups.secret? c.group := secret.symm
  simp only [Behaviour.yield, lookup, ← fetch, view, readable_eq_filterMap]
  refine congrArg _ (List.filterMap_congr fun e listed => ?_)
  obtain ⟨content, timestamp, rfl⟩ := Retrieval.of_mem_envelopes listed
  rw [Behaviour.opened?, Messenger.decrypt_closedGroup ((secret?_alone b c.group).trans same)]
  rfl

/-- Once it has ended it has done what the group's behaviour gives. -/
theorem Course.yields (h : Course c ts es none) (fresh : c.stage = .queued)
    (active : ∀ t ∈ ts, t.polling = true) (obeys : ∀ t ∈ ts, t.Obeys b c.group) :
    handed es = b.messages c.group ∧ ends es = [(c.number, c.cycle, b.outcome c.group)] := by
  cases h with
  | @turn ts t es es' k _ course segment =>
    obtain ⟨handed₁, ends₁, found⟩ :=
      course.pending fresh fun t ht => obeys t (List.mem_append_left _ ht)
    obtain ⟨number, cycle, group⟩ := course.same k rfl
    have last : t.Obeys b c.group := obeys t (by simp)
    have set : t.polling = true := active t (by simp)
    rw [handed_append, ends_append, handed₁, ends₁, List.nil_append, List.nil_append]
    cases segment with
    | @fail e resumes failure =>
      rw [set] at failure
      have yields := yield_of_failure resumes last found failure
      rw [Behaviour.messages, Behaviour.outcome, yields, number, cycle, group]
      exact ⟨rfl, rfl⟩
    | @deliver response messages resumes answer _ reads =>
      have fetches : ∃ snode, k.stage = .fetch snode := by
        rw [answer] at resumes
        exact resumes.2
      obtain ⟨snode, stage⟩ := fetches
      have yields := yield_of_response answer last (found snode stage)
      rw [← group, ← reads] at yields
      rw [Behaviour.messages, Behaviour.outcome, ← group, yields, number, cycle, group]
      refine ⟨?_, ?_⟩
      · simp [handed, Event.message?, List.filterMap_map, Function.comp_def]
      · simp [ends, Event.endOf?, List.filterMap_map, Function.comp_def, Except.map]

end

/-! ## The beginning of a cycle -/

/-- A cycle as it begins, with a chain for each of its groups. -/
structure Opened (groups : List String) (k : Nat) (s : State) : Prop where
  num : Numbered s
  spent : Spent k s
  groups_eq : ((s.chains.filter fun c => c.cycle = k).map Chain.group) = groups
  queued : ∀ c ∈ s.chains, c.cycle = k → c.stage = .queued

theorem map_group_chainsFor (cycle first : Nat) (groups : List String) :
    (State.chainsFor cycle first groups).map Chain.group = groups := by
  induction groups generalizing first with
  | nil => rfl
  | cons g rest ih => simp [State.chainsFor, ih]

theorem opened_fanOut {s : State} (h : Numbered s) {k : Nat} (call : Option Nat)
    (groups : List String) (fresh : k ∉ s.ordered ++ s.cycles.map Cycle.number) (lt : k < s.next) :
    Opened groups k (s.fanOut k call groups).1 := by
  have strangers : ∀ c ∈ s.chains, c.cycle ≠ k :=
    fun c hc same => fresh (List.mem_append_right _ (same ▸ h.chains_cycle c hc))
  have num := h.fanOut call groups fresh lt
  refine ⟨num, num.spent (by simp [State.fanOut]), ?_, ?_⟩
  · have none : (s.chains.filter fun c => c.cycle = k) = [] :=
      List.filter_eq_nil_iff.2 fun c hc => by simpa using strangers c hc
    have all : ((State.chainsFor k s.next groups).filter fun c => c.cycle = k) =
        State.chainsFor k s.next groups :=
      List.filter_eq_self.2 fun c hc => by simpa using (of_mem_chainsFor hc).1
    rw [State.fanOut, List.filter_append, none, all, List.nil_append, map_group_chainsFor]
  · intro c hc mine
    rcases List.mem_append.1 hc with hc | hc
    · exact absurd mine (strangers c hc)
    · exact (of_mem_chainsFor hc).2

theorem Effect.opened {view : Context} {a : Action} {s s' : State} {es : List Event}
    (e : Effect view a s es s') (h : Numbered s) {k : Nat} {chains : List Nat}
    (fans : .fannedOut k chains ∈ es) : Opened view.groups k s' := by
  cases e with
  | call =>
    obtain ⟨rfl, -⟩ := Event.fannedOut.inj (List.mem_singleton.1 fans)
    have claimed : Numbered s.claim := h.mono rfl rfl rfl (Nat.le_succ _)
    exact opened_fanOut claimed _ _ (fun hm => Nat.lt_irrefl _ (h.cycles_lt _ hm))
      (Nat.lt_succ_self _)
  | begin waits =>
    obtain ⟨rfl, -⟩ := Event.fannedOut.inj (List.mem_singleton.1 fans)
    exact opened_fanOut (h.unorder _) _ _ (h.not_mem_unorder waits)
      (h.cycles_lt _ (List.mem_append_left _ waits))
  | collect => exact absurd fans not_fannedOut_collect
  | install | keep | stop | refuse | order | expire | die | skip | ask | fetch | fail | deliver =>
    simp [State.finish] at fans

theorem Effects.opened {view : Context} {a : Action} {s s' : State} {es : List Event}
    (e : Effects view a s es s') (h : Numbered s) {k : Nat} {chains : List Nat}
    (fans : .fannedOut k chains ∈ es) : Opened view.groups k s' := by
  cases e with
  | one e => exact e.opened h fans
  | two e₁ e₂ =>
    have num₁ := e₁.numbered h
    rcases List.mem_append.1 fans with fans | fans
    · obtain ⟨-, spent, groups, queued⟩ := e₁.opened h fans
      refine ⟨e₂.numbered num₁, (e₂.spent spent).1, ?_, ?_⟩
      · rw [e₂.chains_eq, groups]
      · rw [e₂.chains_eq]
        exact queued
    · exact e₂.opened num₁ fans

/-- Who calls for a cycle has found the flag clear. -/
theorem Effects.claimed {view : Context} {id : Nat} {s s' : State} {es : List Event}
    (e : Effects view (.call id) s es s') {k : Nat} {chains : List Nat}
    (fans : .fannedOut k chains ∈ es) : s.polling = false ∧ k = s.next := by
  have first : ∀ {s₁ es₁}, Effect view (.call id) s es₁ s₁ → .fannedOut k chains ∈ es₁ →
      s.polling = false ∧ k = s.next := by
    intro s₁ es₁ e fans
    cases e with
    | refuse => simp at fans
    | call idle =>
      obtain ⟨rfl, -⟩ := Event.fannedOut.inj (List.mem_singleton.1 fans)
      exact ⟨idle, rfl⟩
    | fail _ resumes => exact resumes.elim
  cases e with
  | one e => exact first e fans
  | two e₁ e₂ =>
    rcases List.mem_append.1 fans with fans | fans
    · exact first e₁ fans
    · cases e₂ with
      | collect => exact absurd fans not_fannedOut_collect
      | fail _ resumes => exact resumes.elim

/-! ## A whole cycle -/

/-- A poller on which a cycle `k` begins with the move `m`, and what follows, while its groups
behave as `B` says and its chains find the flag set. -/
structure Round [Curve] (B : String → Behaviour) (s : State) (m : Move) (k : Nat) (opened : State)
    (moves : List Move) (s' : State) : Prop where
  reached : ∃ before, Run .idle before s
  opens : s.step m.view m.action = some (opened, m.events)
  fans : ∃ chains, .fannedOut k chains ∈ m.events
  run : Run opened moves s'
  turn : ∀ c ∈ opened.chains, c.cycle = k → ∀ t ∈ own c.number (turns opened moves),
    t.polling = true ∧ t.Obeys (B c.group) c.group

namespace Round
variable [Curve] {B : String → Behaviour} {s opened s' : State} {m : Move} {k : Nat}
  {moves : List Move}

theorem effects (h : Round B s m k opened moves s') : Numbered s ∧
    Effects m.view m.action s m.events opened := by
  obtain ⟨before, reached⟩ := h.reached
  have num := reached.numbered numbered_idle
  exact ⟨num, step_effects num h.opens⟩

theorem opened_groups (h : Round B s m k opened moves s') : Opened m.view.groups k opened := by
  obtain ⟨num, effects⟩ := h.effects
  obtain ⟨chains, fans⟩ := h.fans
  exact effects.opened num fans

/-- What a chain of the cycle has done so far, and what it has done once it has ended. -/
theorem chain (h : Round B s m k opened moves s') {c : Chain} (flies : c ∈ opened.chains)
    (mine : c.cycle = k) :
    (∀ k', s'.chain? c.number = some k' → handed (seen c.number (trace moves)) = [] ∧
      ends (seen c.number (trace moves)) = []) ∧
    (s'.chain? c.number = none →
      handed (seen c.number (trace moves)) = (B c.group).messages c.group ∧
      ends (seen c.number (trace moves)) = [(c.number, k, (B c.group).outcome c.group)]) := by
  have queued := h.opened_groups.queued c flies mine
  have course := h.run.course h.opened_groups.num flies
  have turn := h.turn c flies mine
  refine ⟨fun k' found => ?_, fun landed => ?_⟩
  · rw [found] at course
    obtain ⟨handed, ends, -⟩ := course.pending queued fun t ht => (turn t ht).2
    exact ⟨handed, ends⟩
  · rw [landed] at course
    have yields := course.yields queued (fun t ht => (turn t ht).1) fun t ht => (turn t ht).2
    rwa [mine] at yields

/-- Every outcome is what its group's behaviour gives. -/
theorem outcome (h : Round B s m k opened moves s') {o : Outcome}
    (ended : o ∈ outcomesOf k (trace moves)) : o = (B o.group).outcome o.group := by
  obtain ⟨n, finished⟩ := mem_outcomesOf.1 ended
  have ledger := h.run.ledger h.opened_groups.num h.opened_groups.spent
  have listed : (n, k, o.group) ∈ Poller.ended (trace moves) :=
    List.mem_map.2 ⟨(n, k, o), mem_ends.2 finished, rfl⟩
  have known : (n, k, o.group) ∈ opened.tags := by
    refine List.mem_of_mem_filter (ledger.account.subset (List.mem_filter.2 ⟨?_, by simp⟩))
    exact List.mem_append_left _ listed
  obtain ⟨c, flies, tag⟩ := List.mem_map.1 known
  obtain ⟨rfl, mine, group⟩ : c.number = n ∧ c.cycle = k ∧ c.group = o.group := by
    simpa [Chain.tag] using tag
  have own : (c.number, k, o) ∈ ends (seen c.number (trace moves)) :=
    mem_ends.2 (finished_mem_seen.2 finished)
  obtain ⟨pending, yields⟩ := h.chain flies mine
  cases last : s'.chain? c.number with
  | some k' => simp [(pending k' last).2] at own
  | none =>
    rw [(yields last).2, List.mem_singleton, group] at own
    exact (Prod.mk.inj (Prod.mk.inj own).2).2

theorem outcomes_perm (h : Round B s m k opened moves s') (complete : s'.isComplete k = true) :
    (outcomesOf k (trace moves)).Perm (m.view.groups.map fun g => (B g).outcome g) := by
  have ledger := h.run.ledger h.opened_groups.num h.opened_groups.spent
  have groups := ledger.outcomes_perm (by simp) complete
  rw [h.opened_groups.groups_eq] at groups
  have each : ((outcomesOf k (trace moves)).map Outcome.group).map (fun g => (B g).outcome g) =
      outcomesOf k (trace moves) := by
    rw [List.map_map]
    refine (List.map_congr_left fun o ho => ?_).trans (List.map_id _)
    exact (h.outcome ho).symm
  exact each ▸ groups.map fun g => (B g).outcome g

/-- What a single call returns is what its chains have ended with. -/
theorem returns (h : Round B s m k opened moves s') {id : Nat} {outcomes : List Outcome}
    (call : m.action = .call id) (returns : Returns s m.view id moves s' outcomes) :
    s'.isComplete k = true ∧ outcomes = outcomesOf k (trace moves) := by
  obtain ⟨num, effects⟩ := h.effects
  obtain ⟨chains, fans⟩ := h.fans
  rw [call] at effects
  obtain ⟨idle, rfl⟩ := effects.claimed fans
  rcases returns.collected num idle with ⟨groups, rfl, rfl⟩ | ⟨-, -, -, complete, outcomes⟩
  · have run := h.run
    have empty := h.opened_groups.groups_eq
    rw [groups, List.map_eq_nil_iff, List.filter_eq_nil_iff] at empty
    have same : opened = s' := by simpa using run.foldl_after
    refine ⟨List.all_eq_true.2 fun c hc => ?_, rfl⟩
    simpa using empty c (same ▸ hc)
  · exact ⟨complete, outcomes⟩

/-- As long as the flag is set, the cycle can be brought to its end. -/
theorem exists_complete (h : Round B s m k opened moves s') (active : s'.polling = true) :
    ∃ more s'', Round B s m k opened (moves ++ more) s'' ∧ s''.isComplete k = true := by
  let store : String → Store := fun g => ⟨.empty, (B g).alone g, .empty⟩
  let reply : String → Reply := fun g => ⟨Context.ofStore (store g), (B g).lookup, 0, (B g).fetch⟩
  have num := h.opened_groups.num
  have num' := h.run.numbered num
  obtain ⟨more, s'', done⟩ := exists_completion num' k reply
  refine ⟨more, s'', ⟨h.reached, h.opens, h.fans, h.run.append done.run, ?_⟩, done.complete⟩
  intro c flies mine t ht
  rw [h.run.turns_append, own_append] at ht
  rcases List.mem_append.1 ht with ht | ht
  · exact h.turn c flies mine t ht
  · obtain ⟨ht, own⟩ := mem_own.1 ht
    obtain ⟨polling, b, -, known, view, action⟩ := done.replied t ht
    refine ⟨polling.trans active, ?_⟩
    -- the chain that this turn takes on is `c`, as far as it has come
    rw [action, ((reply b.group).resumes b).chain?] at own
    obtain ⟨b', flies', tag⟩ := List.mem_map.1 known
    have number : b'.number = c.number := (Prod.mk.inj tag).1.trans (Option.some.inj own)
    have found := (chain?_eq_some_iff num').2 ⟨flies', number⟩
    obtain ⟨-, -, group'⟩ := (h.run.course num flies).same b' found
    have group : b.group = c.group := (Prod.mk.inj (Prod.mk.inj tag).2).2.symm.trans group'
    rw [group] at view action
    unfold Turn.Obeys
    rw [action]
    unfold Reply.action
    cases b.stage with
    | queued => trivial
    | lookup => rfl
    | fetch => exact ⟨rfl, store c.group, view, secret?_alone (B c.group) c.group⟩

end Round

/-- **Groups fail independently.** Take a cycle, begun by a timer or by a single call, whose chains
find the flag set, and let anything else run between their turns. It has a chain for each of its
groups. A chain takes at most three turns, and its next one is always possible. Until it ends it
hands nothing over; by its end it has handed over the messages that its group's behaviour gives, in
their order, and its outcome is the one that the behaviour gives. When all have ended, the outcomes
are those of the groups, each once, in the order in which the chains ended; and that is what a
single call returns. While the flag is set it can come to that. Two cycles in which a group behaves
alike do the same for it, whatever the other groups do. -/
theorem groups_fail_independently [Curve] {B : String → Behaviour} {s opened s' : State} {m : Move}
    {k : Nat} {moves : List Move} (round : Round B s m k opened moves s') :
    ((opened.chains.filter fun c => c.cycle = k).map Chain.group) = m.view.groups ∧
    (∀ c ∈ opened.chains, c.cycle = k →
      (own c.number (turns opened moves)).length ≤ 3 ∧
      (∀ c', s'.chain? c.number = some c' → handed (seen c.number (trace moves)) = [] ∧
        ∀ view a, c'.Resumes a → (s'.step view a).isSome = true) ∧
      (s'.chain? c.number = none →
        handed (seen c.number (trace moves)) = (B c.group).messages c.group ∧
        ends (seen c.number (trace moves)) = [(c.number, k, (B c.group).outcome c.group)])) ∧
    (s'.isComplete k = true →
      (outcomesOf k (trace moves)).Perm (m.view.groups.map fun g => (B g).outcome g)) ∧
    (∀ id outcomes, m.action = .call id → Returns s m.view id moves s' outcomes →
      s'.isComplete k = true ∧ outcomes = outcomesOf k (trace moves)) ∧
    (s'.polling = true → ∃ more s'', Round B s m k opened (moves ++ more) s'' ∧
      s''.isComplete k = true) ∧
    ∀ B' s₂ m₂ k₂ opened₂ moves₂ s₂', Round B' s₂ m₂ k₂ opened₂ moves₂ s₂' →
      ∀ c ∈ opened.chains, c.cycle = k → s'.chain? c.number = none →
      ∀ c₂ ∈ opened₂.chains, c₂.cycle = k₂ → s₂'.chain? c₂.number = none →
      c₂.group = c.group → B' c.group = B c.group →
        handed (seen c₂.number (trace moves₂)) = handed (seen c.number (trace moves)) ∧
        (ends (seen c₂.number (trace moves₂))).map (fun e => e.2.2) =
          (ends (seen c.number (trace moves))).map fun e => e.2.2 := by
  have opening := round.opened_groups
  refine ⟨opening.groups_eq, fun c flies mine => ⟨?_, fun c' found => ⟨?_, ?_⟩, ?_⟩,
    round.outcomes_perm, fun id outcomes call returns => round.returns call returns,
    round.exists_complete, ?_⟩
  · have length := (round.run.course opening.num flies).length_le
    rw [opening.queued c flies mine] at length
    exact Nat.le_trans (Nat.le_add_right _ _) length
  · exact ((round.chain flies mine).1 c' found).1
  · have num := round.run.numbered opening.num
    exact fun view a resumes => step_of_resumes num (chain?_eq_some found).1 view resumes
  · exact (round.chain flies mine).2
  · intro B' s₂ m₂ k₂ opened₂ moves₂ s₂' round₂ c flies mine landed c₂ flies₂ mine₂ landed₂ group same
    obtain ⟨handed, ends⟩ := (round.chain flies mine).2 landed
    obtain ⟨handed₂, ends₂⟩ := (round₂.chain flies₂ mine₂).2 landed₂
    rw [group, same] at handed₂ ends₂
    refine ⟨handed₂.trans handed.symm, ?_⟩
    rw [ends, ends₂]
    rfl

/-! ## Two groups, one of which gets its messages -/

/-- What a fetch brings while the flag is set is handed over. -/
theorem step_fetched {view : Context} {s : State} {c : Chain} {snode : Snode} {response : Json}
    {messages : List (Envelope × Message)} (found : s.chain? c.number = some c)
    (stage : c.stage = .fetch snode) (active : s.polling = true)
    (reads : State.readable view.decrypt (Retrieval.envelopes c.group response) = messages) :
    s.step view (.fetched c.number (.ok response)) = some ((s.finish c (.ok messages.length)).1,
      messages.map (fun m => .delivered c.number m.1 m.2) ++
        [.finished c.number c.cycle ⟨c.group, .ok messages.length⟩]) := by
  simp only [State.step, found, stage, State.fetched, active, if_true, reads]
  rfl

/-- What a response of one entry brings, if it opens. -/
theorem readable_response {decrypt : Envelope → Except MessageError Message} {group : String}
    {content : Bytes} {message : Message}
    (opens : decrypt (.closedGroup group content 0) = .ok message) :
    State.readable decrypt (Retrieval.envelopes group
      (Retrieval.response [⟨Text.Base64.encode content, 0⟩])) =
        [(.closedGroup group content 0, message)] := by
  have listed := Retrieval.envelopes_response group [(content, 0)]
    (List.forall_mem_singleton.2 (by simp))
  rw [List.map_singleton, List.map_singleton] at listed
  rw [listed, readable_eq_filterMap, List.filterMap_cons, opens]
  rfl

/-- Nobody answers the lookup of a group, except for this one, which has messages. -/
def answersFor [Curve] (store : Store) (group : String) (response : Json) : String → Behaviour :=
  fun g => if g = group then
    ⟨.ok [⟨"127.0.0.1", 22021⟩], .ok response, store.groups.secret? group⟩
  else ⟨.error .timeout, .ok .null, none⟩

section
variable (view : Context) (group : String) (response : Json) (envelope : Envelope)
  (message : Message)

/-- A single call for two groups: the second has its message handed over before the lookup of the
first has failed. -/
def sparing : List Move :=
  [⟨view, .lookup 1, [.lookup 1 "a"]⟩, ⟨view, .lookup 2, [.lookup 2 group]⟩,
    ⟨view, .lookedUp 2 (.ok [⟨"127.0.0.1", 22021⟩]) 0,
      [.fetch 2 group ⟨"127.0.0.1", 22021⟩ [⟨"127.0.0.1", 22021⟩]]⟩,
    ⟨view, .fetched 2 (.ok response),
      [.delivered 2 envelope message, .finished 2 0 ⟨group, .ok 1⟩]⟩,
    ⟨view, .lookedUp 1 (.error .timeout) 0, [.finished 1 0 ⟨"a", .error (.network .timeout)⟩]⟩]

def sparingOpened : State := ⟨true, none, [], [], [⟨0, some 7, []⟩],
  [⟨1, 0, "a", .queued⟩, ⟨2, 0, group, .queued⟩], 3⟩

def sparingEnded : State := ⟨true, none, [], [],
  [⟨0, some 7, [⟨group, .ok 1⟩, ⟨"a", .error (.network .timeout)⟩]⟩], [], 3⟩

end

theorem round_sparing [Curve] {store : Store} {group : String} {response : Json}
    {envelope : Envelope} {message : Message} (other : group ≠ "a")
    (reads : State.readable (Context.ofStore store).decrypt (Retrieval.envelopes group response) =
      [(envelope, message)]) :
    Round (answersFor store group response) .idle
      ⟨⟨["a", group], (Context.ofStore store).decrypt⟩, .call 7, [.fannedOut 0 [1, 2]]⟩ 0
      (sparingOpened group) (sparing (Context.ofStore store) group response envelope message)
      (sparingEnded group) := by
  let view : Context := Context.ofStore store
  let node : Snode := ⟨"127.0.0.1", 22021⟩
  let fetching : State := ⟨true, none, [], [], [⟨0, some 7, []⟩],
    [⟨1, 0, "a", .lookup⟩, ⟨2, 0, group, .fetch node⟩], 3⟩
  let handed : State := ⟨true, none, [], [], [⟨0, some 7, [⟨group, .ok 1⟩]⟩],
    [⟨1, 0, "a", .lookup⟩], 3⟩
  have asked : Run (sparingOpened group) _ fetching :=
    play_run [(view, .lookup 1), (view, .lookup 2), (view, .lookedUp 2 (.ok [node]) 0)] rfl
  have hands : fetching.step view (.fetched 2 (.ok response)) = some (handed,
      [.delivered 2 envelope message, .finished 2 0 ⟨group, .ok 1⟩]) :=
    step_fetched (s := fetching) (c := ⟨2, 0, group, .fetch node⟩) rfl rfl rfl reads
  have brought := asked.snoc ⟨view, .fetched 2 (.ok response), _⟩ hands
  have failed : Run handed _ (sparingEnded group) :=
    play_run [(view, .lookedUp 1 (.error .timeout) 0)] rfl
  refine ⟨⟨[], .nil⟩, rfl, ⟨_, List.mem_singleton_self _⟩, brought.append failed, ?_⟩
  intro c flies _ t ht
  have turned : turns (sparingOpened group)
      (sparing view group response envelope message) =
      [⟨true, view, .lookup 1⟩, ⟨true, view, .lookup 2⟩, ⟨true, view, .lookedUp 2 (.ok [node]) 0⟩,
        ⟨true, view, .fetched 2 (.ok response)⟩, ⟨true, view, .lookedUp 1 (.error .timeout) 0⟩] :=
    (brought.turns_append _).trans (congrArg (· ++ _) (asked.turns_append _))
  rw [turned] at ht
  rcases List.mem_pair.1 flies with rfl | rfl
  · have : t = ⟨true, view, .lookup 1⟩ ∨ t = ⟨true, view, .lookedUp 1 (.error .timeout) 0⟩ := by
      simpa [own, Action.chain?] using ht
    rcases this with rfl | rfl
    · exact ⟨rfl, trivial⟩
    · simp [Turn.Obeys, answersFor, other.symm]
  · have : t = ⟨true, view, .lookup 2⟩ ∨ t = ⟨true, view, .lookedUp 2 (.ok [node]) 0⟩ ∨
        t = ⟨true, view, .fetched 2 (.ok response)⟩ := by
      simpa [own, Action.chain?] using ht
    rcases this with rfl | rfl | rfl
    · exact ⟨rfl, trivial⟩
    · simp [Turn.Obeys, answersFor, node]
    · refine ⟨rfl, by simp [answersFor], store, rfl, by simp [answersFor]⟩

/-- The readers have their message handed over, though nobody answers the lookup of the other group,
and a single call has both outcomes to return. -/
theorem failed_lookup_spares_others :
    ∃ response content message m opened moves s',
      let B := answersFor Messenger.readersStore Messenger.readers.sessionId response
      Round B .idle m 0 opened moves s' ∧
      m.view.groups = ["a", Messenger.readers.sessionId] ∧
      outcomesOf 0 (trace moves) =
        [⟨Messenger.readers.sessionId, .ok 1⟩, ⟨"a", .error (.network .timeout)⟩] ∧
      (outcomesOf 0 (trace moves)).Perm
        [(B "a").outcome "a", (B Messenger.readers.sessionId).outcome Messenger.readers.sessionId] ∧
      handed (seen 2 (trace moves)) =
        [(.closedGroup Messenger.readers.sessionId content 0, message)] ∧
      (B Messenger.readers.sessionId).messages Messenger.readers.sessionId =
        handed (seen 2 (trace moves)) ∧
      message.plaintext ≠ [] := by
  obtain ⟨content, message, secret, authentic⟩ := Messenger.exists_authentic
  have other : Messenger.readers.sessionId ≠ "a" := by
    intro same
    have digits := congrArg String.toList same
    rw [KeyPair.sessionId, KeyText.toList_sessionId] at digits
    cases digits
  have opens : (Context.ofStore Messenger.readersStore).decrypt
      (.closedGroup Messenger.readers.sessionId content 0) = .ok message :=
    decrypt_ofStore_eq_ok_iff.2 ⟨secret, authentic⟩
  have round := round_sparing other (readable_response opens)
  obtain ⟨-, chains, outcomes, -⟩ := groups_fail_independently round
  have second := chains ⟨2, 0, _, .queued⟩ (List.mem_cons_of_mem _ List.mem_cons_self) rfl
  exact ⟨_, content, message, _, _, _, _, round, rfl, rfl, outcomes rfl, rfl,
    (second.2.2 rfl).1.symm, authentic.nonempty⟩

end SealedPost.Poller

import Mathlib.Data.List.Flatten
import SealedPost.Proofs.Poller.Authenticity
import SealedPost.Proofs.Swarm.Mailboxes

/-!
# Nothing is lost in a swarm that is drained

A poller against mailboxes kept in memory. A fetch takes the messages out, several chains of one
group may be on their way at once, and a chain that finds the flag clear drops what it has fetched.
`Draining` is every run of the two together. Its notes say what was pushed, which moves were made
and what the fetches brought; `draining_conserves` relates them, for every key and at every instant.
-/

namespace SealedPost

/-! ## What a content opens as -/

namespace Messenger
variable [Curve]

/-- What a content opens as for a group, if it does. -/
def opened? (groups : GroupTable) (key : String) (content : Bytes) : Option Message :=
  (decrypt .empty groups (.closedGroup key content 0)).toOption

theorem opened?_eq_some_iff {groups : GroupTable} {key : String} {content : Bytes}
    {message : Message} : opened? groups key content = some message ↔
      ∃ secret, Authentic groups key content message secret := by
  have opens : decrypt .empty groups (.closedGroup key content 0) = .ok message ↔ _ :=
    decrypt_closedGroup_eq_ok_iff
  rw [← opens, opened?, toOption_eq_some_iff]

end Messenger

namespace Poller

/-! ## Runs against mailboxes -/

/-- A fetch that was completed: what it saw of the stores, for which group it was, what it brought
and the flag that it found. -/
structure Fetch where
  view : Context
  group : String
  response : Json
  polling : Bool

namespace Fetch

/-- The messages that it brought. -/
def contents (f : Fetch) : List Bytes :=
  (Retrieval.envelopes f.group f.response).filterMap Envelope.content

/-- Those of them that open, each in its envelope. -/
def readable (f : Fetch) : List (Envelope × Message) :=
  State.readable f.view.decrypt (Retrieval.envelopes f.group f.response)

end Fetch

/-- What can be told of a run. -/
inductive Note
  | pushed (key : String) (data : Bytes)
  | moved (m : Move)
  /-- A move that took on what a fetch brought. -/
  | fetched (m : Move) (fetch : Fetch)

/-- Whether mailboxes give the answer that an action comes with. Fetches are not among them. -/
def Action.AnsweredBy (boxes : Mailboxes) (s : State) : Action → Prop
  | .lookedUp n answer _ => ∃ c, s.chain? n = some c ∧ answer = boxes.lookup c.group
  | .fetched _ _ => False
  | _ => True

/-- The mailboxes count the lookups that begin. -/
def countLookup (boxes : Mailboxes) : Action → Mailboxes
  | .lookup _ => boxes.countLookup
  | _ => boxes

/-- **A poller and the mailboxes that it drains.** Messages are pushed and nodes given or taken at
any time; the moves of the poller come in any order, under whatever they see of the stores. A fetch
takes its messages out and goes on with them in one segment. -/
inductive Draining : List Note → State → Mailboxes → Prop
  | start : Draining [] .idle .empty
  | push {notes : List Note} {s : State} {boxes : Mailboxes} (key : String) (data : Bytes) :
      Draining notes s boxes →
      Draining (notes ++ [.pushed key data]) s (boxes.push key data)
  | setNodes {notes : List Note} {s : State} {boxes : Mailboxes} (key : String)
      (nodes : List Snode) :
      Draining notes s boxes → Draining notes s (boxes.setNodes key nodes)
  | fail {notes : List Note} {s : State} {boxes : Mailboxes} (key : String) :
      Draining notes s boxes → Draining notes s (boxes.fail key)
  | move {notes : List Note} {s s' : State} {boxes : Mailboxes} (m : Move) :
      Draining notes s boxes → s.step m.view m.action = some (s', m.events) →
      m.action.AnsweredBy boxes s →
      Draining (notes ++ [.moved m]) s' (countLookup boxes m.action)
  | fetch {notes : List Note} {s s' : State} {boxes : Mailboxes} {c : Chain} (view : Context)
      (events : List Event) :
      Draining notes s boxes → s.chain? c.number = some c →
      s.step view (.fetched c.number (.ok (boxes.fetch c.group).1)) = some (s', events) →
      Draining
        (notes ++ [.fetched ⟨view, .fetched c.number (.ok (boxes.fetch c.group).1), events⟩
          ⟨view, c.group, (boxes.fetch c.group).1, s.polling⟩])
        s' (boxes.fetch c.group).2

def Note.move? : Note → Option Move
  | .pushed _ _ => none
  | .moved m | .fetched m _ => some m

/-- The moves of the poller. -/
def movesOf (notes : List Note) : List Move := notes.filterMap Note.move?

def Note.pushed? (key : String) : Note → Option Bytes
  | .pushed k data => if KeyText.strip k = KeyText.strip key then some data else none
  | _ => none

/-- What was pushed under a key, in whichever spelling. -/
def pushedTo (key : String) (notes : List Note) : List Bytes := notes.filterMap (Note.pushed? key)

def Note.fetch? (key : String) : Note → Option Fetch
  | .fetched _ f => if KeyText.strip f.group = KeyText.strip key then some f else none
  | _ => none

/-- The fetches for a key that were completed. -/
def fetchesFor (key : String) (notes : List Note) : List Fetch := notes.filterMap (Note.fetch? key)

/-- Whether an envelope is one of the group with this key. -/
def isFor (key : String) (d : Envelope × Message) : Bool :=
  d.1.source.map KeyText.strip = some (KeyText.strip key)

/-- What was handed over for a key. -/
def handedFor (key : String) (notes : List Note) : List (Envelope × Message) :=
  (handed (trace (movesOf notes))).filter (isFor key)

/-! ## What a move hands over -/

theorem handed_eq_nil_iff {es : List Event} : handed es = [] ↔ ∀ n e m, .delivered n e m ∉ es := by
  rw [handed, List.filterMap_eq_nil_iff]
  constructor
  · intro h n e m he
    cases h _ he
  · intro h e he
    cases e with
    | delivered n envelope message => exact absurd he (h n envelope message)
    | started | ordered | fannedOut | lookup | fetch | finished | returned => rfl

theorem handed_of_answeredBy {view : Context} {a : Action} {s s' : State} {es : List Event}
    {boxes : Mailboxes} (num : Numbered s) (step : s.step view a = some (s', es))
    (answered : a.AnsweredBy boxes s) : handed es = [] := by
  refine handed_eq_nil_iff.2 fun n e m hands => ?_
  obtain ⟨-, c, -, -, response, rfl, -⟩ := (step_effects num step).of_delivered hands
  exact answered

theorem handed_of_fetched {view : Context} {s s' : State} {es : List Event} {c : Chain}
    {response : Json} (found : s.chain? c.number = some c)
    (step : s.step view (.fetched c.number (.ok response)) = some (s', es)) :
    handed es = if s.polling then
      State.readable view.decrypt (Retrieval.envelopes c.group response) else [] := by
  simp only [State.step, found] at step
  split at step
  · simp only [State.fetched, Option.some.injEq] at step
    split at step
    · rename_i active
      obtain ⟨-, rfl⟩ := Prod.mk.inj step
      rw [if_pos active, handed_append]
      simp [handed, State.finish, Event.message?, List.filterMap_map, Function.comp_def]
    · rename_i idle
      obtain ⟨-, rfl⟩ := Prod.mk.inj step
      rw [if_neg idle]
      rfl
  · cases step

/-- What a fetch brings is for the key that it was made for. -/
theorem filter_readable (f : Fetch) (key : String) :
    f.readable.filter (isFor key) =
      if KeyText.strip f.group = KeyText.strip key then f.readable else [] := by
  have source : ∀ d ∈ f.readable, isFor key d =
      decide (KeyText.strip f.group = KeyText.strip key) := by
    intro d hd
    obtain ⟨e, he, opens⟩ := List.mem_filterMap.1 hd
    obtain ⟨content, timestamp, rfl⟩ := Retrieval.of_mem_envelopes he
    split at opens
    · obtain rfl := Option.some.inj opens
      simp [isFor, Envelope.closedGroup]
    · cases opens
  split
  · rename_i same
    exact List.filter_eq_self.2 fun d hd => by simp [source d hd, same]
  · rename_i other
    exact List.filter_eq_nil_iff.2 fun d hd => by simp [source d hd, other]

/-! ## What holds of every run -/

theorem filterMap_snoc {α β : Type} (f : α → Option β) (l : List α) (a : α) :
    (l ++ [a]).filterMap f = l.filterMap f ++ (f a).toList := by
  rw [List.filterMap_append]
  cases h : f a <;> simp [h]

theorem handedFor_snoc (key : String) (notes : List Note) (n : Note) :
    handedFor key (notes ++ [n]) = handedFor key notes ++
      (handed (n.move?.toList.flatMap Move.events)).filter (isFor key) := by
  simp only [handedFor, movesOf, filterMap_snoc, trace, List.flatMap_append, handed_append,
    List.filter_append]

section
variable {notes : List Note} {s : State} {boxes : Mailboxes}

/-- The moves are a run of the poller. -/
theorem Draining.run (h : Draining notes s boxes) : Run .idle (movesOf notes) s := by
  induction h with
  | start => exact .nil
  | push _ _ _ ih =>
    rw [movesOf, filterMap_snoc]
    exact (List.append_nil _).symm ▸ ih
  | setNodes _ _ _ ih | fail _ _ ih => exact ih
  | move m _ step _ ih | fetch _ _ _ _ step ih =>
    rw [movesOf, filterMap_snoc]
    exact ih.snoc _ step

/-- **What was pushed has been fetched or still waits**, in the order in which it was pushed. -/
theorem Draining.pushed_eq (h : Draining notes s boxes) (key : String) :
    pushedTo key notes = (fetchesFor key notes).flatMap Fetch.contents ++ boxes.waiting key := by
  unfold pushedTo fetchesFor
  induction h with
  | start => rfl
  | push other data _ ih =>
    rw [filterMap_snoc, filterMap_snoc, ih, Mailboxes.waiting_push]
    by_cases same : KeyText.strip other = KeyText.strip key
    · simp [Note.pushed?, Note.fetch?, same]
    · simp [Note.pushed?, Note.fetch?, same, Ne.symm same]
  | setNodes _ _ _ ih | fail _ _ ih => exact ih
  | @move notes s s' boxes m _ _ _ ih =>
    have kept : (countLookup boxes m.action).waiting key = boxes.waiting key := by
      unfold countLookup
      split <;> simp
    rw [filterMap_snoc, filterMap_snoc, ih, kept]
    simp [Note.pushed?, Note.fetch?]
  | @fetch notes s s' boxes c view events _ _ _ ih =>
    have brought : Fetch.contents ⟨view, c.group, (boxes.fetch c.group).1, s.polling⟩ =
        boxes.waiting c.group := Mailboxes.content_envelopes_batch _ _
    rw [filterMap_snoc, filterMap_snoc, ih, Mailboxes.waiting_fetch, List.flatMap_append]
    by_cases same : KeyText.strip c.group = KeyText.strip key
    · have box : boxes.waiting c.group = boxes.waiting key := by
        simp only [Mailboxes.waiting, same]
      simp [Note.pushed?, Note.fetch?, same, brought, box]
    · simp [Note.pushed?, Note.fetch?, same, Ne.symm same]

/-- What is handed over are the readable messages of the fetches that found the flag set. -/
theorem Draining.handed_eq (h : Draining notes s boxes) (key : String) :
    handedFor key notes =
      ((fetchesFor key notes).filter Fetch.polling).flatMap Fetch.readable := by
  unfold fetchesFor
  induction h with
  | start => rfl
  | push other data _ ih =>
    rw [handedFor_snoc, filterMap_snoc, ih]
    simp [Note.move?, Note.fetch?, handed]
  | setNodes _ _ _ ih | fail _ _ ih => exact ih
  | move m before step answered ih =>
    have quiet := handed_of_answeredBy (before.run.numbered numbered_idle) step answered
    rw [handedFor_snoc, filterMap_snoc, ih]
    simp [Note.move?, Note.fetch?, quiet]
  | @fetch notes s s' boxes c view events before found step ih =>
    have brings := handed_of_fetched found step
    have filtered := filter_readable ⟨view, c.group, (boxes.fetch c.group).1, s.polling⟩ key
    rw [Fetch.readable] at filtered
    rw [handedFor_snoc, filterMap_snoc, ih, List.filter_append, List.flatMap_append]
    refine congrArg _ ?_
    by_cases same : KeyText.strip c.group = KeyText.strip key <;> cases active : s.polling <;>
      simp_all [Note.move?, Note.fetch?, Fetch.readable]

end

theorem spelling_of_mem {key : String} {notes : List Note} {f : Fetch}
    (h : f ∈ fetchesFor key notes) : KeyText.strip f.group = KeyText.strip key := by
  obtain ⟨n, -, read⟩ := List.mem_filterMap.1 h
  cases n with
  | fetched m fetch =>
    obtain ⟨same, rfl⟩ : KeyText.strip fetch.group = KeyText.strip key ∧ fetch = f := by
      simpa [Note.fetch?] using read
    exact same
  | pushed | moved => cases read

/-! ## What opens of a fetch -/

theorem filterMap_sublist {α β : Type} {f g : α → Option β} (l : List α)
    (h : ∀ a, f a = none ∨ f a = g a) : (l.filterMap f).Sublist (l.filterMap g) := by
  induction l with
  | nil => exact .slnil
  | cons a rest ih =>
    rw [List.filterMap_cons, List.filterMap_cons]
    rcases h a with none | same
    · rw [none]
      cases g a with
      | none => exact ih
      | some b => exact ih.cons b
    · rw [same]
      cases g a with
      | none => exact ih
      | some b => exact ih.cons_cons b

/-- The content of what was handed over. -/
def contentOf (d : Envelope × Message) : Option Bytes := d.1.content

/-- The content of what was handed over, with the message that it opened as. -/
def openingOf (d : Envelope × Message) : Option (Bytes × Message) :=
  d.1.content.map fun data => (data, d.2)

/-- A content that opens for a group, with its message. -/
def opening? [Curve] (groups : GroupTable) (key : String) (data : Bytes) : Option (Bytes × Message) :=
  (Messenger.opened? groups key data).map fun m => (data, m)

namespace Fetch

theorem content_readable (f : Fetch) : (f.readable.filterMap contentOf).Sublist f.contents := by
  rw [readable, readable_eq_filterMap, List.filterMap_filterMap, contents]
  refine filterMap_sublist _ fun e => ?_
  cases (f.view.decrypt e).toOption with
  | none => exact .inl rfl
  | some m => exact .inr rfl

/-- What is read with a store opens as it does wherever the same secret key is kept of the group. -/
theorem opening_readable [Curve] {f : Fetch} {store : Store} {groups : GroupTable} {key : String}
    (view : f.view = Context.ofStore store) (spelling : KeyText.strip f.group = KeyText.strip key)
    (same : store.groups.secret? key = groups.secret? key) :
    f.readable.filterMap openingOf = f.contents.filterMap (opening? groups key) := by
  rw [readable, readable_eq_filterMap, List.filterMap_filterMap, contents, List.filterMap_filterMap]
  refine List.filterMap_congr fun e he => ?_
  obtain ⟨content, timestamp, rfl⟩ := Retrieval.of_mem_envelopes he
  have opens : ∀ m, f.view.decrypt (.closedGroup f.group content timestamp) = .ok m ↔
      Messenger.opened? groups key content = some m := by
    intro m
    have back : groups.secret? f.group = store.groups.secret? f.group := by
      rw [GroupTable.secret?, GroupTable.secret?, GroupTable.find?_congr spelling,
        GroupTable.find?_congr spelling]
      exact same.symm
    rw [view, Messenger.opened?_eq_some_iff]
    refine decrypt_ofStore_eq_ok_iff.trans (exists_congr fun secret => ?_)
    exact ⟨fun h => h.congr spelling same, fun h => h.congr spelling.symm back⟩
  have message : (f.view.decrypt (.closedGroup f.group content timestamp)).toOption =
      Messenger.opened? groups key content := by
    refine Option.ext fun m => ?_
    rw [← opens, toOption_eq_some_iff]
  rw [message]
  simp only [opening?, Envelope.closedGroup, Option.bind_some]
  cases Messenger.opened? groups key content <;> rfl

end Fetch

/-! ## As long as the flag stays -/

/-- No move clears the flag. -/
def Unbroken (moves : List Move) : Prop :=
  ∀ before m after s s', moves = before ++ m :: after → Run .idle before s →
    s.step m.view m.action = some (s', m.events) → s.polling = true → s'.polling = true

theorem Unbroken.of_append {moves later : List Move} (h : Unbroken (moves ++ later)) :
    Unbroken moves := by
  rintro before m after s s' rfl
  exact h before m (after ++ later) s s' (by simp)

/-- Whether an action can clear the flag. -/
def Action.clears : Action → Bool
  | .stop | .call _ | .collect _ => true
  | _ => false

/-- Nothing but a stop or the end of a single call clears the flag. -/
theorem polling_of_step {view : Context} {a : Action} {s s' : State} {es : List Event}
    (step : s.step view a = some (s', es)) (keeps : a.clears = false)
    (active : s.polling = true) : s'.polling = true := by
  have polling : ∀ {r : State × List Event}, some r = some (s', es) → r.1.polling = true →
      s'.polling = true := by
    rintro r ⟨⟩ active
    exact active
  cases a with
  | start =>
    refine polling step ?_
    rw [State.start, if_pos active]
    exact active
  | tick t =>
    simp only [State.step, Option.ite_none_right_eq_some] at step
    refine polling step.2 ?_
    rw [State.tick, if_pos active]
    exact active
  | die t =>
    simp only [State.step, Option.ite_none_right_eq_some] at step
    exact polling step.2 active
  | begin n =>
    simp only [State.step, Option.ite_none_right_eq_some] at step
    refine polling step.2 ?_
    cases view.groups <;> simp [State.begin, State.fanOut, State.collect, active]
  | lookup | lookedUp | fetched => cases step_effect rfl step <;> exact active
  | stop | call | collect => cases keeps

theorem unbroken_of_keeps {moves : List Move} (keeps : ∀ m ∈ moves, m.action.clears = false) :
    Unbroken moves := by
  rintro before m after s s' rfl - step active
  exact polling_of_step step (keeps m (by simp)) active

/-- A chain gets to its fetch only where the flag is set. -/
theorem Effects.fetching {view : Context} {a : Action} {s s' : State} {es : List Event}
    (e : Effects view a s es s') {c : Chain} {snode : Snode} (flies : c ∈ s'.chains)
    (stage : c.stage = .fetch snode) :
    s.polling = true ∨ ∃ c ∈ s.chains, ∃ snode, c.stage = .fetch snode := by
  have first : ∀ {a s' es}, Effect view a s es s' → c ∈ s'.chains →
      s.polling = true ∨ ∃ c ∈ s.chains, ∃ snode, c.stage = .fetch snode := by
    intro a s' es e flies
    cases e with
    | install | keep | stop | refuse | order | expire | die | skip =>
      exact .inr ⟨c, flies, snode, stage⟩
    | call | begin =>
      rcases List.mem_append.1 flies with flies | flies
      · exact .inr ⟨c, flies, snode, stage⟩
      · cases stage.symm.trans (of_mem_chainsFor flies).2
    | ask =>
      obtain ⟨c₀, flies₀, rfl⟩ := List.mem_map.1 flies
      split at stage
      · cases stage
      · exact .inr ⟨c₀, flies₀, snode, stage⟩
    | fetch _ _ _ active => exact .inl active
    | fail | deliver => exact .inr ⟨c, List.mem_of_mem_filter flies, snode, stage⟩
    | collect =>
      rw [collect_chains] at flies
      exact .inr ⟨c, flies, snode, stage⟩
  cases e with
  | one e => exact first e flies
  | two e₁ e₂ => exact first e₁ (e₂.chains_eq ▸ flies)

theorem Run.fetching {moves : List Move} {s : State} (run : Run .idle moves s)
    (unbroken : Unbroken moves) : ∀ c ∈ s.chains, ∀ snode, c.stage = .fetch snode → s.polling = true := by
  induction run with
  | nil => simp [State.idle]
  | @snoc moves s₁ s₂ m run step ih =>
    intro c flies snode stage
    have active : s₁.polling = true := by
      rcases (step_effects (run.numbered numbered_idle) step).fetching flies stage with active | h
      · exact active
      · obtain ⟨c₀, flies₀, snode₀, stage₀⟩ := h
        exact ih unbroken.of_append c₀ flies₀ snode₀ stage₀
    exact unbroken moves m [] s₁ s₂ rfl run step active

theorem Draining.polling_of_unbroken {notes : List Note} {s : State} {boxes : Mailboxes}
    (h : Draining notes s boxes) (unbroken : Unbroken (movesOf notes)) (key : String) :
    ∀ f ∈ fetchesFor key notes, f.polling = true := by
  unfold fetchesFor
  induction h with
  | start => simp
  | push _ _ _ ih =>
    rw [movesOf, filterMap_snoc] at unbroken
    rw [filterMap_snoc]
    simpa [Note.fetch?] using ih unbroken.of_append
  | setNodes _ _ _ ih | fail _ _ ih => exact ih unbroken
  | move m _ _ _ ih =>
    rw [movesOf, filterMap_snoc] at unbroken
    rw [filterMap_snoc]
    simpa [Note.fetch?] using ih unbroken.of_append
  | @fetch notes s s' boxes c view events before found step ih =>
    rw [movesOf, filterMap_snoc] at unbroken
    rw [filterMap_snoc]
    intro f hf
    rcases List.mem_append.1 hf with hf | hf
    · exact ih unbroken.of_append f hf
    · obtain ⟨-, rfl⟩ : KeyText.strip c.group = KeyText.strip key ∧
          ⟨view, c.group, (boxes.fetch c.group).1, s.polling⟩ = f := by
        simpa [Note.fetch?] using hf
      have fetches : ∃ snode, c.stage = .fetch snode := by
        simp only [State.step, found] at step
        split at step
        · exact ⟨_, by assumption⟩
        · cases step
      obtain ⟨snode, stage⟩ := fetches
      exact before.run.fetching unbroken.of_append c (chain?_eq_some found).1 snode stage

/-- **Nothing is lost, doubled or put out of order by a swarm that is drained**, at any instant of
any run, for any key. What was pushed under it, in whichever spelling, is what the completed fetches
brought, in their order, and then what still waits. What is handed over are the messages that open
of the fetches that found the flag set: in their order, and each for one that was pushed. While
nobody clears the flag, every fetch has found it set. Where the stores keep one secret key of the
group throughout, what is handed over is a part, in its order, of what opens of what was pushed, and
while nobody clears the flag it is all that opens of what was fetched. -/
theorem draining_conserves [Curve] {notes : List Note} {s : State} {boxes : Mailboxes}
    (run : Draining notes s boxes) (key : String) :
    pushedTo key notes = (fetchesFor key notes).flatMap Fetch.contents ++ boxes.waiting key ∧
    handedFor key notes = ((fetchesFor key notes).filter Fetch.polling).flatMap Fetch.readable ∧
    ((handedFor key notes).filterMap contentOf).Sublist (pushedTo key notes) ∧
    (Unbroken (movesOf notes) →
      handedFor key notes = (fetchesFor key notes).flatMap Fetch.readable) ∧
    ∀ groups : GroupTable, (∀ f ∈ fetchesFor key notes, ∃ store, f.view = Context.ofStore store ∧
        store.groups.secret? key = groups.secret? key) →
      ((handedFor key notes).filterMap openingOf).Sublist
        ((pushedTo key notes).filterMap (opening? groups key)) ∧
      (Unbroken (movesOf notes) → (handedFor key notes).filterMap openingOf =
        ((fetchesFor key notes).flatMap Fetch.contents).filterMap (opening? groups key)) := by
  have pushed := run.pushed_eq key
  have handed := run.handed_eq key
  have brought : (((fetchesFor key notes).filter Fetch.polling).flatMap Fetch.contents).Sublist
      (pushedTo key notes) := by
    rw [pushed]
    exact (List.filter_sublist.flatMap _).trans (List.sublist_append_left _ _)
  have all : Unbroken (movesOf notes) →
      (fetchesFor key notes).filter Fetch.polling = fetchesFor key notes := fun unbroken =>
    List.filter_eq_self.2 (run.polling_of_unbroken unbroken key)
  refine ⟨pushed, handed, ?parts, fun unbroken => by rw [handed, all unbroken], ?one⟩
  case parts =>
    rw [handed, List.filterMap_flatMap]
    exact (List.Sublist.flatMap_right _ fun f _ => f.content_readable).trans brought
  case one =>
    intro groups stores
    have opens : (handedFor key notes).filterMap openingOf =
        (((fetchesFor key notes).filter Fetch.polling).flatMap Fetch.contents).filterMap
          (opening? groups key) := by
      rw [handed, List.filterMap_flatMap, List.filterMap_flatMap]
      refine List.flatMap_congr fun f hf => ?_
      have mine := List.mem_of_mem_filter hf
      obtain ⟨store, view, same⟩ := stores f mine
      exact Fetch.opening_readable view (spelling_of_mem mine) same
    rw [opens]
    exact ⟨brought.filterMap _, fun unbroken => by rw [all unbroken]⟩

/-! ## A message and a stray one -/

/-- A timer's cycle for one group that brings two messages, pushed under two spellings of its
key. -/
theorem exists_draining {view : Context} {group bare : String} (groups : view.groups = [group])
    (spelling : KeyText.strip bare = KeyText.strip group) (content stray : Bytes) :
    ∃ notes s boxes, Draining notes s boxes ∧ Unbroken (movesOf notes) ∧
      boxes.waiting group = [] ∧ pushedTo group notes = [content, stray] ∧
      fetchesFor group notes = [⟨view, group, Mailboxes.batch [content, stray], true⟩] := by
  obtain ⟨_, decrypt⟩ := view
  obtain rfl := groups
  let view : Context := ⟨[group], decrypt⟩
  let node : Snode := ⟨"127.0.0.1", 22021⟩
  let boxes : Mailboxes := (((Mailboxes.empty.setNodes group [node]).push group content).push bare
    stray).countLookup
  have nodes : boxes.lookup group = .ok [node] := by
    have given : boxes.lookup group =
        .ok ((Mailboxes.empty.setNodes group [node]).nodesOf group) := rfl
    rw [given, Mailboxes.nodesOf, Mailboxes.setNodes, Mailboxes.lookup_put, if_pos rfl]
    rfl
  have waiting : boxes.waiting group = [content, stray] := by
    simp only [boxes, Mailboxes.waiting_countLookup, Mailboxes.waiting_push,
      Mailboxes.waiting_setNodes, spelling, if_true]
    rfl
  let fetching : State :=
    ⟨true, some 0, [0], [], [⟨1, none, []⟩], [⟨2, 1, group, .fetch node⟩], 3⟩
  obtain ⟨s', events, step⟩ : ∃ s' events,
      fetching.step view (.fetched 2 (.ok (boxes.fetch group).1)) = some (s', events) := ⟨_, _, rfl⟩
  have given : Draining [] .idle (Mailboxes.empty.setNodes group [node]) := .setNodes _ _ .start
  have pushed := (given.push group content).push bare stray
  have installed := pushed.move ⟨view, .start, [.started 0]⟩ rfl trivial
  have ticked := installed.move ⟨view, .tick 0, [.ordered 0 1]⟩ rfl trivial
  have begun := ticked.move ⟨view, .begin 1, [.fannedOut 1 [2]]⟩ rfl trivial
  have asked := begun.move ⟨view, .lookup 2, [.lookup 2 group]⟩ rfl trivial
  let found : Move := ⟨view, .lookedUp 2 (.ok [node]) 0, [.fetch 2 group node [node]]⟩
  have fetches : Draining _ fetching boxes :=
    asked.move found rfl ⟨⟨2, 1, group, .lookup⟩, rfl, nodes.symm⟩
  have fetched : Draining [.pushed group content, .pushed bare stray,
      .moved ⟨view, .start, [.started 0]⟩, .moved ⟨view, .tick 0, [.ordered 0 1]⟩,
      .moved ⟨view, .begin 1, [.fannedOut 1 [2]]⟩, .moved ⟨view, .lookup 2, [.lookup 2 group]⟩,
      .moved found, .fetched ⟨view, .fetched 2 (.ok (boxes.fetch group).1), events⟩
        ⟨view, group, (boxes.fetch group).1, true⟩] s' (boxes.fetch group).2 :=
    fetches.fetch (c := ⟨2, 1, group, .fetch node⟩) view events rfl step
  have brought : (boxes.fetch group).1 = Mailboxes.batch [content, stray] :=
    congrArg Mailboxes.batch waiting
  refine ⟨_, _, _, fetched, unbroken_of_keeps ?_, ?_, ?_, ?_⟩
  · simp only [movesOf, List.filterMap_cons, Note.move?, List.filterMap_nil, List.forall_mem_cons]
    exact ⟨rfl, rfl, rfl, rfl, rfl, rfl, List.forall_mem_nil _⟩
  · rw [Mailboxes.waiting_fetch, if_pos rfl]
  · simp [pushedTo, Note.pushed?, spelling]
  · rw [brought]
    simp [fetchesFor, List.filterMap_cons, Note.fetch?, view]

theorem draining_conserves_stray :
    ∃ notes s boxes content message, Draining notes s boxes ∧
      pushedTo Messenger.readers.sessionId notes = [content, []] ∧
      (handedFor Messenger.readers.sessionId notes).filterMap openingOf = [(content, message)] := by
  obtain ⟨content, message, secret, authentic⟩ := Messenger.exists_authentic
  have spelling : KeyText.strip (Text.Hex.encode Messenger.readers.publicKey.bytes) =
      KeyText.strip Messenger.readers.sessionId := by
    rw [KeyPair.sessionId, KeyText.strip_encode, KeyText.strip_sessionId]
  obtain ⟨notes, s, boxes, run, unbroken, waiting, pushed, fetches⟩ :=
    exists_draining groups_readersStore spelling content []
  obtain ⟨conserved, -, -, -, opens⟩ := draining_conserves run Messenger.readers.sessionId
  have stores : ∀ f ∈ fetchesFor Messenger.readers.sessionId notes, ∃ store,
      f.view = Context.ofStore store ∧ store.groups.secret? Messenger.readers.sessionId =
        Messenger.readersStore.groups.secret? Messenger.readers.sessionId := by
    rw [fetches]
    exact List.forall_mem_singleton.2 ⟨Messenger.readersStore, rfl, rfl⟩
  obtain ⟨-, handed⟩ := opens Messenger.readersStore.groups stores
  have opened := Messenger.opened?_eq_some_iff.2 ⟨secret, authentic⟩
  have unopened : Messenger.opened? Messenger.readersStore.groups Messenger.readers.sessionId [] =
      none := rfl
  refine ⟨notes, s, boxes, content, message, run, pushed, ?_⟩
  rw [waiting, List.append_nil] at conserved
  rw [handed unbroken, ← conserved, pushed]
  simp [opening?, opened, unopened]

end Poller
end SealedPost

import Mathlib.Data.List.Basic
import SealedPost.Proofs.Relay.Transcript

/-!
# What is remembered of the relay

A run of registrations, unregistrations and subscriptions, call after call, with all that the relay
was asked and what it said. What is remembered at any point is what the confirmations so far make of
the beginning (`before_eq_remembered`); `changes_only_on_success` says what a call does to it, and
that its status is that of its own request.
-/

namespace SealedPost.Relay

/-! ## Runs -/

/-- What a device may ask of its client. A registration begins at a time, and it and the
unregistration find certain groups. -/
inductive Call
  | register (groups : List String) (now : Int64) (token publicKey : String) (force : Bool)
  | unregister (groups : List String) (token : String)
  | subscription (endpoint : Endpoint) (group publicKey : String)
deriving DecidableEq

def Call.perform {m : Type → Type} [Monad m] (carrier : Carrier m) (config : PushConfig)
    (state : PushState) : Call → m (Status × PushState)
  | register groups now token publicKey force =>
    Relay.register carrier config groups now token publicKey force state
  | unregister groups token => Relay.unregister carrier config groups token state
  | subscription endpoint group publicKey => do
    return (← setSubscription carrier config state endpoint group publicKey, state)

/-- A call that was made: the attempts it took, and what was remembered before it and after. -/
structure Entry where
  call : Call
  before : PushState
  made : Transcript
  status : Status
  after : PushState

/-- The run of these calls against a relay that has been asked that much already. -/
def history (relay : Conduct) (config : PushConfig) :
    List Call → PushState → Transcript → List Entry
  | [], _, _ => []
  | call :: rest, state, log =>
    let ((status, after), log') := (call.perform (carryTo relay) config state).run log
    ⟨call, state, log'.drop log.length, status, after⟩ :: history relay config rest after log'

/-- Every call has its entry. -/
theorem map_call_history (relay : Conduct) (config : PushConfig) (calls : List Call)
    (state : PushState) (log : Transcript) :
    (history relay config calls state log).map Entry.call = calls := by
  induction calls generalizing state log with
  | nil => rfl
  | cons call rest ih => exact congrArg (call :: ·) (ih _ _)

/-! ## Whose attempts -/

/-- Whether an attempt went to the address of an endpoint. -/
def Attempt.isAt (config : PushConfig) (endpoint : Endpoint) (a : Attempt) : Bool :=
  a.request.url = withoutSlashes config.serverUrl ++ "/" ++ endpoint.path

theorem Endpoint.path_injective {e f : Endpoint} (h : e.path = f.path) : e = f := by
  cases e <;> cases f <;> first | rfl | exact absurd h (by decide)

theorem isAt_of_request {config : PushConfig} {asked endpoint : Endpoint} {body : Json}
    {a : Attempt} (h : a.request = request config asked body) :
    a.isAt config endpoint = decide (asked = endpoint) := by
  rw [Attempt.isAt, h, request]
  refine decide_eq_decide.2 ⟨fun same => ?_, fun same => by rw [same]⟩
  exact Endpoint.path_injective ((String.append_right_inj _).1 same)

theorem filter_block (relay : Conduct) (config : PushConfig) (endpoint : Endpoint) (body : Json)
    (log : Transcript) :
    (block relay config endpoint body log).filter (·.isAt config endpoint) =
      block relay config endpoint body log := by
  refine List.filter_eq_self.2 fun a mem => ?_
  rw [isAt_of_request (request_of_mem_attempts mem)]
  exact decide_eq_true rfl

theorem filter_subscriptions {endpoint own : Endpoint} (h : endpoint ≠ own) (relay : Conduct)
    (config : PushConfig) (state : PushState) (publicKey : String) (groups : List String)
    (log : Transcript) :
    (subscriptions relay config state endpoint publicKey groups log).filter (·.isAt config own) =
      [] := by
  refine List.filter_eq_nil_iff.2 fun a mem => ?_
  obtain ⟨group, -, asked⟩ := request_of_mem_subscriptions mem
  rw [isAt_of_request asked, decide_eq_false h]
  exact Bool.false_ne_true

theorem filter_farewells (relay : Conduct) (config : PushConfig) (state : PushState)
    (groups : List String) (log : Transcript) :
    (farewells relay config state groups log).filter (·.isAt config .unregister) = [] := by
  unfold farewells
  split
  · exact filter_subscriptions (by decide) ..
  · rfl

/-! ## What a call does -/

/-- Of all attempts that a call made, those at that address are the attempts at this one request,
and its status is what came of them. -/
def Entry.DecidedBy (relay : Conduct) (config : PushConfig) (endpoint : Endpoint) (body : Json)
    (e : Entry) : Prop :=
  ∃ asked, e.made.filter (·.isAt config endpoint) = block relay config endpoint body asked ∧
    e.status = verdict (block relay config endpoint body asked)

/-- What holds of every call that was made. A fresh token is not registered again unless that is
forced; everything else is decided by the call's own request. -/
def Entry.Lawful (relay : Conduct) (config : PushConfig) (e : Entry) : Prop :=
  match e.call with
  | .register _ now token publicKey force =>
    if !force && isFresh config now e.before token then
      e.status = .skipped ∧ e.made = [] ∧ e.after = e.before
    else
      e.DecidedBy relay config .register (registerBody token publicKey) ∧
        e.after = afterRegister e.status now token e.before
  | .unregister _ token =>
    e.DecidedBy relay config .unregister (unregisterBody token) ∧
      e.after = afterUnregister e.status e.before
  | .subscription .. => e.after = e.before

theorem Entry.DecidedBy.ne_skipped {relay : Conduct} {config : PushConfig} {endpoint : Endpoint}
    {body : Json} {e : Entry} (h : e.DecidedBy relay config endpoint body) :
    e.status ≠ .skipped := by
  obtain ⟨asked, -, status⟩ := h
  rw [status]
  exact verdict_ne_skipped _

/-- A call goes on with the log that it finds, and does what it may. -/
theorem Call.perform_run (call : Call) (relay : Conduct) (config : PushConfig) (state : PushState)
    (log : Transcript) :
    ∃ e : Entry, e.call = call ∧ e.before = state ∧ e.Lawful relay config ∧
      (call.perform (carryTo relay) config state).run log =
        ((e.status, e.after), log ++ e.made) := by
  cases call with
  | register groups now token publicKey force =>
    cases fresh : !force && isFresh config now state token with
    | true =>
      refine ⟨⟨_, state, [], .skipped, state⟩, rfl, rfl, ?_, ?_⟩
      · simp only [Entry.Lawful, fresh, if_true, and_self]
      · rw [List.append_nil]
        exact register_run_of_fresh fresh relay groups publicKey log
    | false =>
      let own := block relay config .register (registerBody token publicKey) log
      let after := afterRegister (verdict own) now token state
      let others := subscriptions relay config after .subscribe publicKey groups (log ++ own)
      refine ⟨⟨_, state, own ++ others, verdict own, after⟩, rfl, rfl, ?_,
        register_run fresh relay groups publicKey log⟩
      have decisive : (own ++ others).filter (·.isAt config .register) = own := by
        rw [List.filter_append, filter_block, filter_subscriptions (by decide), List.append_nil]
      simp only [Entry.Lawful, fresh, Bool.false_eq_true, if_false]
      exact ⟨⟨log, decisive, rfl⟩, rfl⟩
  | unregister groups token =>
    let others := farewells relay config state groups log
    let own := block relay config .unregister (unregisterBody token) (log ++ others)
    refine ⟨⟨_, state, others ++ own, verdict own, afterUnregister (verdict own) state⟩, rfl, rfl,
      ⟨⟨log ++ others, ?_, rfl⟩, rfl⟩, unregister_run relay config groups token state log⟩
    rw [List.filter_append, filter_farewells, filter_block, List.nil_append]
  | subscription endpoint group publicKey =>
    have run := setSubscription_run relay config state endpoint group publicKey log
    exact ⟨⟨_, state, _, _, state⟩, rfl, rfl, rfl, run_bind_eq run _⟩

theorem history_cons (relay : Conduct) (config : PushConfig) (call : Call) (rest : List Call)
    (state : PushState) (log : Transcript) :
    ∃ e log', e.call = call ∧ e.before = state ∧ e.Lawful relay config ∧
      history relay config (call :: rest) state log =
        e :: history relay config rest e.after log' := by
  obtain ⟨e, called, found, lawful, run⟩ := call.perform_run relay config state log
  refine ⟨e, log ++ e.made, called, found, lawful, ?_⟩
  rw [history, run]
  simp only [List.drop_left]
  subst called found
  rfl

/-! ## What is remembered -/

/-- What the relay has confirmed. -/
inductive Confirmation
  | registered (token : String) (start : Int64)
  | unregistered
deriving DecidableEq

/-- What is remembered once the relay has confirmed that. -/
def remember (state : PushState) : Confirmation → PushState
  | .registered token start =>
    { state with enabled := true, token := some token, lastUpload := start }
  | .unregistered => { state with enabled := false }

/-- What the relay confirmed to a call. -/
def Entry.confirmation? (e : Entry) : Option Confirmation :=
  match e.call, e.status with
  | .register _ now token _ _, .succeeded => some (.registered token now)
  | .unregister .., .succeeded => some .unregistered
  | _, _ => none

def confirmations (entries : List Entry) : List Confirmation :=
  entries.filterMap Entry.confirmation?

theorem Entry.confirmation?_of_ne {e : Entry} (other : e.status ≠ .succeeded) :
    e.confirmation? = none := by
  unfold confirmation?
  split
  · contradiction
  · contradiction
  · rfl

/-- A call changes what its confirmation says, and without one nothing. -/
theorem Entry.Lawful.after_eq {relay : Conduct} {config : PushConfig} {e : Entry}
    (lawful : e.Lawful relay config) :
    e.after = e.confirmation?.elim e.before (remember e.before) := by
  obtain ⟨call, before, made, status, after⟩ := e
  simp only [Lawful] at lawful
  split at lawful
  case h_1 =>
    split at lawful
    · obtain ⟨rfl, -, rfl⟩ := lawful
      rfl
    · obtain ⟨-, rfl⟩ := lawful
      cases status <;> rfl
  case h_2 =>
    obtain ⟨-, rfl⟩ := lawful
    cases status <;> rfl
  case h_3 =>
    subst lawful
    cases status <;> rfl

section
variable {relay : Conduct} {config : PushConfig} {calls : List Call} {state : PushState}
  {log : Transcript} {earlier later : List Entry} {e : Entry}

/-- The first entry, and the run after it. -/
theorem history_eq_cons (h : history relay config calls state log = e :: later) :
    e.before = state ∧ e.Lawful relay config ∧
      ∃ rest log', history relay config rest e.after log' = later := by
  cases calls with
  | nil => cases h
  | cons call rest =>
    obtain ⟨first, log', -, found, lawful, step⟩ := history_cons relay config call rest state log
    obtain ⟨rfl, rfl⟩ := List.cons.inj (step.symm.trans h)
    exact ⟨found, lawful, rest, log', rfl⟩

theorem lawful_of_history (h : history relay config calls state log = earlier ++ e :: later) :
    e.Lawful relay config := by
  induction earlier generalizing calls state log with
  | nil => exact (history_eq_cons h).2.1
  | cons first earlier ih =>
    obtain ⟨-, -, rest, log', next⟩ := history_eq_cons h
    exact ih next

/-- A call finds what the call before it has left. -/
theorem before_eq_last (h : history relay config calls state log = earlier ++ e :: later) :
    e.before = (earlier.getLast?.map Entry.after).getD state := by
  induction earlier generalizing calls state log with
  | nil => exact (history_eq_cons h).1
  | cons first earlier ih =>
    obtain ⟨-, -, rest, log', next⟩ := history_eq_cons h
    rw [ih next, List.getLast?_cons]
    cases earlier.getLast? <;> rfl

/-- **What is remembered is what the relay has confirmed**, one confirmation after the other. -/
theorem before_eq_remembered (h : history relay config calls state log = earlier ++ e :: later) :
    e.before = (confirmations earlier).foldl remember state := by
  -- Both the run and the fold go on from what the first entry has left.
  induction earlier generalizing calls state log with
  | nil => exact (history_eq_cons h).1
  | cons first earlier ih =>
    obtain ⟨rfl, lawful, rest, log', next⟩ := history_eq_cons h
    rw [ih next, lawful.after_eq, confirmations, confirmations, List.filterMap_cons]
    cases first.confirmation? <;> rfl

/-- **What is remembered changes only where the relay confirms the call's own request.** A
registration that succeeds sets the flag, the token and the time at which it began, an
unregistration that succeeds clears the flag, and neither changes anything else; no other call
changes anything. Whether the call has succeeded is decided by its own request, of all that it made,
and where a registration makes none at all it is skipped. -/
theorem changes_only_on_success
    (h : history relay config calls state log = earlier ++ e :: later) :
    e.before = (earlier.getLast?.map Entry.after).getD state ∧
    (e.status ≠ .succeeded → e.after = e.before) ∧
    match e.call with
    | .register _ now token publicKey _ =>
      (e.status = .succeeded →
        e.after = { e.before with enabled := true, token := some token, lastUpload := now }) ∧
      (e.status = .skipped ∧ e.made = [] ∨
        e.DecidedBy relay config .register (registerBody token publicKey))
    | .unregister _ token =>
      (e.status = .succeeded → e.after = { e.before with enabled := false }) ∧
      e.DecidedBy relay config .unregister (unregisterBody token)
    | .subscription .. => e.after = e.before := by
  have lawful := lawful_of_history h
  have after := lawful.after_eq
  refine ⟨before_eq_last h, fun other => ?_, ?_⟩
  · rw [after, Entry.confirmation?_of_ne other]
    rfl
  · unfold Entry.Lawful at lawful
    unfold Entry.confirmation? at after
    cases called : e.call with
    | register groups now token publicKey force =>
      simp only [called] at lawful after
      refine ⟨fun succeeded => by rw [after, succeeded]; rfl, ?_⟩
      split at lawful
      · exact .inl ⟨lawful.1, lawful.2.1⟩
      · exact .inr lawful.1
    | unregister groups token =>
      simp only [called] at lawful after
      exact ⟨fun succeeded => by rw [after, succeeded]; rfl, lawful.1⟩
    | subscription endpoint group publicKey =>
      simp only [called] at lawful
      exact lawful

end

/-! ## A relay that answers from a list -/

/-- The replies in the order in which they are given, and none after them. -/
def answering (replies : List (Except NetworkError Json)) : Conduct := fun log _ =>
  replies.getD log.length (.error .timeout)

/-- A reply with a code. -/
def coded (code : Int) : Except NetworkError Json := .ok (.obj [("code", .int code)])

/-- A registration at the second attempt whose subscription is refused; an unregistration that gets
no reply although its group is left; and one that succeeds although its group is not. -/
def mixedFortunes : List Entry :=
  history
    (answering [.error .timeout, coded 0, coded 1, coded 0, .error .timeout, .error .timeout,
      .error .timeout, .error .timeout, coded 0])
    { PushConfig.default with maxRetryCount := 2 }
    [.register ["g"] 1000 "t" "k" false, .unregister ["g"] "t", .unregister ["g"] "t"]
    { PushState.empty with sessionId := some "k" } []

theorem changes_only_on_success_mixedFortunes :
    ∃ first second third, mixedFortunes = [first, second, third] ∧
      first.status = .succeeded ∧ second.status = .failed ∧ third.status = .succeeded ∧
      second.before = first.after ∧ second.after = first.after ∧
      third.after = { second.after with enabled := false } := by
  have three : mixedFortunes.length = 3 := by decide +kernel
  obtain ⟨first, second, third, run⟩ := List.length_eq_three.1 three
  have statuses : mixedFortunes.map Entry.status = [.succeeded, .failed, .succeeded] := by
    decide +kernel
  have calls : mixedFortunes.map Entry.call = _ := map_call_history ..
  simp only [run, List.map_cons, List.map_nil, List.cons.injEq, and_true] at statuses calls
  obtain ⟨succeeded, failed, again⟩ := statuses
  obtain ⟨-, -, called⟩ := calls
  have second_run : mixedFortunes = [first] ++ second :: [third] := run
  have third_run : mixedFortunes = [first, second] ++ third :: [] := run
  obtain ⟨left, unchanged, -⟩ := changes_only_on_success second_run
  obtain ⟨found, -, own⟩ := changes_only_on_success third_run
  rw [called] at own
  refine ⟨first, second, third, run, succeeded, failed, again, left, ?_, ?_⟩
  · exact (unchanged (by rw [failed]; decide)).trans left
  · rw [own.1 again, found]
    rfl

end SealedPost.Relay

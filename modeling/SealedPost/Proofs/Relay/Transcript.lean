import SealedPost.Relay.Registration
import SealedPost.Proofs.Relay.Retry

/-!
# What a relay is asked

A relay that may answer anything is a function of all that was asked and answered before. Carried to
such a relay, a request is attempted until the first reply or as often as the settings allow
(`send_run`), and what comes of it is decided by its last attempt alone (`verdict`).
-/

namespace SealedPost.Relay

/-- A request that was made, and what came back. -/
structure Attempt where
  request : Request
  reply : Except NetworkError Json

/-- All that was asked of a relay, in order. -/
abbrev Transcript := List Attempt

/-- How a relay answers a request, after all that was asked before. -/
abbrev Conduct := Transcript → Request → Except NetworkError Json

/-- Carries requests to a relay and writes them down. -/
def carryTo (relay : Conduct) : Carrier (StateM Transcript) := fun r => do
  let log ← get
  let reply := relay log r
  set (log ++ [Attempt.mk r reply])
  return reply

theorem carryTo_run (relay : Conduct) (r : Request) (log : Transcript) :
    (carryTo relay r).run log = (relay log r, log ++ [⟨r, relay log r⟩]) :=
  rfl

theorem run_bind_eq {α β : Type} {x : StateM Transcript α} {log log' : Transcript} {a : α}
    (h : x.run log = (a, log')) (f : α → StateM Transcript β) :
    (x >>= f).run log = (f a).run log' := by
  rw [StateT.run_bind, h]
  rfl

/-- The attempts at a request: up to the first reply, and at most `limit` of them. -/
def attempts (relay : Conduct) (r : Request) : (limit : Nat) → Transcript → Transcript
  | 0, _ => []
  | limit + 1, log =>
    match relay log r with
    | .ok reply => [⟨r, .ok reply⟩]
    | .error e => ⟨r, .error e⟩ :: attempts relay r limit (log ++ [⟨r, .error e⟩])

theorem attempts_of_ok {relay : Conduct} {r : Request} {log : Transcript} {reply : Json}
    (h : relay log r = .ok reply) (limit : Nat) :
    attempts relay r (limit + 1) log = [⟨r, .ok reply⟩] := by
  rw [attempts, h]

theorem attempts_of_error {relay : Conduct} {r : Request} {log : Transcript} {e : NetworkError}
    (h : relay log r = .error e) (limit : Nat) :
    attempts relay r (limit + 1) log =
      ⟨r, .error e⟩ :: attempts relay r limit (log ++ [⟨r, .error e⟩]) := by
  rw [attempts, h]

/-- All attempts are at the one request. -/
theorem request_of_mem_attempts {relay : Conduct} {r : Request} {limit : Nat} {log : Transcript}
    {a : Attempt} (mem : a ∈ attempts relay r limit log) : a.request = r := by
  induction limit generalizing log with
  | zero => cases mem
  | succ limit ih =>
    cases h : relay log r with
    | ok reply =>
      rw [attempts_of_ok h, List.mem_singleton] at mem
      rw [mem]
    | error e =>
      rw [attempts_of_error h] at mem
      rcases List.mem_cons.1 mem with rfl | mem
      · rfl
      · exact ih mem

/-! ## Retries -/

theorem tryAgain_run_of_reply {relay : Conduct} {r : Request} {log : Transcript} {reply : Json}
    (h : relay log r = .ok reply) (more : Nat) :
    (tryAgain (carryTo relay r) more).run log = (.ok reply, log ++ [⟨r, .ok reply⟩]) := by
  cases more with
  | zero => rw [tryAgain, carryTo_run, h]
  | succ more =>
    rw [tryAgain, run_bind_eq (carryTo_run ..), h]
    rfl

theorem tryAgain_run_of_failure {relay : Conduct} {r : Request} {log : Transcript}
    {e : NetworkError} (h : relay log r = .error e) (more : Nat) :
    (tryAgain (carryTo relay r) (more + 1)).run log =
      (tryAgain (carryTo relay r) more).run (log ++ [⟨r, .error e⟩]) := by
  rw [tryAgain, run_bind_eq (carryTo_run ..), h]

/-- An attempt, and as long as there is no reply `more` further ones. -/
theorem tryAgain_carryTo_run (relay : Conduct) (r : Request) (more : Nat) (log : Transcript) :
    ∃ last, (attempts relay r (more + 1) log).getLast? = some last ∧
      (tryAgain (carryTo relay r) more).run log =
        (last.reply, log ++ attempts relay r (more + 1) log) := by
  induction more generalizing log with
  | zero =>
    cases hr : relay log r with
    | ok reply => rw [attempts_of_ok hr, tryAgain_run_of_reply hr]; exact ⟨_, rfl, rfl⟩
    | error e =>
      rw [attempts_of_error hr, tryAgain, carryTo_run, hr]
      exact ⟨_, rfl, rfl⟩
  | succ more ih =>
    cases hr : relay log r with
    | ok reply => rw [attempts_of_ok hr, tryAgain_run_of_reply hr]; exact ⟨_, rfl, rfl⟩
    | error e =>
      obtain ⟨last, hlast, hrun⟩ := ih (log ++ [⟨r, .error e⟩])
      rw [attempts_of_error hr, tryAgain_run_of_failure hr, hrun]
      exact ⟨last, by rw [List.getLast?_cons, hlast]; rfl, by rw [List.append_assoc]; rfl⟩

/-- How often a request is attempted at most. -/
def attemptLimit (config : PushConfig) : Nat := max 1 config.maxRetryCount.toNat

theorem retry_run (relay : Conduct) (r : Request) (config : PushConfig) (log : Transcript) :
    ∃ last, (attempts relay r (attemptLimit config) log).getLast? = some last ∧
      (retry config.maxRetryCount (carryTo relay r)).run log =
        (last.reply, log ++ attempts relay r (attemptLimit config) log) := by
  have limit : attemptLimit config - 1 + 1 = attemptLimit config := by
    unfold attemptLimit
    omega
  have turns := tryAgain_carryTo_run relay r (attemptLimit config - 1) log
  rwa [limit, attemptLimit, ← retry_eq] at turns

/-! ## Requests -/

/-- The attempts at a request under these settings. -/
def block (relay : Conduct) (config : PushConfig) (endpoint : Endpoint) (body : Json) :
    Transcript → Transcript :=
  attempts relay (request config endpoint body) (attemptLimit config)

/-- What comes of the attempts at one request. -/
def verdict (made : Transcript) : Status :=
  match made.getLast? with
  | some ⟨_, .ok reply⟩ => if (Response.ofJson reply).isSuccess then .succeeded else .failed
  | _ => .failed

/-- **A request that is sent makes a block of attempts, and ends as the last of them says.** -/
theorem send_run (relay : Conduct) (config : PushConfig) (endpoint : Endpoint) (body : Json)
    (log : Transcript) :
    (send (carryTo relay) config endpoint body).run log =
      (verdict (block relay config endpoint body log),
        log ++ block relay config endpoint body log) := by
  obtain ⟨last, hlast, hrun⟩ := retry_run relay (request config endpoint body) config log
  obtain ⟨asked, reply⟩ := last
  rw [send, run_bind_eq hrun, verdict, block, hlast]
  cases reply <;> rfl

theorem verdict_ne_skipped (made : Transcript) : verdict made ≠ .skipped := by
  unfold verdict
  split
  · split <;> nofun
  · nofun

/-- The attempts at a subscription: none while notifications are off. -/
def subscription (relay : Conduct) (config : PushConfig) (state : PushState) (endpoint : Endpoint)
    (group publicKey : String) (log : Transcript) : Transcript :=
  if state.enabled then block relay config endpoint (subscriptionBody group publicKey) log else []

theorem setSubscription_run (relay : Conduct) (config : PushConfig) (state : PushState)
    (endpoint : Endpoint) (group publicKey : String) (log : Transcript) :
    (setSubscription (carryTo relay) config state endpoint group publicKey).run log =
      (if state.enabled then
          verdict (subscription relay config state endpoint group publicKey log)
        else .skipped,
        log ++ subscription relay config state endpoint group publicKey log) := by
  unfold setSubscription subscription
  split
  · rw [send_run]
  · rw [List.append_nil]; rfl

/-- The attempts at the subscriptions of group after group. -/
def subscriptions (relay : Conduct) (config : PushConfig) (state : PushState) (endpoint : Endpoint)
    (publicKey : String) : List String → Transcript → Transcript
  | [], _ => []
  | group :: rest, log =>
    let made := subscription relay config state endpoint group publicKey log
    made ++ subscriptions relay config state endpoint publicKey rest (log ++ made)

theorem setSubscriptions_run (relay : Conduct) (config : PushConfig) (state : PushState)
    (endpoint : Endpoint) (publicKey : String) (groups : List String) (log : Transcript) :
    (setSubscriptions (carryTo relay) config state endpoint publicKey groups).run log =
      ((), log ++ subscriptions relay config state endpoint publicKey groups log) := by
  induction groups generalizing log with
  | nil => rw [subscriptions, List.append_nil]; rfl
  | cons group rest ih =>
    rw [setSubscriptions, run_bind_eq (setSubscription_run ..), ih, subscriptions,
      List.append_assoc]

/-- All attempts for groups are at subscriptions of one kind. -/
theorem request_of_mem_subscriptions {relay : Conduct} {config : PushConfig} {state : PushState}
    {endpoint : Endpoint} {publicKey : String} {groups : List String} {log : Transcript}
    {a : Attempt} (mem : a ∈ subscriptions relay config state endpoint publicKey groups log) :
    ∃ group ∈ groups, a.request = request config endpoint (subscriptionBody group publicKey) := by
  induction groups generalizing log with
  | nil => cases mem
  | cons group rest ih =>
    rcases List.mem_append.1 mem with mem | mem
    · unfold subscription at mem
      split at mem
      · exact ⟨group, List.mem_cons_self, request_of_mem_attempts mem⟩
      · cases mem
    · obtain ⟨other, among, asked⟩ := ih mem
      exact ⟨other, List.mem_cons_of_mem _ among, asked⟩

/-! ## Registrations -/

/-- A registration that is not skipped makes its own block of attempts first. -/
theorem register_run {config : PushConfig} {now : Int64} {token : String} {force : Bool}
    {state : PushState} (sent : (!force && isFresh config now state token) = false)
    (relay : Conduct) (groups : List String) (publicKey : String) (log : Transcript) :
    (register (carryTo relay) config groups now token publicKey force state).run log =
      let own := block relay config .register (registerBody token publicKey) log
      let after := afterRegister (verdict own) now token state
      ((verdict own, after),
        log ++ (own ++
          subscriptions relay config after .subscribe publicKey groups (log ++ own))) := by
  rw [register, sent, if_neg Bool.false_ne_true, run_bind_eq (send_run ..),
    run_bind_eq (setSubscriptions_run ..), List.append_assoc]
  rfl

theorem register_run_of_fresh {config : PushConfig} {now : Int64} {token : String} {force : Bool}
    {state : PushState} (fresh : (!force && isFresh config now state token) = true)
    (relay : Conduct) (groups : List String) (publicKey : String) (log : Transcript) :
    (register (carryTo relay) config groups now token publicKey force state).run log =
      ((.skipped, state), log) := by
  rw [register, if_pos fresh]
  rfl

/-- The attempts that an unregistration makes for groups before its own. -/
def farewells (relay : Conduct) (config : PushConfig) (state : PushState) (groups : List String)
    (log : Transcript) : Transcript :=
  match state.sessionId with
  | some publicKey => subscriptions relay config state .unsubscribe publicKey groups log
  | none => []

theorem unregister_run (relay : Conduct) (config : PushConfig) (groups : List String)
    (token : String) (state : PushState) (log : Transcript) :
    (unregister (carryTo relay) config groups token state).run log =
      let before := farewells relay config state groups log
      let own := block relay config .unregister (unregisterBody token) (log ++ before)
      ((verdict own, afterUnregister (verdict own) state), log ++ (before ++ own)) := by
  unfold unregister farewells
  cases state.sessionId with
  | none =>
    dsimp only
    rw [run_bind_eq (send_run ..), List.append_nil]
    rfl
  | some publicKey =>
    dsimp only
    rw [run_bind_eq (setSubscriptions_run ..), run_bind_eq (send_run ..), List.append_assoc]
    rfl

end SealedPost.Relay

import SealedPost.CommandLine.Program
import SealedPost.Proofs.CommandLine.Delivery
import SealedPost.Proofs.Config.Sources
import SealedPost.Proofs.Relay.Exchange
import SealedPost.Proofs.Relay.History

/-!
# What a registration from the command line comes to

A command that registers a token or unregisters it works on a store that has never seen a token or a
group. So it is never skipped, forced or not, and asks the relay one thing, up to the first answer
or as often as the settings allow (`CommandLine.execute_run`). This answer decides how the program
ends: `CommandLine.registration_follows_reply`.
-/

namespace SealedPost.CommandLine
open Relay

/-! ## What is printed -/

theorem pretty_statusResult (status : Status) : (statusResult status).pretty =
    "\x7b\n  \"status\": \"" ++ status.word ++ "\"\n\x7d" := by
  cases status <;> cbv

theorem ofResult_succeeded : Report.ofResult (.ok (statusResult .succeeded)) =
    ⟨0, "\x7b\n  \"status\": \"succeeded\"\n\x7d\n", ""⟩ := by
  rw [Report.ofResult, pretty_statusResult]
  rfl

theorem ofResult_failed : Report.ofResult (.ok (statusResult .failed)) =
    ⟨1, "\x7b\n  \"status\": \"failed\"\n\x7d\n", ""⟩ := by
  rw [Report.ofResult, pretty_statusResult]
  rfl

variable [Curve]

/-! ## What commands ask for -/

/-- What a command asks of the relay on behalf of a session id. -/
inductive Asks (seed sessionId : String) : Command → Endpoint → Json → Prop
  | register (token : String) (force : Bool) : Asks seed sessionId (.register seed token force)
      .register (registerBody token sessionId)
  | unregister (token : String) : Asks seed sessionId (.unregister seed token)
      .unregister (unregisterBody token)

/-- No token has been registered from a store that was just opened. -/
theorem isFresh_storeOf (identity : Identity) (config : PushConfig) (now : Int64)
    (token : String) : isFresh config now (storeOf identity).push token = false := rfl

theorem publicKeys_storeOf (identity : Identity) : (storeOf identity).groups.publicKeys = [] :=
  List.mergeSort_nil

section
variable {text : String} {seed : Seed} {identity : Identity}
  (accepted : Seed.ofHex text = .ok seed) (derived : Identity.ofSeed seed = .ok identity)

include accepted derived in
theorem withStore_eq {m : Type → Type} [Monad m]
    (run : Identity → Store → m (Status × PushState)) :
    withStore text run = do
      let (status, _) ← run identity (storeOf identity)
      return .ok status := by
  have opened := openStore_eq accepted derived
  unfold withStore
  rw [opened]

include accepted derived in
/-- **A command makes its own attempts and no others.** -/
theorem execute_run {command : Command} {endpoint : Endpoint} {body : Json}
    (asks : Asks text identity.sessionId command endpoint body) (relay : Conduct)
    (config : PushConfig) (now : Int64) (source : Entropy) :
    (command.execute (carryTo relay) now source config).run [] =
      (.ok (statusResult (verdict (block relay config endpoint body []))),
        block relay config endpoint body []) := by
  -- The store knows of no group, so what is asked about groups is nothing, before and after.
  cases asks with
  | register token force =>
    have sent : (!force && isFresh config now (storeOf identity).push token) = false := by
      rw [isFresh_storeOf, Bool.and_false]
    have asked := register_run sent relay [] identity.sessionId []
    simp only [subscriptions, List.nil_append, List.append_nil] at asked
    rw [Command.execute, register, withStore_eq accepted derived, publicKeys_storeOf]
    rw [bind_assoc, run_bind_eq asked]
    rfl
  | unregister token =>
    have asked := unregister_run relay config [] token (storeOf identity).push []
    have silent : farewells relay config (storeOf identity).push [] [] = [] := rfl
    simp only [silent, List.nil_append] at asked
    rw [Command.execute, unregister, withStore_eq accepted derived, publicKeys_storeOf]
    rw [bind_assoc, run_bind_eq asked]
    rfl

include accepted derived in
/-- Forcing makes no difference, however requests are carried. -/
theorem execute_register_force {m : Type → Type} [Monad m] (carrier : Carrier m)
    (config : PushConfig) (now : Int64) (source : Entropy) (token : String) (force : Bool) :
    (Command.register text token force).execute carrier now source config =
      (Command.register text token false).execute carrier now source config := by
  simp only [Command.execute, register, withStore_eq accepted derived, Relay.register,
    isFresh_storeOf, Bool.and_false]

end

/-! ## How the program ends -/

/-- **The first answer decides how a registration ends.** Under all settings that are accepted, for
every seed that is, and however the attempts to reach the relay end: a command that registers a
token or unregisters it makes at least one attempt and at most as many as the settings say, stops at
the first that is answered, and asks for nothing but its own endpoint. The program ends with zero and
says that it succeeded exactly if the first answer came in time and has the code zero, and else it
ends with one and says that it failed; it never says that it skipped anything. Forcing makes no
difference to what is asked or reported. -/
theorem registration_follows_reply {text : String} {seed : Seed} {identity : Identity}
    (accepted : Seed.ofHex text = .ok seed) (derived : Identity.ofSeed seed = .ok identity)
    {file : Option (Option Bytes)} {vars : ClientConfig.Variables} {call : Invocation}
    {config : ClientConfig} (loaded : ClientConfig.load file vars call.logLevel = .ok config)
    {endpoint : Endpoint} {body : Json}
    (asks : Asks text identity.sessionId call.command endpoint body) (ends : Nat → Exchange)
    (now : Int64) (source : Entropy) :
    (∃ n report,
      (call.run (carryTo (answeringFrom fun i => (ends i).reply)) now source file vars).run [] =
        (report, taken (request config.push endpoint body) ends n) ∧
      StopsAfter ends config.push.maxRetryCount.toNat n ∧
      (∀ a ∈ taken (request config.push endpoint body) ends n, ∀ other,
        a.isAt config.push other = true ↔ other = endpoint) ∧
      (FirstConfirms ends config.push.maxRetryCount.toNat ∧
          report = ⟨0, "\x7b\n  \"status\": \"succeeded\"\n\x7d\n", ""⟩ ∨
        ¬FirstConfirms ends config.push.maxRetryCount.toNat ∧
          report = ⟨1, "\x7b\n  \"status\": \"failed\"\n\x7d\n", ""⟩)) ∧
    (∀ token force force', call.command = .register text token force →
      ∀ (m : Type → Type) [Monad m] (carrier : Carrier m),
        ({ call with command := .register text token force' } : Invocation).run carrier now source
          file vars = call.run carrier now source file vars) := by
  refine ⟨?asked, ?forced⟩
  case asked =>
    have limit : attemptLimit config.push = config.push.maxRetryCount.toNat := by
      have := UInt32.lt_iff_toNat_lt.1 (ClientConfig.valid_of_load loaded).attempts
      rw [UInt32.toNat_zero] at this
      unfold attemptLimit
      omega
    obtain ⟨n, stops, same⟩ := block_eq_taken config.push endpoint body ends
    rw [limit] at stops
    have executed := execute_run accepted derived asks (answeringFrom fun i => (ends i).reply)
      config.push now source
    rw [same] at executed
    refine ⟨n, .ofResult (.ok (statusResult
      (verdict (taken (request config.push endpoint body) ends n)))), ?_, stops, ?_, ?_⟩
    · simp only [Invocation.run, loaded]
      rw [run_bind_eq executed]
      rfl
    · intro a mem other
      rw [isAt_of_request (request_of_mem_taken mem), decide_eq_true_eq]
      exact eq_comm
    · rw [← stops.verdict_taken (r := request config.push endpoint body)]
      cases outcome : verdict (taken (request config.push endpoint body) ends n) with
      | skipped => exact absurd outcome (verdict_ne_skipped _)
      | succeeded => exact .inl ⟨rfl, ofResult_succeeded⟩
      | failed => exact .inr ⟨nofun, ofResult_failed⟩
  case forced =>
    intro token force force' registers m _ carrier
    simp only [Invocation.run, loaded, registers]
    rw [execute_register_force accepted derived carrier config.push now source token force,
      execute_register_force accepted derived carrier config.push now source token force']

end SealedPost.CommandLine

/-! ## A relay that does not answer at once -/

namespace SealedPost.CommandLine
open Relay Text

/-- The second attempt is the first that is answered. -/
def slowly (answer : String) : Nat → Exchange
  | 0 => .timeout
  | 1 => .response 200 (some (utf8 answer))
  | _ => .response 502 none

theorem slowly_answers {answer : String} {v : Json} (parsed : Json.ofText? answer = some v) :
    (slowly answer 1).Answers v :=
  ⟨utf8 answer, answer.toList, rfl, readUtf8?_eq_some_iff.2 rfl, by rwa [String.ofList_toList]⟩

theorem slowly_not_answers (answer : String) (v : Json) : ¬(slowly answer 0).Answers v := by
  rintro ⟨_, _, ended, -⟩
  cases ended

/-- An attempt that times out is made up for by the next one. -/
theorem registration_follows_reply_slowly :
    let call : Invocation := ⟨.register "01000000000000000000000000000000" "t" false, none, none⟩
    let answer := "\x7b\"code\":0,\"message\":\"hi\"\x7d"
    (call.run (carryTo (answeringFrom fun i => (slowly answer i).reply)) 0 [] none
        fun _ => none).run [] =
      (⟨0, "\x7b\n  \"status\": \"succeeded\"\n\x7d\n", ""⟩,
        taken (request .default .register (registerBody "t" Messenger.writer.sessionId))
          (slowly answer) 2) := by
  intro call answer
  have accepted : Seed.ofHex "01000000000000000000000000000000" = .ok ⟨Octets.ofNat 16 1⟩ :=
    Seed.ofHex_eq_ok_iff.2 (by decide +kernel)
  have loaded : ClientConfig.load none (fun _ => none) call.logLevel = .ok .default := by decide
  have asks : Asks "01000000000000000000000000000000" Messenger.writer.sessionId call.command
      .register (registerBody "t" Messenger.writer.sessionId) := .register "t" false
  have parsed : Json.ofText? answer =
      some (.obj [("code", .int 0), ("message", .str "hi")]) := by cbv
  have answers := slowly_answers parsed
  obtain ⟨⟨n, report, ran, stops, -, outcome⟩, -⟩ := registration_follows_reply accepted
    Messenger.ofSeed_writer loaded asks (slowly answer) 0 []
  have last : n = 2 := by
    have positive := stops.positive
    by_contra other
    rcases Nat.lt_or_ge n 2 with few | many
    · obtain rfl : n = 1 := by omega
      obtain ⟨v, early⟩ := stops.answered (by decide)
      exact slowly_not_answers answer v early
    · exact stops.unanswered 1 (by omega) _ answers
  have confirms : FirstConfirms (slowly answer)
      ClientConfig.default.push.maxRetryCount.toNat := by
    refine ⟨1, by decide, ?_, _, answers, _, rfl, rfl⟩
    intro j before v
    obtain rfl : j = 0 := by omega
    exact slowly_not_answers answer v
  rcases outcome with ⟨-, succeeded⟩ | ⟨refused, -⟩
  · rw [last, succeeded] at ran
    exact ran
  · exact absurd confirms refused

end SealedPost.CommandLine

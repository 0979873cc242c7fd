import SealedPost.Relay.Exchange
import SealedPost.Proofs.Json.Record
import SealedPost.Proofs.Relay.Requests

/-!
# What is asked, by how attempts end

Over HTTP an attempt is answered only by a status of 200 with a JSON text (`Exchange.Answers`). So
how the attempts end, one after the other, says when they stop (`StopsAfter`), what is asked of a
relay in one block (`block_eq_taken`), and what comes of it: a success exactly if the first answer
is in time and confirms what was asked for (`StopsAfter.verdict_taken`).
-/

namespace SealedPost.Relay

/-! ## Answers -/

/-- The attempt is answered with this value: it ends with status 200 and a body that is its text. -/
def Exchange.Answers (e : Exchange) (v : Json) : Prop :=
  ∃ body cs, e = .response 200 (some body) ∧ Text.readUtf8? body = some cs ∧
    Json.ofText? (String.ofList cs) = some v

theorem Exchange.reply_eq_ok_iff {e : Exchange} {v : Json} : e.reply = .ok v ↔ e.Answers v := by
  constructor
  · intro replied
    unfold reply at replied
    split at replied
    · cases replied
    · cases replied
    · rename_i status body
      split at replied
      · rename_i isSuccess
        obtain rfl : status = 200 := isSuccess
        split at replied
        · rename_i read
          obtain rfl := Except.ok.inj replied
          obtain ⟨cs, text, parsed⟩ := Option.bind_eq_some_iff.1 read
          obtain ⟨bytes, rfl, decoded⟩ := Option.bind_eq_some_iff.1 text
          exact ⟨bytes, cs, rfl, decoded, parsed⟩
        · cases replied
      · cases replied
  · rintro ⟨body, cs, rfl, decoded, parsed⟩
    simp [reply, success, decoded, parsed]

/-- The value says that what was asked for is done. -/
def Confirms (v : Json) : Prop :=
  ∃ members, v = .obj members ∧ members.lookup "code" = some (.int 0)

theorem isSuccess_ofJson_iff {v : Json} : (Response.ofJson v).isSuccess = true ↔ Confirms v := by
  have coded : (Response.ofJson v).isSuccess = true ↔ v.member? "code" = some (.int 0) := by
    rw [Response.isSuccess, decide_eq_true_eq, Response.ofJson, Option.bind_eq_some_iff]
    simp [Json.int64?_eq_some_iff]
  rw [coded]
  unfold Json.member? Confirms
  cases v <;> simp

/-! ## When attempts stop -/

/-- Attempts that end like this stop after `n` of them: none but the last is answered, and that one
is, unless no more are allowed. -/
structure StopsAfter (ends : Nat → Exchange) (limit n : Nat) : Prop where
  positive : 0 < n
  within : n ≤ limit
  unanswered : ∀ i, i + 1 < n → ∀ v, ¬(ends i).Answers v
  answered : n < limit → ∃ v, (ends (n - 1)).Answers v

/-- The first answer, if it comes in time, confirms what was asked for. -/
def FirstConfirms (ends : Nat → Exchange) (limit : Nat) : Prop :=
  ∃ i < limit, (∀ j < i, ∀ v, ¬(ends j).Answers v) ∧ ∃ v, (ends i).Answers v ∧ Confirms v

/-- Only the last of the attempts can be answered, so it is this answer that comes first. -/
theorem StopsAfter.firstConfirms_iff {ends : Nat → Exchange} {limit n : Nat}
    (h : StopsAfter ends limit n) :
    FirstConfirms ends limit ↔ ∃ v, (ends (n - 1)).Answers v ∧ Confirms v := by
  have positive := h.positive
  constructor
  · rintro ⟨i, within, first, v, answers, confirms⟩
    have last : i = n - 1 := by
      rcases Nat.lt_trichotomy i (n - 1) with before | last | after
      · exact absurd answers (h.unanswered i (by omega) v)
      · exact last
      · obtain ⟨w, earlier⟩ := h.answered (by omega)
        exact absurd earlier (first _ after w)
    exact ⟨v, last ▸ answers, confirms⟩
  · rintro ⟨v, answers, confirms⟩
    have within := h.within
    refine ⟨n - 1, by omega, ?_, v, answers, confirms⟩
    intro j before
    exact h.unanswered j (by omega)

/-! ## Transcripts -/

/-- The first attempts at a request. -/
def taken (r : Request) (ends : Nat → Exchange) (n : Nat) : Transcript :=
  (List.range n).map fun i => ⟨r, (ends i).reply⟩

section
variable {r : Request} {ends : Nat → Exchange} {limit n : Nat}

theorem length_taken : (taken r ends n).length = n := by
  rw [taken, List.length_map, List.length_range]

theorem request_of_mem_taken {a : Attempt} (mem : a ∈ taken r ends n) : a.request = r := by
  obtain ⟨i, -, rfl⟩ := List.mem_map.1 mem
  rfl

theorem mem_dropLast_taken {i : Nat} (more : i + 1 < n) :
    (⟨r, (ends i).reply⟩ : Attempt) ∈ (taken r ends n).dropLast := by
  obtain ⟨m, rfl⟩ := Nat.exists_eq_succ_of_ne_zero (Nat.ne_of_gt (Nat.zero_lt_of_lt more))
  rw [taken, List.range_succ, List.map_append, List.map_singleton, List.dropLast_concat]
  exact List.mem_map.2 ⟨i, List.mem_range.2 (Nat.lt_of_succ_lt_succ more), rfl⟩

theorem getLast?_taken (positive : 0 < n) :
    (taken r ends n).getLast? = some ⟨r, (ends (n - 1)).reply⟩ := by
  rw [taken, List.getLast?_map, List.getLast?_range, if_neg (Nat.ne_of_gt positive)]
  rfl

/-- Attempts at one request are told apart by their replies alone. -/
theorem eq_taken {made : Transcript} (alike : ∀ a ∈ made, a.request = r)
    (takes : Takes (fun i => (ends i).reply) 0 made) : made = taken r ends made.length := by
  have same : made.map (fun a => (⟨r, a.reply⟩ : Attempt)) = made.map id :=
    List.map_congr_left fun a mem => by rw [← alike a mem]; rfl
  calc made = made.map (fun a => (⟨r, a.reply⟩ : Attempt)) := by rw [same, List.map_id]
    _ = (made.map Attempt.reply).map fun reply => ⟨r, reply⟩ := by rw [List.map_map]; rfl
    _ = taken r ends made.length := by
      rw [takes, List.map_map, taken, List.range_eq_range']
      rfl

/-- A block of attempts stops when it should. -/
theorem IsBlock.stopsAfter (h : IsBlock limit r (taken r ends n)) : StopsAfter ends limit n := by
  have positive : 0 < n := by
    have := List.length_pos_iff.2 h.ne_nil
    rwa [length_taken] at this
  refine ⟨positive, ?within, ?unanswered, ?answered⟩
  case within =>
    have := h.length_le
    rwa [length_taken] at this
  case unanswered =>
    intro i more v answers
    obtain ⟨e, failed⟩ := h.failed _ (mem_dropLast_taken more)
    rw [Exchange.reply_eq_ok_iff.2 answers] at failed
    cases failed
  case answered =>
    intro early
    obtain ⟨last, hlast, ends⟩ := h.ends
    rw [getLast?_taken positive] at hlast
    obtain rfl := Option.some.inj hlast
    rcases ends with ⟨v, replied⟩ | full
    · exact ⟨v, Exchange.reply_eq_ok_iff.1 replied⟩
    · rw [length_taken] at full
      exact absurd full (Nat.ne_of_lt early)

/-- **What a relay is asked in one block**, by how the attempts end. -/
theorem block_eq_taken (config : PushConfig) (endpoint : Endpoint) (body : Json)
    (ends : Nat → Exchange) : ∃ n, StopsAfter ends (attemptLimit config) n ∧
      block (answeringFrom fun i => (ends i).reply) config endpoint body [] =
        taken (request config endpoint body) ends n := by
  have isBlock := isBlock_block config (answeringFrom fun i => (ends i).reply) endpoint body []
  have same := eq_taken isBlock.request_eq (takes_attempts ..)
  rw [same] at isBlock
  exact ⟨_, isBlock.stopsAfter, same⟩

/-- **What comes of these attempts** hangs on the first answer. -/
theorem StopsAfter.verdict_taken (h : StopsAfter ends limit n) :
    verdict (taken r ends n) = .succeeded ↔ FirstConfirms ends limit := by
  rw [h.firstConfirms_iff]
  simp only [← Exchange.reply_eq_ok_iff, ← isSuccess_ofJson_iff]
  rw [verdict, getLast?_taken h.positive]
  cases (ends (n - 1)).reply with
  | error e => simp
  | ok v => simp

end

end SealedPost.Relay

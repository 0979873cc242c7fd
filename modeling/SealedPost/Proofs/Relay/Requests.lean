import Mathlib.Data.List.Forall2
import SealedPost.Proofs.Relay.Transcript

/-!
# What a call asks of the relay

Against a relay that answers from a stream, whatever it is asked, the log of a call is blocks of
attempts: one for each request that the call makes, in order, each taking from the stream where
the last one stopped. `Logged` says so without regard to how the attempts are made, and leaves no
choice (`Logged.unique`); `requests_in_blocks` says which requests a registration and an
unregistration make.
-/

namespace SealedPost.Relay

/-! ## Blocks -/

/-- What comes back at one attempt after the other. -/
abbrev Replies := Nat → Except NetworkError Json

/-- A relay that answers from a stream, whatever it is asked. -/
def answeringFrom (replies : Replies) : Conduct := fun log _ => replies log.length

/-- A block of attempts at a request: all alike, none after a reply, and where there is no reply as
many as are allowed. -/
structure IsBlock (limit : Nat) (r : Request) (b : Transcript) : Prop where
  request_eq : ∀ a ∈ b, a.request = r
  failed : ∀ a ∈ b.dropLast, ∃ e, a.reply = .error e
  ends : ∃ last, b.getLast? = some last ∧ ((∃ reply, last.reply = .ok reply) ∨ b.length = limit)
  length_le : b.length ≤ limit

theorem isBlock_of_ok {limit : Nat} (positive : 0 < limit) (r : Request) (reply : Json) :
    IsBlock limit r [⟨r, .ok reply⟩] where
  request_eq := by simp
  failed := by simp
  ends := ⟨_, rfl, .inl ⟨reply, rfl⟩⟩
  length_le := positive

theorem isBlock_of_error (r : Request) (e : NetworkError) : IsBlock 1 r [⟨r, .error e⟩] where
  request_eq := by simp
  failed := by simp
  ends := ⟨_, rfl, .inr rfl⟩
  length_le := Nat.le_refl _

theorem IsBlock.ne_nil {limit : Nat} {r : Request} {b : Transcript} (h : IsBlock limit r b) :
    b ≠ [] := by
  obtain ⟨last, hlast, -⟩ := h.ends
  rintro rfl
  cases hlast

theorem IsBlock.cons {limit : Nat} {r : Request} {b : Transcript} (h : IsBlock limit r b)
    (e : NetworkError) : IsBlock (limit + 1) r (⟨r, .error e⟩ :: b) where
  request_eq := by simpa using h.request_eq
  failed := by
    rw [List.dropLast_cons_of_ne_nil h.ne_nil]
    intro a mem
    rcases List.mem_cons.1 mem with rfl | mem
    · exact ⟨e, rfl⟩
    · exact h.failed a mem
  ends := by
    obtain ⟨last, hlast, ends⟩ := h.ends
    refine ⟨last, by rw [List.getLast?_cons, hlast]; rfl, ends.imp_right fun full => ?_⟩
    rw [List.length_cons, full]
  length_le := Nat.succ_le_succ h.length_le

/-- A block that goes on after a failure goes on as a block. -/
theorem IsBlock.tail {limit : Nat} {r : Request} {a : Attempt} {b : Transcript}
    (h : IsBlock (limit + 1) r (a :: b)) (more : b ≠ []) : IsBlock limit r b where
  request_eq := fun a mem => h.request_eq a (List.mem_cons_of_mem _ mem)
  failed := by
    intro a mem
    refine h.failed a ?_
    rw [List.dropLast_cons_of_ne_nil more]
    exact List.mem_cons_of_mem _ mem
  ends := by
    obtain ⟨last, hlast, ends⟩ := h.ends
    rw [List.getLast?_cons_of_ne_nil more] at hlast
    exact ⟨last, hlast, ends.imp_right Nat.succ_inj.1⟩
  length_le := Nat.le_of_succ_le_succ h.length_le

/-- Attempts up to the first reply make a block. -/
theorem isBlock_attempts (relay : Conduct) (r : Request) (limit : Nat) (log : Transcript) :
    IsBlock (limit + 1) r (attempts relay r (limit + 1) log) := by
  induction limit generalizing log with
  | zero =>
    cases h : relay log r with
    | ok reply => rw [attempts_of_ok h]; exact isBlock_of_ok Nat.one_pos r reply
    | error e => rw [attempts_of_error h]; exact isBlock_of_error r e
  | succ limit ih =>
    cases h : relay log r with
    | ok reply => rw [attempts_of_ok h]; exact isBlock_of_ok (Nat.succ_pos _) r reply
    | error e => rw [attempts_of_error h]; exact (ih _).cons e

/-! ## Taking from the stream -/

/-- Attempts that take their replies from a stream, one after the other, from a place on. -/
def Takes (replies : Replies) (start : Nat) (made : Transcript) : Prop :=
  made.map Attempt.reply = (List.range' start made.length).map replies

theorem takes_append {replies : Replies} {start : Nat} {made later : Transcript} :
    Takes replies start (made ++ later) ↔
      Takes replies start made ∧ Takes replies (start + made.length) later := by
  unfold Takes
  rw [List.map_append, List.length_append, ← List.range'_append_1, List.map_append]
  exact ⟨fun h => List.append_inj h (by simp), fun h => by rw [h.1, h.2]⟩

theorem takes_cons {replies : Replies} {start : Nat} {a : Attempt} {made : Transcript} :
    Takes replies start (a :: made) ↔
      a.reply = replies start ∧ Takes replies (start + 1) made := by
  unfold Takes
  rw [List.map_cons, List.length_cons, List.range'_succ, List.map_cons, List.cons.injEq]

theorem takes_attempts (replies : Replies) (r : Request) (limit : Nat) (log : Transcript) :
    Takes replies log.length (attempts (answeringFrom replies) r limit log) := by
  induction limit generalizing log with
  | zero => rfl
  | succ limit ih =>
    cases h : answeringFrom replies log r with
    | ok reply =>
      rw [attempts_of_ok h, takes_cons]
      exact ⟨h.symm, rfl⟩
    | error e =>
      rw [attempts_of_error h, takes_cons]
      refine ⟨h.symm, ?_⟩
      have rest := ih (log ++ [⟨r, .error e⟩])
      rwa [List.length_append] at rest

/-- The stream leaves no choice of a block. -/
theorem IsBlock.eq_attempts {replies : Replies} {limit : Nat} {r : Request} {b : Transcript}
    (h : IsBlock limit r b) {log : Transcript} (takes : Takes replies log.length b) :
    b = attempts (answeringFrom replies) r limit log := by
  induction limit generalizing b log with
  | zero => exact absurd (List.length_eq_zero_iff.1 (Nat.le_zero.1 h.length_le)) h.ne_nil
  | succ limit ih =>
    obtain ⟨⟨asked, reply⟩, rest, rfl⟩ := List.exists_cons_of_ne_nil h.ne_nil
    obtain ⟨first, later⟩ := takes_cons.1 takes
    obtain rfl : asked = r := h.request_eq _ List.mem_cons_self
    cases found : replies log.length with
    | ok answer =>
      -- only the last attempt may have a reply
      obtain rfl : reply = .ok answer := first.trans found
      rw [attempts_of_ok (show answeringFrom replies log asked = _ from found)]
      by_cases more : rest = []
      · rw [more]
      · obtain ⟨e, failed⟩ := h.failed ⟨asked, .ok answer⟩ (by
          rw [List.dropLast_cons_of_ne_nil more]
          exact List.mem_cons_self)
        cases failed
    | error e =>
      obtain rfl : reply = .error e := first.trans found
      rw [attempts_of_error (show answeringFrom replies log asked = _ from found)]
      by_cases more : rest = []
      · -- the last attempt failed, so the limit is reached
        obtain ⟨last, hlast, ends⟩ := h.ends
        subst more
        obtain rfl := Option.some.inj hlast
        rcases ends with ⟨_, replied⟩ | full
        · cases replied
        · obtain rfl : limit = 0 := by simpa using full.symm
          rfl
      · have next : Takes replies (log ++ [(⟨asked, .error e⟩ : Attempt)]).length rest := by
          rwa [List.length_append]
        exact congrArg _ (ih (h.tail more) next)

/-! ## The log of a call -/

/-- A log of blocks, one for each of these requests in their order, that takes from a stream from a
place on. -/
structure Logged (replies : Replies) (limit start : Nat) (requests : List Request)
    (made : Transcript) : Prop where
  blocks : ∃ bs : List Transcript, List.Forall₂ (IsBlock limit) requests bs ∧ made = bs.flatten
  takes : Takes replies start made

namespace Logged
variable {replies : Replies} {limit start : Nat} {requests later : List Request}
  {made made' : Transcript}

theorem nil : Logged replies limit start [] [] := ⟨⟨[], .nil, rfl⟩, rfl⟩

theorem append (h : Logged replies limit start requests made)
    (h' : Logged replies limit (start + made.length) later made') :
    Logged replies limit start (requests ++ later) (made ++ made') where
  blocks := by
    obtain ⟨bs, blocks, rfl⟩ := h.blocks
    obtain ⟨bs', blocks', rfl⟩ := h'.blocks
    exact ⟨bs ++ bs', List.rel_append blocks blocks', List.flatten_append.symm⟩
  takes := takes_append.2 ⟨h.takes, h'.takes⟩

/-- A log begins with the block of the first request. -/
theorem cons_iff {r : Request} : Logged replies limit start (r :: requests) made ↔
    ∃ b rest, made = b ++ rest ∧ IsBlock limit r b ∧ Takes replies start b ∧
      Logged replies limit (start + b.length) requests rest := by
  constructor
  · rintro ⟨⟨bs, blocks, rfl⟩, takes⟩
    obtain ⟨b, rest, first, others, rfl⟩ := List.forall₂_cons_left_iff.1 blocks
    obtain ⟨own, takes⟩ := takes_append.1 (List.flatten_cons ▸ takes)
    exact ⟨b, rest.flatten, List.flatten_cons, first, own, ⟨rest, others, rfl⟩, takes⟩
  · rintro ⟨b, rest, rfl, first, own, ⟨bs, blocks, rfl⟩, takes⟩
    exact ⟨⟨b :: bs, .cons first blocks, rfl⟩, takes_append.2 ⟨own, takes⟩⟩

theorem length_le (h : Logged replies limit start requests made) :
    made.length ≤ requests.length * limit := by
  induction requests generalizing start made with
  | nil =>
    obtain ⟨bs, blocks, rfl⟩ := h.blocks
    cases blocks
    exact Nat.zero_le _
  | cons r rest ih =>
    obtain ⟨b, later, rfl, first, -, h⟩ := cons_iff.1 h
    have := first.length_le
    have := ih h
    rw [List.length_append, List.length_cons, Nat.succ_mul]
    omega

/-- **The requests and the stream determine the log.** -/
theorem unique (h : Logged replies limit start requests made)
    (h' : Logged replies limit start requests made') : made = made' := by
  induction requests generalizing start made made' with
  | nil =>
    obtain ⟨bs, blocks, rfl⟩ := h.blocks
    obtain ⟨bs', blocks', rfl⟩ := h'.blocks
    cases blocks
    cases blocks'
    rfl
  | cons r rest ih =>
    obtain ⟨b, later, rfl, first, own, h⟩ := cons_iff.1 h
    obtain ⟨b', later', rfl, first', own', h'⟩ := cons_iff.1 h'
    obtain ⟨log, hlog⟩ : ∃ log : Transcript, log.length = start :=
      ⟨List.replicate start ⟨r, .error .timeout⟩, List.length_replicate⟩
    obtain rfl : b = b' :=
      (first.eq_attempts (hlog ▸ own)).trans (first'.eq_attempts (hlog ▸ own')).symm
    rw [ih h h']

end Logged

/-! ## Requests -/

variable (replies : Replies) (config : PushConfig)

theorem attemptLimit_pos : 0 < attemptLimit config := Nat.le_max_left _ _

theorem isBlock_block (relay : Conduct) (endpoint : Endpoint) (body : Json) (log : Transcript) :
    IsBlock (attemptLimit config) (request config endpoint body)
      (block relay config endpoint body log) := by
  obtain ⟨limit, positive⟩ := Nat.exists_eq_succ_of_ne_zero (Nat.ne_of_gt (attemptLimit_pos config))
  rw [block, positive]
  exact isBlock_attempts ..

end SealedPost.Relay

import Mathlib.Logic.Function.Basic
import SealedPost.Proofs.Poller.Books
import SealedPost.Proofs.Poller.Flag

/-!
# A poller on a clock

The actions of a poller in any order, on a clock that counts milliseconds. The first tick of a timer
is due when the timer is installed, and each later one a period after the last. A tick comes when it
is due, and time does not go past it; nor does it pass while a cycle or a chain waits to begin.
All else can come at any time: starts, stops and calls between any two segments, and the answers
of the network however late.

- `Clocked.step`, `Clocked.Run`: what happens on the clock, and any course of it.
- `Clocked.Run.run`: without its times it is a run of the poller, and no timer in it dies.
-/

namespace SealedPost.Poller

/-- A move, and when it was made. -/
structure TimedMove extends Move where
  time : Nat

/-- A poller on a clock. -/
structure Clocked where
  now : Nat
  state : State
  /-- When each timer ticks next. -/
  due : Nat → Nat

/-- Something is done, or some time passes. -/
inductive Stroke
  | act (view : Context) (action : Action)
  | wait (ms : Nat)

namespace Clocked

def idle : Clocked := ⟨0, .idle, fun _ => 0⟩

/-- No cycle and no chain waits to begin. -/
def rests (c : Clocked) : Bool := c.state.ordered.isEmpty && c.state.waiting.isEmpty

/-- Whether an action can come now. A timer with a period does not die. -/
def permits (c : Clocked) : Action → Bool
  | .tick t => c.due t = c.now
  | .die _ => false
  | _ => true

/-- When each timer ticks next, after an action. -/
def dueAfter (period : Nat) (c : Clocked) : Action → Nat → Nat
  | .start => if c.state.polling then c.due else Function.update c.due c.state.next c.now
  | .tick t => Function.update c.due t (c.now + period)
  | _ => c.due

/-- What happens, and what others see of it; none if it cannot happen now. -/
def step (period : Nat) (c : Clocked) : Stroke → Option (List TimedMove × Clocked)
  | .act view a =>
    match c.state.step view a with
    | some (s, es) =>
      if c.permits a then some ([⟨⟨view, a, es⟩, c.now⟩], ⟨c.now, s, c.dueAfter period a⟩)
      else none
    | none => none
  | .wait ms =>
    if c.rests && c.state.timers.all fun t => c.now + ms ≤ c.due t then
      some ([], { c with now := c.now + ms })
    else none

/-- Moves that lead from `c` to another time and state. -/
inductive Run (period : Nat) (c : Clocked) : List TimedMove → Clocked → Prop
  | nil : Run period c [] c
  | snoc {moves more : List TimedMove} {c₁ c₂ : Clocked} (stroke : Stroke) :
      Run period c moves c₁ → c₁.step period stroke = some (more, c₂) →
        Run period c (moves ++ more) c₂

/-- Where a start leads to that finds the flag clear. -/
def start (c : Clocked) : Clocked :=
  ⟨c.now, c.state.start.1, Function.update c.due c.state.next c.now⟩

/-- Where a stop leads to. -/
def stop (c : Clocked) : Clocked := { c with state := c.state.stop }

/-! ## One stroke -/

/-- **What a stroke can do.** -/
inductive Struck (period : Nat) (c : Clocked) : List TimedMove → Clocked → Prop
  | act {view : Context} {a : Action} {s : State} {es : List Event} (permitted : c.permits a = true)
      (step : c.state.step view a = some (s, es)) :
      Struck period c [⟨⟨view, a, es⟩, c.now⟩] ⟨c.now, s, c.dueAfter period a⟩
  | wait {ms : Nat} (unordered : c.state.ordered = []) (begun : c.state.waiting = [])
      (near : ∀ t ∈ c.state.timers, c.now + ms ≤ c.due t) :
      Struck period c [] { c with now := c.now + ms }

variable {period : Nat} {c c₁ c' : Clocked} {moves more : List TimedMove}

theorem rests_iff : c.rests = true ↔ c.state.ordered = [] ∧ c.state.waiting = [] := by
  simp [rests]

theorem hasPeriod_of_permits {a : Action} (permitted : c.permits a = true) :
    a.hasPeriod = true := by
  cases a with
  | die => cases permitted
  | start | stop | call | tick | begin | lookup | lookedUp | fetched | collect => rfl

theorem dueAfter_eq {a : Action} (started : a = .start → c.state.polling = true)
    (other : ∀ t, a ≠ .tick t) : c.dueAfter period a = c.due := by
  cases a with
  | start => exact if_pos (started rfl)
  | tick t => exact absurd rfl (other t)
  | stop | call | die | begin | lookup | lookedUp | fetched | collect => rfl

theorem struck_of_step {stroke : Stroke} (h : c.step period stroke = some (more, c')) :
    Struck period c more c' := by
  cases stroke with
  | act view a =>
    simp only [step] at h
    split at h
    · rename_i s es done
      split at h
      · rename_i permitted
        cases h
        exact .act permitted done
      · cases h
    · cases h
  | wait ms =>
    simp only [step, Option.ite_none_right_eq_some, Bool.and_eq_true, List.all_eq_true,
      decide_eq_true_eq] at h
    obtain ⟨⟨rests, near⟩, same⟩ := h
    cases same
    obtain ⟨unordered, begun⟩ := rests_iff.1 rests
    exact .wait unordered begun near

theorem step_start (view : Context) (idle : c.state.polling = false) :
    c.step period (.act view .start) =
      some ([⟨⟨view, .start, c.state.start.2⟩, c.now⟩], c.start) := by
  simp [step, State.step, permits, dueAfter, idle, start]

theorem step_stop (view : Context) :
    c.step period (.act view .stop) = some ([⟨⟨view, .stop, []⟩, c.now⟩], c.stop) := rfl

/-- While the flag is set another start does nothing. -/
theorem step_start_of_polling (view : Context) (active : c.state.polling = true) :
    c.step period (.act view .start) = some ([⟨⟨view, .start, []⟩, c.now⟩], c) := by
  simp [step, State.step, State.start, permits, dueAfter, active]

/-- While the flag is set a single call returns at once and with nothing, and does nothing else. -/
theorem step_call_of_polling (view : Context) (id : Nat) (active : c.state.polling = true) :
    c.step period (.act view (.call id)) =
      some ([⟨⟨view, .call id, [.returned id []]⟩, c.now⟩], c) := by
  simp [step, State.step, State.call, permits, dueAfter, active]

/-! ## Runs -/

namespace Run

theorem append (run : Run period c moves c₁) (later : Run period c₁ more c') :
    Run period c (moves ++ more) c' := by
  induction later with
  | nil => rwa [List.append_nil]
  | snoc stroke _ step ih =>
    rw [← List.append_assoc]
    exact .snoc stroke ih step

theorem one {stroke : Stroke} (step : c.step period stroke = some (more, c')) :
    Run period c more c' := Run.nil.snoc stroke step

/-- **Without its times a run on the clock is a run**, and no timer in it dies. -/
theorem run (run : Run period c moves c') :
    Poller.Run c.state (moves.map TimedMove.toMove) c'.state ∧
      ∀ m ∈ moves.map TimedMove.toMove, m.action.hasPeriod = true := by
  induction run with
  | nil => exact ⟨.nil, nofun⟩
  | snoc stroke _ step ih =>
    obtain ⟨before, period⟩ := ih
    rw [List.map_append]
    cases struck_of_step step with
    | @act view a s es permitted done =>
      refine ⟨before.snoc ⟨view, a, es⟩ done, List.forall_mem_append.2 ⟨period, ?_⟩⟩
      exact List.forall_mem_singleton.2 (hasPeriod_of_permits permitted)
    | wait =>
      rw [List.map_nil, List.append_nil]
      exact ⟨before, period⟩

theorem numbered (run : Run period c moves c') (h : Numbered c.state) : Numbered c'.state :=
  run.run.1.numbered h

end Run

/-! ## Playing a run -/

/-- What happens on the clock, one stroke after the other; none if one cannot happen. -/
def play (period : Nat) : List Stroke → Clocked → Option (List TimedMove × Clocked)
  | [], c => some ([], c)
  | stroke :: rest, c =>
    match c.step period stroke with
    | none => none
    | some (more, c₁) => (play period rest c₁).map fun r => (more ++ r.1, r.2)

theorem play_run (strokes : List Stroke) (h : play period strokes c = some (moves, c')) :
    Run period c moves c' := by
  induction strokes generalizing c moves with
  | nil => cases h; exact .nil
  | cons stroke rest ih =>
    simp only [play] at h
    split at h
    · cases h
    · rename_i more c₁ step
      obtain ⟨⟨later, c₂⟩, played, same⟩ := Option.map_eq_some_iff.1 h
      cases same
      exact (Run.one step).append (ih played)

end Clocked

end SealedPost.Poller

import Mathlib.Algebra.GroupWithZero.Nat
import SealedPost.Curve.Curve25519
import SealedPost.Poller.Timeline
import SealedPost.Proofs.Poller.Clock

/-!
# The schedule of a timer

A start that finds the flag clear installs a timer, and the cycles that this timer orders begin at
the start and then once every period, until somebody stops or drops the poller: whatever is
done meanwhile and in whatever order, however late the answers, and however the time is divided
(`cycles_on_schedule`). They are all the cycles that begin if nothing was left to begin at the start.
If a cycle of an earlier timer was, it begins as well, because the flag is set again
(`cycles_off_schedule`).

- `Phase`: where the timer is between two of its cycles.
- `Window.strike`: what happens next begins the cycle that is due, or none of the timer.
- `Run.lookups`: a cycle looks up the nodes of every group that is known when it begins.
-/

namespace SealedPost.Poller

/-- A cycle that began: when, and the groups that were known then. -/
structure Begun where
  cycle : Nat
  time : Nat
  groups : List String

/-- The lookups of a cycle: when, and for which group. -/
def Begun.lookups (b : Begun) : List (Nat × String) := b.groups.map fun group => (b.time, group)

/-- The cycle that an event orders for a timer. -/
def Event.orderedBy? (t : Nat) : Event → Option Nat
  | .ordered k n => if k = t then some n else none
  | _ => none

/-- The cycles that wait to begin and were ordered after a timer was installed. -/
def State.later (t : Nat) (s : State) : List Nat := s.ordered.filter fun n => t < n

/-- While the flag is set, a tick is one of the timer that is installed, and orders a cycle. -/
theorem step_tick {view : Context} {s s' : State} {es : List Event} {k t : Nat}
    (active : s.polling = true) (timers : s.timers = [t])
    (step : s.step view (.tick k) = some (s', es)) :
    k = t ∧ es = [.ordered t s.next] ∧
      s' = { s with ordered := s.ordered ++ [s.next], next := s.next + 1 } := by
  simp only [State.step, timers, List.contains_iff_mem, List.mem_singleton,
    Option.ite_none_right_eq_some, Option.some.injEq] at step
  obtain ⟨rfl, step⟩ := step
  rw [State.tick, if_pos active] at step
  obtain ⟨rfl, rfl⟩ := Prod.mk.inj step
  exact ⟨rfl, rfl, rfl⟩

/-- Where no event orders a cycle, none does for a timer. -/
theorem filterMap_orderedBy {es : List Event} (t : Nat) (none : es.filterMap Event.ordered? = []) :
    es.filterMap (Event.orderedBy? t) = [] := by
  refine List.filterMap_eq_nil_iff.2 fun e mem => ?_
  have silent := List.filterMap_eq_nil_iff.1 none e mem
  cases e with
  | ordered => cases silent
  | started | fannedOut | lookup | fetch | delivered | finished | returned => rfl

namespace Clocked

/-! ## What moves tell -/

/-- The cycles that began. -/
def cyclesOf (moves : List TimedMove) : List Begun :=
  moves.flatMap fun m => (m.events.filterMap Event.fanned?).map fun n => ⟨n, m.time, m.view.groups⟩

/-- The lookups that began: when, and for which group. -/
def lookupsOf (moves : List TimedMove) : List (Nat × String) :=
  moves.flatMap fun m => (m.events.filterMap Event.asked?).map fun x => (m.time, x.2)

/-- The cycles that a timer ordered. -/
def orderedBy (t : Nat) (moves : List TimedMove) : List Nat :=
  moves.flatMap fun m => m.events.filterMap (Event.orderedBy? t)

/-- The cycles that a timer ordered and that began. -/
def cyclesBy (t : Nat) (moves : List TimedMove) : List Begun :=
  (cyclesOf moves).filter fun b => b.cycle ∈ orderedBy t moves

/-- The cycles that began and were ordered after a timer was installed. -/
def cyclesAfter (t : Nat) (moves : List TimedMove) : List Begun :=
  (cyclesOf moves).filter fun b => t < b.cycle

/-- The lookups of chains that have not begun, as if they all began now. -/
def pending (c : Clocked) : List (Nat × String) := c.state.waiting.map fun x => (c.now, x.2)

/-- The times of `k` cycles, one every period. -/
def beats (period due k : Nat) : List Nat := (List.range k).map fun i => due + i * period

section
variable {period t : Nat} {c c' : Clocked} {moves more : List TimedMove}

theorem cyclesOf_append (moves more : List TimedMove) :
    cyclesOf (moves ++ more) = cyclesOf moves ++ cyclesOf more := List.flatMap_append

theorem lookupsOf_append (moves more : List TimedMove) :
    lookupsOf (moves ++ more) = lookupsOf moves ++ lookupsOf more := List.flatMap_append

theorem orderedBy_append (t : Nat) (moves more : List TimedMove) :
    orderedBy t (moves ++ more) = orderedBy t moves ++ orderedBy t more := List.flatMap_append

theorem cyclesAfter_append (t : Nat) (moves more : List TimedMove) :
    cyclesAfter t (moves ++ more) = cyclesAfter t moves ++ cyclesAfter t more := by
  rw [cyclesAfter, cyclesOf_append, List.filter_append]
  rfl

theorem beats_add (period due k j : Nat) :
    beats period due (k + j) = beats period due k ++ beats period (due + k * period) j := by
  rw [beats, List.range_add, List.map_append, List.map_map]
  congr 1
  refine List.map_congr_left fun i _ => ?_
  simp only [Function.comp_apply, Nat.add_mul]
  omega

/-! ## The round of a timer -/

/-- **Where a timer is in its round**, with the time at which its next cycle begins. -/
inductive Phase (period t due : Nat) (c : Clocked) : Prop
  /-- Its tick is to come. -/
  | ticks (next : c.due t = due) (none : c.state.later t = []) (early : c.now ≤ due)
      (near : due ≤ c.now + period)
  /-- It has ordered a cycle, which waits to begin. -/
  | begins {n : Nat} (next : c.due t = due + period) (waits : c.state.later t = [n])
      (punctual : c.now = due)

theorem Phase.le {due : Nat} (h : Phase period t due c) : c.now ≤ due ∧ due ≤ c.now + period := by
  cases h with
  | ticks _ _ early near => exact ⟨early, near⟩
  | begins _ _ punctual => omega

/-- **What holds while the timer `t` is installed**, after moves since its start. These cycles waited
to begin at its start. -/
structure Window (period t due : Nat) (left : List Nat) (moves : List TimedMove) (c : Clocked) :
    Prop where
  numbered : Numbered c.state
  coherent : Coherent c.state
  timer : c.state.timer = some t
  given : t < c.state.next
  phase : Phase period t due c
  waits : ∀ n ∈ c.state.ordered, n ∈ left ∨ n ∈ orderedBy t moves
  begun : ∀ b ∈ cyclesOf moves, b.cycle ∈ left ∨ b.cycle ∈ orderedBy t moves
  earlier : ∀ n ∈ left, ¬t < n
  since : ∀ n ∈ orderedBy t moves, t < n

namespace Window
variable {due : Nat} {left : List Nat}

theorem active (window : Window period t due left moves c) : c.state.polling = true :=
  window.coherent.polling_of_timer (by rw [window.timer]; rfl)

theorem timers_eq (window : Window period t due left moves c) : c.state.timers = [t] := by
  rw [window.coherent.timers_eq, window.timer]
  rfl

theorem cyclesBy_eq (window : Window period t due left moves c) :
    cyclesBy t moves = cyclesAfter t moves :=
  List.filter_congr fun b mem => by
    have iff : b.cycle ∈ orderedBy t moves ↔ t < b.cycle :=
      ⟨window.since _, fun after =>
        (window.begun b mem).resolve_left fun old => window.earlier _ old after⟩
    simp [iff]

/-- **A tick is that of the timer**, when it is due, and orders the next cycle. -/
theorem tick {k : Nat} {view : Context} {s : State} {es : List Event}
    (window : Window period t due left moves c) (positive : 0 < period)
    (permitted : c.permits (.tick k) = true) (step : c.state.step view (.tick k) = some (s, es)) :
    cyclesAfter t [⟨⟨view, .tick k, es⟩, c.now⟩] = [] ∧
      Window period t due left (moves ++ [⟨⟨view, .tick k, es⟩, c.now⟩])
        ⟨c.now, s, c.dueAfter period (.tick k)⟩ := by
  have effects := step_effects window.numbered step
  have coherent := effects.coherent rfl window.numbered window.coherent
  obtain ⟨rfl, rfl, rfl⟩ := step_tick window.active window.timers_eq step
  have due_eq : c.due k = c.now := of_decide_eq_true permitted
  have ordered : orderedBy k [⟨⟨view, .tick k, [.ordered k c.state.next]⟩, c.now⟩] =
      [c.state.next] := by simp [orderedBy, Event.orderedBy?]
  have given := window.given
  refine ⟨rfl, effects.numbered window.numbered, coherent, window.timer,
    Nat.lt_succ_of_lt given, ?_, ?_, ?_, window.earlier, ?_⟩
  · cases window.phase with
    | ticks next none =>
      have punctual : c.now = due := due_eq.symm.trans next
      refine .begins (n := c.state.next) ?_ ?_ punctual
      · simp [dueAfter, punctual]
      · rw [State.later] at none ⊢
        rw [List.filter_append, none]
        simpa using given
    | begins next _ punctual => omega
  · intro n mem
    rw [orderedBy_append, ordered]
    refine (List.mem_append.1 mem).elim (fun old => ?_) fun new => .inr (List.mem_append_right _ new)
    exact (window.waits n old).imp_right (List.mem_append_left _)
  · intro b mem
    rw [cyclesOf_append] at mem
    rw [orderedBy_append]
    refine (List.mem_append.1 mem).elim (fun old => ?_) fun new => by cases new
    exact (window.begun b old).imp_right (List.mem_append_left _)
  · intro n mem
    rw [orderedBy_append, ordered] at mem
    refine (List.mem_append.1 mem).elim (window.since n) fun new => ?_
    rwa [List.mem_singleton.1 new]

section
variable {view : Context} {a : Action} {s : State} {es : List Event}

/-- Other actions order no cycle, and begin none but those that wait. -/
theorem goes (window : Window period t due left moves c) (unstopped : a ≠ .stop)
    (other : ∀ k, a ≠ .tick k) (permitted : c.permits a = true)
    (step : c.state.step view a = some (s, es)) {due' : Nat}
    (phase : Phase period t due' ⟨c.now, s, c.dueAfter period a⟩) :
    Window period t due' left (moves ++ [⟨⟨view, a, es⟩, c.now⟩])
      ⟨c.now, s, c.dueAfter period a⟩ := by
  have effects := step_effects window.numbered step
  have books := effects.books window.numbered
  have silent : orderedBy t (moves ++ [⟨⟨view, a, es⟩, c.now⟩]) = orderedBy t moves := by
    have none := filterMap_orderedBy t (books.unordered other)
    rw [orderedBy_append, orderedBy, orderedBy, List.flatMap_singleton, none, List.append_nil]
  refine ⟨effects.numbered window.numbered, effects.coherent (hasPeriod_of_permits permitted)
      window.numbered window.coherent, ?_, Nat.lt_of_lt_of_le window.given effects.next_le, phase,
    ?_, ?_, window.earlier, silent ▸ window.since⟩
  · exact (books.timer_eq (fun _ => window.active) unstopped).trans window.timer
  · rw [silent, books.ordered, books.unordered other, List.append_nil]
    exact fun n mem => window.waits n (List.mem_of_mem_filter mem)
  · rw [silent, cyclesOf_append]
    intro b mem
    refine (List.mem_append.1 mem).elim (window.begun b) fun new => ?_
    rw [cyclesOf, List.flatMap_singleton, effects.fanned window.active] at new
    obtain ⟨n, begins, rfl⟩ := List.mem_map.1 new
    exact window.waits n (books.waits n (Option.mem_toList.1 begins))

/-- **Of the timer's cycles only the one that is due begins**, whatever is done but a tick. -/
theorem act (window : Window period t due left moves c) (unstopped : a ≠ .stop)
    (other : ∀ k, a ≠ .tick k) (permitted : c.permits a = true)
    (step : c.state.step view a = some (s, es)) :
    ∃ k, (cyclesAfter t [⟨⟨view, a, es⟩, c.now⟩]).map Begun.time = beats period due k ∧
      Window period t (due + k * period) left (moves ++ [⟨⟨view, a, es⟩, c.now⟩])
        ⟨c.now, s, c.dueAfter period a⟩ := by
  have effects := step_effects window.numbered step
  have books := effects.books window.numbered
  have due_eq : c.dueAfter period a = c.due := dueAfter_eq (fun _ => window.active) other
  have later : s.later t = (c.state.later t).filter fun n => a.begins? ≠ some n := by
    rw [State.later, books.ordered, books.unordered other, List.append_nil, List.filter_comm]
    rfl
  have begins : cyclesAfter t [⟨⟨view, a, es⟩, c.now⟩] =
      (a.begins?.toList.map fun n => ⟨n, c.now, view.groups⟩).filter fun b => t < b.cycle := by
    rw [cyclesAfter, cyclesOf, List.flatMap_singleton, effects.fanned window.active]
  by_cases own : ∃ n, a.begins? = some n ∧ t < n
  · obtain ⟨n, begun, after⟩ := own
    have mine : n ∈ c.state.later t :=
      List.mem_filter.2 ⟨books.waits n begun, decide_eq_true after⟩
    cases window.phase with
    | ticks _ none => rw [none] at mine; cases mine
    | @begins m next waits punctual =>
      rw [waits] at mine
      obtain rfl := List.mem_singleton.1 mine
      refine ⟨1, ?_, window.goes unstopped other permitted step (.ticks ?_ ?_ ?_ ?_)⟩
      · rw [begins, begun]
        simp [after, beats, punctual]
      · rw [due_eq, next, Nat.one_mul]
      · rw [later, waits, begun]
        simp
      · simp only [Nat.one_mul]
        omega
      · simp only [Nat.one_mul]
        omega
  · have same : s.later t = c.state.later t := by
      rw [later]
      refine List.filter_eq_self.2 fun n mem => decide_eq_true fun begun => own ⟨n, begun, ?_⟩
      exact of_decide_eq_true (List.mem_filter.1 mem).2
    refine ⟨0, ?_, window.goes unstopped other permitted step ?_⟩
    · rw [begins, List.filter_eq_nil_iff.2, List.map_nil]
      · rfl
      · intro b mem
        obtain ⟨n, begun, rfl⟩ := List.mem_map.1 mem
        simpa using fun after => own ⟨n, Option.mem_toList.1 begun, after⟩
    · rw [Nat.zero_mul, Nat.add_zero, due_eq]
      cases window.phase with
      | ticks next none early near => exact .ticks next (same.trans none) early near
      | begins next waits punctual => exact .begins next (same.trans waits) punctual

end

/-- Time passes, and not past the next tick. -/
theorem wait {ms : Nat} (window : Window period t due left moves c)
    (unordered : c.state.ordered = []) (near : ∀ t ∈ c.state.timers, c.now + ms ≤ c.due t) :
    Window period t due left moves { c with now := c.now + ms } := by
  refine { window with phase := ?_ }
  have soon : c.now + ms ≤ c.due t := by
    refine near t ?_
    rw [window.timers_eq]
    exact List.mem_singleton_self t
  cases window.phase with
  | ticks next none early late => exact .ticks next none (by simp; omega) (by simp; omega)
  | begins next waits =>
    rw [State.later, unordered] at waits
    cases waits

/-- **What happens next begins the cycle that is due**, or none of the timer. -/
theorem strike (window : Window period t due left moves c) (positive : 0 < period)
    (struck : Struck period c more c') (unstopped : ∀ m ∈ more, m.action ≠ .stop) :
    ∃ k, (cyclesAfter t more).map Begun.time = beats period due k ∧
      Window period t (due + k * period) left (moves ++ more) c' := by
  cases struck with
  | @act view a s es permitted step =>
    by_cases tick : ∃ k, a = .tick k
    · obtain ⟨k, rfl⟩ := tick
      obtain ⟨none, window⟩ := window.tick positive permitted step
      exact ⟨0, by rw [none]; rfl, by simpa using window⟩
    · exact window.act (unstopped _ (List.mem_singleton_self _)) (fun k same => tick ⟨k, same⟩)
        permitted step
  | wait unordered begun near =>
    rw [List.append_nil]
    exact ⟨0, rfl, by simpa using window.wait unordered near⟩

/-- At the start its first cycle is due. -/
theorem start (num : Numbered c.state) (coherent : Coherent c.state)
    (idle : c.state.polling = false) :
    Window period c.state.next c.now c.state.ordered [] c.start := by
  have step : c.state.step ⟨[], fun _ => .error .noData⟩ .start =
      some (c.start.state, c.state.start.2) := rfl
  have effects := step_effects num step
  have started : c.start.state = { c.state with
      polling := true
      timer := some c.state.next
      timers := c.state.timers ++ [c.state.next]
      next := c.state.next + 1 } := by
    simp [Clocked.start, State.start, idle]
  have earlier : ∀ n ∈ c.state.ordered, ¬c.state.next < n := fun n mem =>
    Nat.not_lt.2 (Nat.le_of_lt (num.cycles_lt n (List.mem_append_left _ mem)))
  refine ⟨effects.numbered num, effects.coherent rfl num coherent, ?_, ?_,
    .ticks ?_ ?_ (Nat.le_refl _) (Nat.le_add_right _ _), ?_, fun b begun => ?_, earlier,
    fun n ordered => ?_⟩
  · rw [started]
  · rw [started]
    exact Nat.lt_succ_self _
  · simp [Clocked.start]
  · rw [started]
    exact List.filter_eq_nil_iff.2 fun n mem => by simpa using earlier n mem
  · rw [started]
    exact fun n => .inl
  · cases begun
  · cases ordered

end Window

/-- **The round of a timer goes on** until the poller is stopped. -/
theorem Run.window {before : List TimedMove} {due : Nat} {left : List Nat}
    (run : Run period c moves c') (window : Window period t due left before c) (positive : 0 < period)
    (unstopped : ∀ m ∈ moves, m.action ≠ .stop) :
    ∃ k, (cyclesAfter t moves).map Begun.time = beats period due k ∧
      Window period t (due + k * period) left (before ++ moves) c' := by
  induction run with
  | nil => exact ⟨0, rfl, by simpa using window⟩
  | snoc stroke _ step ih =>
    obtain ⟨k, times, window₁⟩ := ih fun m mem => unstopped m (List.mem_append_left _ mem)
    obtain ⟨j, more, window₂⟩ := window₁.strike positive (struck_of_step step)
      fun m mem => unstopped m (List.mem_append_right _ mem)
    refine ⟨k + j, ?_, ?_⟩
    · rw [cyclesAfter_append, List.map_append, times, more, beats_add]
    · rw [Nat.add_mul, ← Nat.add_assoc, ← List.append_assoc]
      exact window₂

/-! ## Lookups -/

theorem flatMap_lookups (time : Nat) (groups : List String) (cycles : List Nat) :
    ((cycles.map fun n => Begun.mk n time groups).flatMap Begun.lookups) =
      (cycles.flatMap fun _ => groups).map fun group => (time, group) := by
  rw [List.flatMap_map, List.map_flatMap]
  rfl

/-- What begins and what has not begun, before and after. -/
theorem Struck.lookups (struck : Struck period c more c') (num : Numbered c.state) :
    (lookupsOf more ++ c'.pending).Perm (c.pending ++ (cyclesOf more).flatMap Begun.lookups) := by
  cases struck with
  | @act view a s es permitted step =>
    have books := (step_effects num step).books num
    have opened : ((cyclesOf [⟨⟨view, a, es⟩, c.now⟩]).flatMap Begun.lookups) =
        (es.flatMap (Event.opens view.groups)).map fun x => (c.now, x.2) := by
      rw [cyclesOf, List.flatMap_singleton, flatMap_lookups, ← books.groups, List.map_map]
      rfl
    rw [opened, lookupsOf, List.flatMap_singleton, pending, pending, books.waiting,
      List.map_append, ← List.append_assoc, ← List.map_append]
    exact (books.asked.map _).append_right _
  | wait _ begun => simp [lookupsOf, cyclesOf, pending, begun]

/-- **A cycle looks up the nodes of every group that is known when it begins**, and nothing else
looks up anything: what has not begun yet is waiting. -/
theorem Run.lookups (run : Run period c moves c') (num : Numbered c.state) :
    (lookupsOf moves ++ c'.pending).Perm (c.pending ++ (cyclesOf moves).flatMap Begun.lookups) := by
  induction run with
  | nil => simp [lookupsOf, cyclesOf]
  | snoc stroke before step ih =>
    have one := (struck_of_step step).lookups (before.numbered num)
    rw [lookupsOf_append, cyclesOf_append, List.flatMap_append, List.append_assoc]
    refine (one.append_left _).trans ?_
    rw [← List.append_assoc, ← List.append_assoc]
    exact ih.append_right _

/-! ## Counting -/

/-- The times of cycles up to a span after the first, if it has passed. -/
theorem length_filter_beats (positive : 0 < period) (due : Nat) {span k : Nat}
    (within : span < k * period) :
    ((beats period due k).filter fun time => time ≤ due + span).length = span / period + 1 := by
  have le : span / period + 1 ≤ k := Nat.div_lt_of_lt_mul (by rwa [Nat.mul_comm])
  have early : ∀ i, due + i * period ≤ due + span ↔ i < span / period + 1 := by
    intro i
    rw [Nat.add_le_add_iff_left, Nat.lt_succ_iff, Nat.le_div_iff_mul_le positive]
  have count : ∀ k m, ((List.range k).filter fun i => i < m).length = min k m := by
    intro k m
    induction k with
    | zero => simp
    | succ k ih =>
      rw [List.range_succ, List.filter_append, List.length_append, ih]
      by_cases lt : k < m
      · simp [lt]; omega
      · simp [lt]; omega
  rw [beats, List.filter_map, List.length_map]
  have same : ((List.range k).filter ((fun time => decide (time ≤ due + span)) ∘
      fun i => due + i * period)) = (List.range k).filter fun i => i < span / period + 1 :=
    List.filter_congr fun i _ => by simp [early]
  rw [same, count, Nat.min_eq_right le]

/-- As many lookups as there were groups, up to any time. -/
theorem length_filter_lookups (cycles : List Begun) (time : Nat) :
    ((cycles.flatMap Begun.lookups).filter fun l => l.1 ≤ time).length =
      ((cycles.filter fun b => b.time ≤ time).map fun b => b.groups.length).sum := by
  induction cycles with
  | nil => rfl
  | cons b rest ih =>
    rw [List.flatMap_cons, List.filter_append, List.length_append, ih]
    by_cases early : b.time ≤ time
    · simp [early, Begun.lookups, List.filter_map, Function.comp_def]
    · simp [early, Begun.lookups, List.filter_map, Function.comp_def]

/-! ## The schedule -/

/-- **What a poller does while its timer is installed**: it was idle at `c`, and these moves have
been made since it was started there. -/
structure OnSchedule (period : Nat) (c : Clocked) (moves : List TimedMove) (c' : Clocked) :
    Prop where
  installed : c'.state.timer = some c.state.next ∧ c'.state.polling = true
  /-- The cycles of its timer begin at the start and once every period, up to now. -/
  times : ∃ k, (cyclesBy c.state.next moves).map Begun.time =
      (List.range k).map (fun i => c.now + i * period) ∧
    c'.now ≤ c.now + k * period ∧ c.now + k * period ≤ c'.now + period
  /-- So their number is known for any span that has passed. -/
  number : ∀ span, c.now + span < c'.now →
    ((cyclesBy c.state.next moves).filter fun b => b.time ≤ c.now + span).length =
      span / period + 1
  /-- If nothing waited to begin at the start, no other cycles begin. -/
  only : c.rests = true → cyclesOf moves = cyclesBy c.state.next moves
  /-- Then each cycle looks up the nodes of every group that is known when it begins, and nothing
  else looks up anything. -/
  lookups : c.rests = true →
    (lookupsOf moves ++ c'.pending).Perm ((cyclesOf moves).flatMap Begun.lookups)
  /-- So the number of lookups is known too. -/
  asked : c.rests = true → ∀ span, c.now + span < c'.now →
    ((lookupsOf moves).filter fun l => l.1 ≤ c.now + span).length =
      (((cyclesOf moves).filter fun b => b.time ≤ c.now + span).map fun b => b.groups.length).sum
  /-- Another start does nothing. -/
  start_eq : ∀ view, c'.step period (.act view .start) = some ([⟨⟨view, .start, []⟩, c'.now⟩], c')
  /-- A single call returns at once and with nothing, and does nothing else. -/
  call_eq : ∀ view id, c'.step period (.act view (.call id)) =
    some ([⟨⟨view, .call id, [.returned id []]⟩, c'.now⟩], c')
  /-- A stop leaves the poller idle, to be started anew. -/
  stopped : c'.stop.state.polling = false ∧ c'.stop.now = c'.now

/-- What a poller has done since it was started and not been stopped is on schedule. -/
theorem Run.onSchedule {before : List TimedMove} (reached : Run period .idle before c)
    (positive : 0 < period) (idle : c.state.polling = false) (run : Run period c.start moves c')
    (unstopped : ∀ m ∈ moves, m.action ≠ .stop) : OnSchedule period c moves c' := by
  have num := reached.numbered numbered_idle
  have window : Window period c.state.next c.now c.state.ordered [] c.start :=
    .start num (reached.run.1.coherent reached.run.2) idle
  obtain ⟨k, times, last⟩ := run.window window positive unstopped
  have own : cyclesBy c.state.next moves = cyclesAfter c.state.next moves := last.cyclesBy_eq
  have bounds := last.phase.le
  have active := last.active
  have only : c.rests = true → cyclesOf moves = cyclesBy c.state.next moves := by
    intro rests
    refine (List.filter_eq_self.2 fun b mem => decide_eq_true ?_).symm
    refine (last.begun b mem).resolve_left ?_
    rw [(rests_iff.1 rests).1]
    exact List.not_mem_nil
  have lookups : c.rests = true →
      (lookupsOf moves ++ c'.pending).Perm ((cyclesOf moves).flatMap Begun.lookups) := by
    intro rests
    have none : c.start.pending = [] := by
      have chains : c.start.state.waiting = c.state.waiting := by
        simp [start, State.start, idle, State.waiting]
      rw [pending, chains, (rests_iff.1 rests).2]
      rfl
    simpa [none] using run.lookups window.numbered
  exact {
    installed := ⟨last.timer, active⟩
    times := ⟨k, own ▸ times, bounds⟩
    number := fun span within => by
      rw [← length_filter_beats positive c.now (k := k) (by omega), ← times, own, List.filter_map,
        List.length_map]
      rfl
    only := only
    lookups := lookups
    asked := fun rests span within => by
      have late : c'.pending.filter (fun l => l.1 ≤ c.now + span) = [] := by
        refine List.filter_eq_nil_iff.2 fun l mem => ?_
        obtain ⟨x, -, rfl⟩ := List.mem_map.1 mem
        simpa using within
      have same := ((lookups rests).filter fun l => l.1 ≤ c.now + span).length_eq
      rwa [List.filter_append, late, List.append_nil, length_filter_lookups] at same
    start_eq := fun view => step_start_of_polling view active
    call_eq := fun view id => step_call_of_polling view id active
    stopped := ⟨rfl, rfl⟩ }

/-- **Cycles begin on schedule** from every start that finds the flag clear until the poller is
stopped, whatever is done meanwhile; and after a stop from the next such start, whatever is done
between the two. -/
theorem cycles_on_schedule {before : List TimedMove} (positive : 0 < period)
    (reached : Run period .idle before c) (idle : c.state.polling = false)
    (run : Run period c.start moves c') (unstopped : ∀ m ∈ moves, m.action ≠ .stop) :
    OnSchedule period c moves c' ∧
      ∀ {between moves' : List TimedMove} {d d' : Clocked}, Run period c'.stop between d →
        d.state.polling = false → Run period d.start moves' d' →
          (∀ m ∈ moves', m.action ≠ .stop) → OnSchedule period d moves' d' := by
  refine ⟨reached.onSchedule positive idle run unstopped, fun between idle' run' unstopped' => ?_⟩
  have started := reached.append (Run.one (step_start ⟨[], fun _ => .error .noData⟩ idle))
  have stopped := (started.append run).append (Run.one (step_stop ⟨[], fun _ => .error .noData⟩))
  exact (stopped.append between).onSchedule positive idle' run' unstopped'

end

/-- A poller of one group with a period of 4 ms: nine milliseconds in pieces, with an answer that
takes longer than the period, another start and a single call, have three cycles. Stopped then and
started anew, it begins a cycle at once. -/
theorem cycles_on_schedule_in_pieces :
    ∃ moves c' later d, Run 4 (start idle) moves c' ∧ c'.now = 9 ∧
      ((cyclesBy 0 moves).filter fun b => b.time ≤ 8).length = 3 ∧
      ((lookupsOf moves).filter fun l => l.1 ≤ 8).length = 3 ∧
      Run 4 c'.stop.start later d ∧ d.now = 10 ∧
      ((cyclesBy 7 later).filter fun b => b.time ≤ 9).length = 1 := by
  let view : Context := ⟨["a"], fun _ => .error .noData⟩
  let ticked (due : Nat → Nat) (time : Nat) : Nat → Nat := Function.update due 0 time
  let c' : Clocked := ⟨9, ⟨true, some 0, [0], [], [⟨3, none, []⟩, ⟨5, none, []⟩],
    [⟨4, 3, "a", .lookup⟩, ⟨6, 5, "a", .lookup⟩], 7⟩,
    ticked (ticked (ticked (ticked (fun _ => 0) 0) 4) 8) 12⟩
  have run : Run 4 (start idle) _ c' := play_run
    [.act view (.tick 0), .act view (.begin 1), .act view (.lookup 2), .wait 3,
      .act view .start, .act view (.call 7), .wait 1,
      .act view (.tick 0), .act view (.begin 3), .act view (.lookup 4), .wait 1,
      .act view (.lookedUp 2 (.error .timeout) 0), .act view (.collect 1), .wait 3,
      .act view (.tick 0), .act view (.begin 5), .act view (.lookup 6), .wait 1] rfl
  have run' : Run 4 c'.stop.start _ _ := play_run
    [.act view (.tick 7), .act view (.begin 8), .act view (.lookup 9), .wait 1] rfl
  obtain ⟨schedule, restart⟩ := cycles_on_schedule (by decide) .nil rfl run (by simp)
  have again := restart .nil rfl run' (by simp)
  have lookups := schedule.asked rfl 8 (by decide)
  exact ⟨_, _, _, _, run, rfl, schedule.number 8 (by decide), lookups.trans rfl, run', rfl,
    again.number 0 (by decide)⟩

/-- A poller was idle at `c` with no single call in flight, and since it was started there, these
moves have been made and no stop. -/
structure Afresh (period : Nat) (c : Clocked) (moves : List TimedMove) (c' : Clocked) : Prop where
  reached : ∃ before, Run period .idle before c
  idle : c.state.polling = false
  alone : ∀ k ∈ c.state.cycles, k.call = none
  run : Run period c.start moves c'
  unstopped : ∀ m ∈ moves, m.action ≠ .stop

/-- **Off the schedule.** A cycle that was left to begin does begin when the flag is set again: the
first timer has ordered it when the poller is stopped and started anew, and then two cycles begin
where the schedule has one. So does a chain that was left to begin: one cycle begins, and the nodes
of its group are looked up twice. And a poller that its owner lets go of begins no more cycles,
though nobody has stopped it. -/
theorem cycles_off_schedule :
    (∃ c moves c', Afresh 4000 c moves c' ∧ c.now = 0 ∧ c'.now = 100 ∧
      (cyclesOf moves).map Begun.time = [0, 0]) ∧
    (∃ c moves c', Afresh 4000 c moves c' ∧ c.now = 0 ∧ c'.now = 100 ∧
      (cyclesOf moves).map Begun.time = [0] ∧ lookupsOf moves = [(0, "a"), (0, "a")]) ∧
    ∃ w : Timeline,
      w = ((((Timeline.empty 4000 0).holdNew.start 0).advance 100).letGo.advance 9000) ∧
      w.now = 9100 ∧ (w.log.filterMap fun e => e.event.fanned?.map fun _ => e.time) = [0] := by
  let view : Context := ⟨["a"], fun _ => .error .noData⟩
  let due : Nat → Nat := Function.update (Function.update (fun _ => 0) 0 0) 0 4000
  refine ⟨?cycle, ?chain, _, rfl, by decide +kernel, by decide +kernel⟩
  case cycle =>
    let c : Clocked := ⟨0, ⟨false, none, [], [1], [], [], 2⟩, due⟩
    have reached : Run 4000 .idle _ c :=
      play_run [.act view .start, .act view (.tick 0), .act view .stop] rfl
    have run : Run 4000 c.start _ _ := play_run
      [.act view (.begin 1), .act view (.tick 2), .act view (.begin 4), .act view (.lookup 3),
        .act view (.lookup 5), .wait 100] rfl
    exact ⟨_, _, _, ⟨⟨_, reached⟩, rfl, by simp [c], run, by simp⟩, rfl, rfl, rfl⟩
  case chain =>
    let c : Clocked := ⟨0, ⟨false, none, [], [], [⟨1, none, []⟩], [⟨2, 1, "a", .queued⟩], 3⟩, due⟩
    have reached : Run 4000 .idle _ c := play_run
      [.act view .start, .act view (.tick 0), .act view (.begin 1), .act view .stop] rfl
    have run : Run 4000 c.start _ _ := play_run
      [.act view (.lookup 2), .act view (.tick 3), .act view (.begin 4), .act view (.lookup 5),
        .wait 100] rfl
    exact ⟨_, _, _, ⟨⟨_, reached⟩, rfl, by simp [c], run, by simp⟩, rfl, rfl, rfl, rfl⟩

end Clocked

end SealedPost.Poller

import SealedPost.Poller.State
import SealedPost.Swarm.Service

/-!
# Pollers on a clock

Pollers that share a store and a swarm, on a clock that counts milliseconds. Work that can run waits
in line, and runs in the order in which it came; work that waits for a time stands in the agenda.
The clock moves only when no work is left in line, and then to the next time of the agenda.
Whoever lets time pass goes on as soon as it has passed, ahead of the work that is due then.

Work puts into the line only work that comes later in the course of a cycle: a timer a cycle,
a cycle its chains, a chain the end of its cycle. So the line empties after one round for
each of these.

A poller lives while somebody keeps it: its owner, the registry, or a call to it that has not
returned. When nobody does, it stops. `Timeline.holdShared` is `configure_if_needed`: it takes the
registry's poller, and a new one only if there is none.
-/

namespace SealedPost.Poller

inductive Job
  | tick (timer : Nat)
  | cycle (number : Nat)
  | call (id : Nat)
  | chain (number : Nat)
  /-- A lookup that comes to the mailboxes under a rule. -/
  | lookup (chain : Nat) (group : String) (rule : SwarmRule)
  /-- The answer of the mailboxes to a lookup. -/
  | nodes (chain : Nat) (group : String)
  /-- A fetch that comes to the mailboxes under a rule. -/
  | fetch (chain : Nat) (group : String) (rule : SwarmRule)
  | collect (cycle : Nat)

/-- How many rounds a job, and all that follows from it, take. -/
def Job.rounds : Job → Nat
  | .tick _ => 4
  | .cycle _ | .call _ => 3
  | .chain _ | .lookup _ _ _ | .nodes _ _ | .fetch _ _ _ => 2
  | .collect _ => 1

structure Task where
  poller : Nat
  job : Job

structure Entry where
  time : Nat
  poller : Nat
  event : Event

/-- Pollers, what they share, and what they wait for. -/
structure Timeline where
  now : Nat
  /-- The period of every timer. -/
  interval : Nat
  store : Store
  service : SwarmService
  pollers : List State
  /-- The poller that the owner keeps. -/
  held : Option Nat
  /-- The poller that the registry keeps. -/
  registered : Option Nat
  /-- The single calls that have not returned, each with its poller. -/
  calls : List (Nat × Nat)
  nextCall : Nat
  line : List Task
  /-- The work that waits for a time. -/
  agenda : List (Nat × Task)
  /-- What happened, the latest first. -/
  log : List Entry

namespace Timeline

def empty (interval lookupDelay : Nat) : Timeline :=
  ⟨0, interval, .empty, ⟨.empty, lookupDelay, []⟩, [], none, none, [], 0, [], [], []⟩

/-! ## Pollers -/

/-- The poller of that number; one that does not exist is idle. -/
def poller (w : Timeline) (p : Nat) : State := (w.pollers[p]?).getD .idle

def enqueue (w : Timeline) (p : Nat) (job : Job) : Timeline :=
  { w with line := w.line ++ [⟨p, job⟩] }

def schedule (w : Timeline) (delay p : Nat) (job : Job) : Timeline :=
  { w with agenda := (w.now + delay, ⟨p, job⟩) :: w.agenda }

/-- Whether somebody keeps a poller. -/
def isKept (w : Timeline) (p : Nat) : Bool :=
  w.held == some p || w.registered == some p || w.calls.any fun c => c.1 == p

/-- Stops a poller that nobody keeps. -/
def release (w : Timeline) (p : Nat) : Timeline :=
  if w.isKept p then w else { w with pollers := w.pollers.modify p State.stop }

/-- Notes an event, and puts into the line what follows from it. -/
def follow (w : Timeline) (p : Nat) (event : Event) : Timeline :=
  let w := { w with log := ⟨w.now, p, event⟩ :: w.log }
  match event with
  | .started timer => w.enqueue p (.tick timer)
  | .ordered _ cycle => w.enqueue p (.cycle cycle)
  | .fannedOut _ chains => { w with line := w.line ++ chains.map fun n => ⟨p, .chain n⟩ }
  | .finished _ cycle _ => if (w.poller p).isComplete cycle then w.enqueue p (.collect cycle) else w
  | .returned id _ => { w with calls := w.calls.filter fun c => c ≠ (p, id) }.release p
  | .lookup _ _ | .fetch _ _ _ _ | .delivered _ _ _ => w

def perform [Curve] (w : Timeline) (p : Nat) (action : Action) : Timeline × List Event :=
  match (w.poller p).step (Context.ofStore w.store) action with
  | none => (w, [])
  | some (s, events) =>
      (events.foldl (fun w e => w.follow p e) { w with pollers := w.pollers.set p s }, events)

/-! ## Jobs -/

def runFetch [Curve] (w : Timeline) (p chain : Nat) (group : String) (rule : SwarmRule) :
    Timeline :=
  let (answer, service) := w.service.fetch rule group
  ({ w with service }.perform p (.fetched chain answer)).1

/-- Goes on from what an action of a chain asked for. -/
def runFetches [Curve] (w : Timeline) (p : Nat) : List Event → Timeline
  | .fetch chain group _ _ :: rest =>
    let rule := w.service.ruleOf group
    let w := if rule.fetchDelay = 0 then w.runFetch p chain group rule
      else w.schedule rule.fetchDelay p (.fetch chain group rule)
    w.runFetches p rest
  | _ :: rest => w.runFetches p rest
  | [] => w

def runAnswer [Curve] (w : Timeline) (p chain : Nat) (answer : Except NetworkError (List Snode)) :
    Timeline :=
  let (w, events) := w.perform p (.lookedUp chain answer 0)
  w.runFetches p events

def runNodes [Curve] (w : Timeline) (p chain : Nat) (group : String) : Timeline :=
  w.runAnswer p chain (w.service.mailboxes.lookup group)

def runLookup [Curve] (w : Timeline) (p chain : Nat) (group : String) (rule : SwarmRule) :
    Timeline :=
  match rule.lookupError with
  | some e => w.runAnswer p chain (.error e)
  | none =>
    let w := { w with service := w.service.countLookup }
    if w.service.lookupDelay = 0 then w.runNodes p chain group
    else w.schedule w.service.lookupDelay p (.nodes chain group)

def runChain [Curve] (w : Timeline) (p chain : Nat) : Timeline :=
  match w.perform p (.lookup chain) with
  | (w, [.lookup _ group]) =>
    let rule := w.service.ruleOf group
    if rule.lookupDelay = 0 then w.runLookup p chain group rule
    else w.schedule rule.lookupDelay p (.lookup chain group rule)
  | (w, _) => w

/-- A timer ticks, and comes back after its period if it still runs; one without a period dies. -/
def runTick [Curve] (w : Timeline) (p timer : Nat) : Timeline :=
  if w.interval = 0 then (w.perform p (.die timer)).1
  else
    let w := (w.perform p (.tick timer)).1
    if (w.poller p).timers.contains timer then w.schedule w.interval p (.tick timer) else w

def run [Curve] (w : Timeline) (task : Task) : Timeline :=
  match task.job with
  | .tick timer => w.runTick task.poller timer
  | .cycle number => (w.perform task.poller (.begin number)).1
  | .call id => (w.perform task.poller (.call id)).1
  | .chain number => w.runChain task.poller number
  | .lookup chain group rule => w.runLookup task.poller chain group rule
  | .nodes chain group => w.runNodes task.poller chain group
  | .fetch chain group rule => w.runFetch task.poller chain group rule
  | .collect cycle => (w.perform task.poller (.collect cycle)).1

/-! ## Time -/

/-- Runs the tasks in line, and leaves what they put there. -/
def round [Curve] (w : Timeline) : Timeline := w.line.foldl run { w with line := [] }

/-- Runs the tasks in line and all that follows from them. -/
def settle [Curve] (w : Timeline) : Timeline := w.round.round.round.round

/-- How long it is to the next time of the agenda. -/
def wait? (w : Timeline) : Option Nat :=
  ((w.agenda.map fun a => a.1 - w.now).filter fun ms => 0 < ms).min?

/-- Moves the clock, and puts into the line what has waited for a time up to then, the
older entries first. -/
def leap (w : Timeline) (ms : Nat) : Timeline :=
  let now := w.now + ms
  { w with
    now
    line := w.line ++ ((w.agenda.reverse.filter fun a => a.1 ≤ now).map Prod.snd)
    agenda := w.agenda.filter fun a => now < a.1 }

/-- Runs for a time, or until no work is left in line and `enough` holds. What is due at the very
end of the time comes into the line and stays there, so that no time at all changes nothing. -/
def runUntil [Curve] (enough : Timeline → Bool) (ms : Nat) (w : Timeline) : Timeline :=
  if ms = 0 then w
  else
    let settled := w.settle
    if enough settled then settled
    else
      match settled.wait? with
      | none => settled.leap ms
      | some wait =>
        if 0 < wait ∧ wait < ms then runUntil enough (ms - wait) (settled.leap wait)
        else settled.leap ms
termination_by ms

/-- Lets time pass, up to but not including the work that is due at its end. -/
def advance [Curve] (ms : Nat) (w : Timeline) : Timeline := w.runUntil (fun _ => false) ms

/-! ## What the owner does -/

/-- Creates a poller, and gives its number. -/
def create (w : Timeline) : Timeline × Nat :=
  ({ w with pollers := w.pollers ++ [.idle] }, w.pollers.length)

/-- Keeps a poller in place of the one that was held. -/
def hold (w : Timeline) (p : Option Nat) : Timeline :=
  let w' := { w with held := p }
  match w.held with
  | some old => w'.release old
  | none => w'

/-- Holds the registry's poller, which is created if there is none. -/
def holdShared (w : Timeline) : Timeline :=
  match w.registered with
  | some p => w.hold (some p)
  | none =>
    let (w, p) := w.create
    { w with registered := some p }.hold (some p)

def holdNew (w : Timeline) : Timeline :=
  let (w, p) := w.create
  w.hold (some p)

def letGo (w : Timeline) : Timeline :=
  let w' := { w with registered := none }.hold none
  match w.registered with
  | some p => w'.release p
  | none => w'

/-- Whether the poller that is held is polling; none if none is held. -/
def isPolling (w : Timeline) : Option Bool := w.held.map fun p => (w.poller p).polling

def start [Curve] (w : Timeline) (p : Nat) : Timeline := (w.perform p .start).1

def stop [Curve] (w : Timeline) (p : Nat) : Timeline := (w.perform p .stop).1

/-- Makes a single call, to be run when its turn comes; gives its number. -/
def callLater (w : Timeline) (p : Nat) : Timeline × Nat :=
  let called := { w with calls := (p, w.nextCall) :: w.calls, nextCall := w.nextCall + 1 }
  (called.enqueue p (.call w.nextCall), w.nextCall)

def hasReturned (p id : Nat) (w : Timeline) : Bool := !w.calls.contains (p, id)

/-- Makes a single call and waits until it returns; gives its number. One that returns at once takes
no time and lets no other work run. -/
def callAndWait [Curve] (w : Timeline) (p : Nat) : Timeline × Nat :=
  let id := w.nextCall
  let w := { w with calls := (p, id) :: w.calls, nextCall := id + 1 }
  let w := (w.perform p (.call id)).1
  (if w.hasReturned p id then w else w.runUntil (hasReturned p id) (w.service.patience + 1), id)

def mapMailboxes (f : Mailboxes → Mailboxes) (w : Timeline) : Timeline :=
  { w with service := { w.service with mailboxes := f w.service.mailboxes } }

/-- What happened since the log was last taken, in order. -/
def takeLog (w : Timeline) : List Entry × Timeline := (w.log.reverse, { w with log := [] })

end Timeline

end SealedPost.Poller

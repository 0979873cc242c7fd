import SealedPost.Messenger
import SealedPost.Swarm.Snode
import SealedPost.Swarm.Retrieval

/-!
# The poller, segment by segment

The poller fetches and opens the messages of every closed group, in cycles: a repeating timer begins
them while it is installed, and a single call runs one without a timer. A cycle has a chain for each
group, and chains run side by side: look up the group's nodes, fetch from one of them, open and
deliver. Whether the poller is active is one flag; a chain looks at it after each of its two network
calls and gives up if it is not set.

What runs between two waits is one segment, and nothing else runs meanwhile. An action is a segment,
or the answer that one was waiting for; `State.step` says what it does. An action that is not
possible in a state has no result.

- `State.start`, `State.stop` and `State.call` are what the owner does: `start_if_needed`,
  `stop_if_needed` or a drop, and `poll_once`.
- `State.begin` and `State.collect` begin and end a cycle, `poll`.
- `State.lookedUp` and `State.fetched` go on with a chain, `poll_group`.
-/

namespace SealedPost.Poller

/-! ## Outcomes -/

/-- Why a chain delivered nothing. -/
inductive PollError
  | insufficientSnodes
  | canceled
  | network (reason : NetworkError)
deriving DecidableEq, Repr

def PollError.message : PollError → String
  | .insufficientSnodes => "no snodes available in swarm"
  | .canceled => "polling was stopped"
  | .network reason => "network error: " ++ reason.message

/-- What a cycle did for one group: how many messages it delivered, or why it did not. -/
structure Outcome where
  group : String
  result : Except PollError Nat
deriving Repr

/-! ## State -/

/-- How far a chain has come. -/
inductive Stage
  | queued
  /-- Waiting for the group's nodes. -/
  | lookup
  /-- Waiting for messages from a node. -/
  | fetch (snode : Snode)
deriving DecidableEq, Repr

/-- The work on one group in one cycle. -/
structure Chain where
  number : Nat
  cycle : Nat
  group : String
  stage : Stage
deriving DecidableEq, Repr

structure Cycle where
  number : Nat
  /-- The single call that the cycle belongs to; none for one that the timer began. -/
  call : Option Nat
  /-- What its finished chains gave, in the order in which they finished. -/
  outcomes : List Outcome
deriving Repr

/-- A poller and the work it has in flight. -/
structure State where
  polling : Bool
  /-- The timer that is installed. -/
  timer : Option Nat
  /-- The timers that still run. -/
  timers : List Nat
  /-- Cycles that a timer has ordered and that have not begun. -/
  ordered : List Nat
  cycles : List Cycle
  chains : List Chain
  /-- The number that the next timer, cycle or chain gets. -/
  next : Nat
deriving Repr

def State.idle : State := ⟨false, none, [], [], [], [], 0⟩

/-- What a segment can see of the stores: the keys of the groups, and how an envelope opens. -/
structure Context where
  groups : List String
  decrypt : Envelope → Except MessageError Message

def Context.ofStore [Curve] (store : Store) : Context :=
  ⟨store.groups.publicKeys, Messenger.decrypt store.slots store.groups⟩

/-! ## Actions and events -/

/-- A segment, or an answer that one was waiting for. -/
inductive Action
  | start
  /-- Somebody stops the poller, or drops it. -/
  | stop
  | call (id : Nat)
  | tick (timer : Nat)
  /-- A timer dies, because it has no period. -/
  | die (timer : Nat)
  /-- A cycle that a timer ordered begins. -/
  | begin (cycle : Nat)
  | lookup (chain : Nat)
  /-- The answer to a chain's lookup; `pick` says which node is taken. -/
  | lookedUp (chain : Nat) (answer : Except NetworkError (List Snode)) (pick : Nat)
  | fetched (chain : Nat) (answer : Except NetworkError Json)
  /-- A cycle, all of whose chains have finished, ends. -/
  | collect (cycle : Nat)

/-- What an action does that others can see. -/
inductive Event
  | started (timer : Nat)
  | ordered (timer cycle : Nat)
  /-- A cycle has begun these chains. -/
  | fannedOut (cycle : Nat) (chains : List Nat)
  | lookup (chain : Nat) (group : String)
  /-- A fetch has begun, from a node out of these. -/
  | fetch (chain : Nat) (group : String) (snode : Snode) (nodes : List Snode)
  | delivered (chain : Nat) (envelope : Envelope) (message : Message)
  | finished (chain cycle : Nat) (outcome : Outcome)
  | returned (id : Nat) (outcomes : List Outcome)

namespace State

/-! ## Segments -/

/-- Sets the flag and installs a timer, unless the flag is set. -/
def start (s : State) : State × List Event :=
  if s.polling then (s, [])
  else
    ({ s with
        polling := true, timer := some s.next, timers := s.timers ++ [s.next], next := s.next + 1 },
      [.started s.next])

/-- Clears the flag, and takes out the timer and ends it. -/
def stop (s : State) : State :=
  { s with
    polling := false
    timer := none
    timers := match s.timer with
      | some n => s.timers.erase n
      | none => s.timers }

/-- Orders a cycle, or ends the timer if the flag is not set. -/
def tick (s : State) (timer : Nat) : State × List Event :=
  if s.polling then
    ({ s with ordered := s.ordered ++ [s.next], next := s.next + 1 }, [.ordered timer s.next])
  else ({ s with timers := s.timers.erase timer }, [])

/-- A chain for each group, numbered on from `first`. -/
def chainsFor (cycle : Nat) : (first : Nat) → List String → List Chain
  | _, [] => []
  | first, group :: rest => ⟨first, cycle, group, .queued⟩ :: chainsFor cycle (first + 1) rest

/-- Begins a cycle with a chain for each group. -/
def fanOut (s : State) (cycle : Nat) (call : Option Nat) (groups : List String) :
    State × List Event :=
  let chains := chainsFor cycle s.next groups
  ({ s with
      cycles := s.cycles ++ [⟨cycle, call, []⟩]
      chains := s.chains ++ chains
      next := s.next + groups.length },
    [.fannedOut cycle (chains.map Chain.number)])

/-- Ends a cycle. One of a single call clears the flag, if no timer is installed by
then, and returns. -/
def collect (s : State) (cycle : Cycle) : State × List Event :=
  let s := { s with cycles := s.cycles.filter fun c => c.number ≠ cycle.number }
  match cycle.call with
  | none => (s, [])
  | some id =>
    ({ s with polling := s.polling && s.timer.isSome }, [.returned id cycle.outcomes])

/-- Begins the cycle of a single call, unless the flag is set; one without groups ends at once. -/
def call (s : State) (id : Nat) (groups : List String) : State × List Event :=
  if s.polling then (s, [.returned id []])
  else
    let cycle := s.next
    let (s, events) := fanOut { s with polling := true, next := s.next + 1 } cycle (some id) groups
    if groups.isEmpty then
      let (s, more) := s.collect ⟨cycle, some id, []⟩
      (s, events ++ more)
    else (s, events)

/-- Begins a cycle that a timer ordered, if the flag is still set; one without groups
ends at once. -/
def begin (s : State) (cycle : Nat) (groups : List String) : State × List Event :=
  let s := { s with ordered := s.ordered.erase cycle }
  if !s.polling then (s, [])
  else
    let (s, events) := s.fanOut cycle none groups
    if groups.isEmpty then
      let (s, more) := s.collect ⟨cycle, none, []⟩
      (s, events ++ more)
    else (s, events)

def setStage (s : State) (chain : Nat) (stage : Stage) : State :=
  { s with chains := s.chains.map fun c => if c.number = chain then { c with stage } else c }

/-- Ends a chain and notes its outcome with its cycle. -/
def finish (s : State) (chain : Chain) (result : Except PollError Nat) : State × List Event :=
  let outcome : Outcome := ⟨chain.group, result⟩
  ({ s with
      chains := s.chains.filter fun c => c.number ≠ chain.number
      cycles := s.cycles.map fun c =>
        if c.number = chain.cycle then { c with outcomes := c.outcomes ++ [outcome] } else c },
    [.finished chain.number chain.cycle outcome])

/-- The node that is taken out of a swarm; none if there is none. -/
def choose (nodes : List Snode) (pick : Nat) : Option Snode := nodes[pick % nodes.length]?

/-- Goes on from a lookup: to a fetch, if there is a node and the flag is set. -/
def lookedUp (s : State) (chain : Chain) (answer : Except NetworkError (List Snode)) (pick : Nat) :
    State × List Event :=
  match answer with
  | .error e => s.finish chain (.error (.network e))
  | .ok nodes =>
    match choose nodes pick with
    | none => s.finish chain (.error .insufficientSnodes)
    | some snode =>
      if s.polling then
        (s.setStage chain.number (.fetch snode), [.fetch chain.number chain.group snode nodes])
      else s.finish chain (.error .canceled)

/-- The messages of a batch that open, each with its envelope, in the order of the batch. -/
def readable (decrypt : Envelope → Except MessageError Message) (envelopes : List Envelope) :
    List (Envelope × Message) :=
  envelopes.filterMap fun e =>
    match decrypt e with
    | .ok message => some (e, message)
    | .error _ => none

/-- Goes on from a fetch: delivers what opens, if the flag is set. -/
def fetched (s : State) (decrypt : Envelope → Except MessageError Message) (chain : Chain)
    (answer : Except NetworkError Json) : State × List Event :=
  match answer with
  | .error e => s.finish chain (.error (.network e))
  | .ok response =>
    if s.polling then
      let messages := readable decrypt (Retrieval.envelopes chain.group response)
      let (s, events) := s.finish chain (.ok messages.length)
      (s, messages.map (fun m => .delivered chain.number m.1 m.2) ++ events)
    else s.finish chain (.error .canceled)

def chain? (s : State) (number : Nat) : Option Chain := s.chains.find? fun c => c.number = number

def cycle? (s : State) (number : Nat) : Option Cycle := s.cycles.find? fun c => c.number = number

/-- Whether all chains of a cycle have finished. -/
def isComplete (s : State) (cycle : Nat) : Bool := s.chains.all fun c => c.cycle ≠ cycle

/-- What an action does, and what others see of it; none if it is not possible. -/
def step (view : Context) (action : Action) (s : State) : Option (State × List Event) :=
  match action with
  | .start => some s.start
  | .stop => some (s.stop, [])
  | .call id => some (s.call id view.groups)
  | .tick timer => if s.timers.contains timer then some (s.tick timer) else none
  | .die timer =>
    if s.timers.contains timer then some ({ s with timers := s.timers.erase timer }, []) else none
  | .begin cycle => if s.ordered.contains cycle then some (s.begin cycle view.groups) else none
  | .lookup number =>
    match s.chain? number with
    | some ⟨n, _, group, .queued⟩ => some (s.setStage n .lookup, [.lookup n group])
    | _ => none
  | .lookedUp number answer pick =>
    match s.chain? number with
    | some chain => if chain.stage = .lookup then some (s.lookedUp chain answer pick) else none
    | none => none
  | .fetched number answer =>
    match s.chain? number with
    | some chain =>
      match chain.stage with
      | .fetch _ => some (s.fetched view.decrypt chain answer)
      | _ => none
    | none => none
  | .collect number =>
    match s.cycle? number with
    | some cycle => if s.isComplete number then some (s.collect cycle) else none
    | none => none

end State

end SealedPost.Poller

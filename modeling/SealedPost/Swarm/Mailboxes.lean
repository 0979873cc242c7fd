import SealedPost.Identity.KeyText
import SealedPost.Swarm.Snode
import SealedPost.Swarm.Retrieval

/-!
# Mailboxes

A swarm kept in memory: for every key the nodes that serve it and the messages that wait there.
Fetching takes the messages out, as a node answers only with what is newer than the last fetch. Both
spellings of a key, with the mark of a session id and without it, name the same mailbox.
-/

namespace SealedPost

/-- Nodes and waiting messages by key, and how often they were asked for. -/
structure Mailboxes where
  nodes : List (String × List Snode)
  queues : List (String × List Bytes)
  /-- The keys whose nodes cannot be looked up. -/
  failing : List String
  lookups : Nat
  fetches : Nat

namespace Mailboxes

/-- No nodes and no messages. -/
def empty : Mailboxes := ⟨[], [], [], 0, 0⟩

/-- The node that serves a key where no others are given. -/
def singleNode : List Snode := [⟨"127.0.0.1", 22021⟩]

/-- Puts a value under a key, in place of an older one. -/
def put {α : Type} (key : String) (value : α) (entries : List (String × α)) : List (String × α) :=
  (key, value) :: entries.filter fun e => e.1 ≠ key

def nodesOf (m : Mailboxes) (key : String) : List Snode :=
  (m.nodes.lookup (KeyText.strip key)).getD []

/-- The messages that wait under a key, the oldest first. -/
def waiting (m : Mailboxes) (key : String) : List Bytes :=
  (m.queues.lookup (KeyText.strip key)).getD []

/-- Says which nodes serve a key. -/
def setNodes (m : Mailboxes) (key : String) (nodes : List Snode) : Mailboxes :=
  { m with nodes := put (KeyText.strip key) nodes m.nodes }

/-- Makes the lookup of a key's nodes fail. -/
def fail (m : Mailboxes) (key : String) : Mailboxes :=
  { m with failing := KeyText.strip key :: m.failing }

/-- Adds a message under a key. -/
def push (m : Mailboxes) (key : String) (data : Bytes) : Mailboxes :=
  { m with queues := put (KeyText.strip key) (m.waiting key ++ [data]) m.queues }

/-- What a lookup of a key's nodes answers. -/
def lookup (m : Mailboxes) (key : String) : Except NetworkError (List Snode) :=
  if m.failing.contains (KeyText.strip key) then .error (.transport "swarm lookup failed")
  else .ok (m.nodesOf key)

/-- The response that carries a batch of messages, timed by their places as words of 64 bits. -/
def batch (messages : List Bytes) : Json :=
  Retrieval.response
    (messages.mapIdx fun i data => ⟨Text.Base64.encode data, i % UInt64.size⟩)

/-- Takes the messages out that wait under a key. -/
def fetch (m : Mailboxes) (key : String) : Json × Mailboxes :=
  (batch (m.waiting key),
    { m with
      queues := m.queues.filter fun e => e.1 ≠ KeyText.strip key
      fetches := m.fetches + 1 })

def countLookup (m : Mailboxes) : Mailboxes := { m with lookups := m.lookups + 1 }

end Mailboxes

end SealedPost

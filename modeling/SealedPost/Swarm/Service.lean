import SealedPost.Swarm.Mailboxes

/-!
# A swarm that answers in time

Mailboxes answer at once. A service puts time and trouble in front of them: a rule for a key says
how long its requests are on the way and whether they fail or are answered with something else.
Rules go by the key as it is written, mailboxes by the key without the mark of a session id.
-/

namespace SealedPost

/-- How the requests for a key fare. Times are in milliseconds. -/
structure SwarmRule where
  lookupDelay : Nat
  fetchDelay : Nat
  lookupError : Option NetworkError
  fetchError : Option NetworkError
  /-- A response that stands in for the mailbox. -/
  response : Option Json

/-- Nothing comes between a request and the mailboxes. -/
def SwarmRule.plain : SwarmRule := ⟨0, 0, none, none, none⟩

/-- Mailboxes behind rules. -/
structure SwarmService where
  mailboxes : Mailboxes
  /-- How long the mailboxes take to look up nodes, in milliseconds. -/
  lookupDelay : Nat
  rules : List (String × SwarmRule)

namespace SwarmService

def ruleOf (s : SwarmService) (key : String) : SwarmRule := (s.rules.lookup key).getD .plain

/-- Gives a key a rule, in place of an older one. -/
def setRule (s : SwarmService) (key : String) (rule : SwarmRule) : SwarmService :=
  { s with rules := Mailboxes.put key rule s.rules }

/-- Counts a lookup that has come to the mailboxes. -/
def countLookup (s : SwarmService) : SwarmService := { s with mailboxes := s.mailboxes.countLookup }

/-- What a fetch that has been on its way brings back. -/
def fetch (s : SwarmService) (rule : SwarmRule) (key : String) :
    Except NetworkError Json × SwarmService :=
  match rule.fetchError, rule.response with
  | some e, _ => (.error e, s)
  | none, some response => (.ok response, s)
  | none, none =>
    let (response, mailboxes) := s.mailboxes.fetch key
    (.ok response, { s with mailboxes })

/-- A time within which a request for any key is answered, whatever comes before it. -/
def patience (s : SwarmService) : Nat :=
  s.rules.foldl (fun ms r => ms + r.2.lookupDelay + r.2.fetchDelay) s.lookupDelay

end SwarmService

end SealedPost

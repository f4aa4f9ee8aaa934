/-
  BrokerLoad/Client/RequestQueue.lean
  ===================================
  The bounded queue of requests between a client and its connection, while
  nobody empties it.

  A request goes through three checks, always in this order.  A message for a
  topic with a wildcard is refused; a request is refused when the connection is
  gone; a request waits while the queue is full.  Only a request that passes all
  three takes a place.  Subscriptions may have wildcards and share the places
  with messages.
-/
import BrokerLoad.Surroundings

namespace BrokerLoad.Client

def refusal : String := "Failed to send mqtt requests to eventloop"

def hasWildcard (topic : String) : Bool :=
  topic.toList.any fun c => c == '+' || c == '#'

/-- Whether the client refuses a call by looking at it alone. -/
def refusesUnseen : Call → Bool
  | .publish topic _ _ => hasWildcard topic
  | .subscribe _ _ => false

/-- A queue of requests that nobody empties. -/
structure RequestQueue where
  capacity : Nat
  queued : Nat := 0
  connectionGone : Bool := false
deriving DecidableEq, Repr

inductive Verdict where
  | accepted
  /-- The queue is full; the request would wait, and is given up. -/
  | blocked
  | refused
deriving DecidableEq, Repr

namespace RequestQueue

def verdict (q : RequestQueue) (call : Call) : Verdict :=
  if refusesUnseen call then .refused
  else if q.connectionGone then .refused
  else if q.queued < q.capacity then .accepted
  else .blocked

def submit (q : RequestQueue) (call : Call) : RequestQueue × Verdict :=
  match q.verdict call with
  | .accepted => ({ q with queued := q.queued + 1 }, .accepted)
  | verdict => (q, verdict)

def dropConnection (q : RequestQueue) : RequestQueue := { q with connectionGone := true }

inductive Move where
  | call (call : Call)
  | dropConnection
deriving DecidableEq, Repr

def move (q : RequestQueue) : Move → RequestQueue × Option Verdict
  | .call call =>
    let (q, verdict) := q.submit call
    (q, some verdict)
  | .dropConnection => (q.dropConnection, none)

def moves : RequestQueue → List Move → List (Option Verdict)
  | _, [] => []
  | q, m :: ms =>
    let (q, verdict?) := q.move m
    verdict? :: moves q ms

end RequestQueue

/-- The link that a client is as long as its connection takes requests: it refuses
    what it refuses unseen, and accepts everything else. -/
def answer (call : Call) : Answer :=
  if refusesUnseen call then .refused refusal else .accepted

end BrokerLoad.Client

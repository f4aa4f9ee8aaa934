/-
  BrokerLoad/Conversation.lean
  ============================
  A pump and a subscriber on one inbox.

  Each of the two goes on by its own steps, in any order.  What the pump puts
  into the inbox is what the subscriber takes from it.  `Conversation.move` makes
  one step of either, or lets something happen outside; `Conversation.settle`
  lets both go on until they rest, the pump first.
-/
import BrokerLoad.Pump
import BrokerLoad.Session

namespace BrokerLoad

/-- A pump, a subscriber and what is around them.  The subscriber's inbox is the
    inbox of both. -/
structure Conversation where
  pump : Pump := .polling
  feed : Pump.Surroundings := {}
  listener : Session Subscriber

namespace Conversation

inductive Move where
  /-- The client has a result to ask for. -/
  | offer (result : PollResult)
  | pump
  | subscriber
  | resolve (answer : Answer)
  | advance (milliseconds : Nat)
deriving DecidableEq, Repr

/-- The pump's surroundings with the inbox that the subscriber reads. -/
def shared (c : Conversation) : Pump.Surroundings :=
  { c.feed with inbox := c.listener.surroundings.inbox }

def pumped (c : Conversation) (feed : Pump.Surroundings) (pump : Pump) : Conversation where
  pump
  feed
  listener := { c.listener with surroundings.inbox := feed.inbox }

/-- One move.  A step that is not there changes nothing. -/
def move (delay : Nat) (topic : String) (c : Conversation) : Move → Conversation
  | .offer result => { c with feed.ready := c.feed.ready ++ [result] }
  | .pump =>
    match Pump.step delay c.shared c.pump with
    | some (feed, pump) => c.pumped feed pump
    | none => c
  | .subscriber =>
    match Subscriber.step topic c.listener.surroundings c.listener.run with
    | some (surroundings, run) => { c with listener := { surroundings, run } }
    | none => c
  | .resolve answer =>
    { c with listener := c.listener.change (Subscriber.role topic) (.resolve answer) }
  | .advance ms =>
    { c with
      feed.now := c.feed.now + ms
      listener := c.listener.change (Subscriber.role topic) (.advance ms) }

def moves (delay : Nat) (topic : String) (c : Conversation) (ms : List Move) : Conversation :=
  ms.foldl (move delay topic) c

/-- Lets the pump and then the subscriber go on until each rests. -/
def settle (delay : Nat) (topic : String) (c : Conversation) : Conversation :=
  let settled := (Pump.activity delay).settle c.shared c.pump
  let c := c.pumped settled.1 settled.2
  { c with listener := c.listener.resume (Subscriber.role topic) }

end Conversation

end BrokerLoad

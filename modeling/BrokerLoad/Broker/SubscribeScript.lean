/-
  BrokerLoad/Broker/SubscribeScript.lean
  ======================================
  A whole subscriber against a scripted broker, over one connection after the
  other.

  On each connection the broker answers the request with some code.  If it takes
  the client, it acknowledges the subscription and sends its messages; it may hang
  up at the end.  After the last connection the shutdown signal goes up.
-/
import BrokerLoad.Broker.PublishScript
import BrokerLoad.Client.Connection
import BrokerLoad.Conversation

namespace BrokerLoad.Broker

structure SubscribeSession where
  code : ReturnCode
  messages : List Message := []
  close : Bool := false
deriving DecidableEq, Repr

/-- What is seen of one connection; a subscription only where the client was taken. -/
structure SubscribeSessionReport where
  output : Octets
  diagnostics : List Diagnostic
  subscription : Option (Call × PacketId)
deriving DecidableEq, Repr

structure SubscribeReport where
  sessions : List SubscribeSessionReport
  exit : Option Exit
  tail : Octets
  diagnostics : List Diagnostic
deriving DecidableEq, Repr

/-- A subscriber that has not begun, on a client that takes its calls. -/
def subscriberBegun (topic : String) : Conversation where
  listener := Session.start (Subscriber.role topic)
    { link := Link.immediate fun _ => Client.answer (.subscribe topic .atMostOnce) }

/-- Lets the client say something, after a pause if there is one. -/
def converse (delay : Nat) (topic : String) (c : Conversation) (results : List PollResult) :
    Conversation :=
  let c := c.move delay topic (.advance delay)
  (results.foldl (fun c r => c.move delay topic (.offer r)) c).settle delay topic

abbrev Happening := Client.Connection → Client.Reaction

def exchange (c : Client.Connection) (happenings : List Happening) :
    Client.Connection × List PollResult :=
  happenings.foldl
    (fun done happening =>
      let r := happening done.1
      (r.connection, done.2 ++ r.results))
    (c, [])

/-- A numbered call is sent, and the broker acknowledges it. -/
def acknowledged (numbered : Call × PacketId) : List Happening :=
  [(·.send numbered.1), (·.receive (Wire.subAck numbered.2))]

/-- The broker sends its messages, all in one piece. -/
def delivery (messages : List Message) : Happening := (·.receive (messages.flatMap Wire.publish))

def subscribeSession (network : Network) (delay : Nat) (topic : String)
    (client : Client.Connection) (c : Conversation) (s : SubscribeSession) :
    Except Timeout (Client.Connection × Conversation × SubscribeSessionReport) := do
  network.awaitConnection
  let (client, results) := exchange client
    [fun client => client.opened.receive (Wire.connAck (UInt8.ofNat s.code.value))]
  let answered := converse delay topic c results
  let before := c.listener.surroundings.trace.size
  let calls := Trace.calls (answered.listener.surroundings.history.drop before)
  let numbered := Client.assignIds client.lastId calls
  let ending : List Happening := if s.close then [Client.Connection.hangUp] else []
  let (client, results) := exchange client
    (numbered.flatMap acknowledged ++ [delivery s.messages] ++ ending)
  let done := converse delay topic answered results
  let deeds : Trace := done.listener.surroundings.history.drop before
  let report := {
    output := deeds.output
    diagnostics :=
      Pump.diagnostics (done.feed.history.drop c.feed.trace.size) ++ deeds.diagnostics
    subscription := numbered.head? }
  return (client, done, report)

def subscribeSessions (network : Network) (delay : Nat) (topic : String)
    (client : Client.Connection) (c : Conversation) :
    List SubscribeSession → Except Timeout SubscribeReport
  | [] =>
    let ended := c.listener.react (Subscriber.role topic) .shutdown
    let deeds : Trace := ended.surroundings.history.drop c.listener.surroundings.trace.size
    .ok {
      sessions := []
      exit := match ended.run with
        | .ended (.finished exit) => some exit
        | _ => none
      tail := deeds.output
      diagnostics := deeds.diagnostics }
  | s :: sessions => do
    let (client, c, report) ← subscribeSession network delay topic client c s
    let rest ← subscribeSessions network delay topic client c sessions
    return { rest with sessions := report :: rest.sessions }

/-- What a script leads to, from the first connection on. -/
def subscribeScript (network : Network) (delay : Nat) (topic : String)
    (sessions : List SubscribeSession) : Except Timeout SubscribeReport :=
  subscribeSessions network delay topic {} (subscriberBegun topic) sessions

end BrokerLoad.Broker

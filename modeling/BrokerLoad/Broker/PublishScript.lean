/-
  BrokerLoad/Broker/PublishScript.lean
  ====================================
  A whole publisher against a scripted broker: send loop, client, pump and
  reporter together.

  The broker answers the request for a connection with some code and completes
  every handshake in order.  The client takes every message that it does not
  refuse unseen, numbers it and puts it on the wire; what the handshakes end in
  goes through the pump to the reporter.  A refused client keeps its messages to
  itself, but the send loop runs all the same.
-/
import BrokerLoad.Broker.Network
import BrokerLoad.Client.Delivery
import BrokerLoad.Pump
import BrokerLoad.Session

namespace BrokerLoad.Broker

/-- The request for a connection, as a broker sees it. -/
structure ConnectRequest where
  clientId : String
  keepAliveSeconds : Nat
  cleanSession : Bool
deriving DecidableEq, Repr

def ConnectRequest.ofOptions (o : Endpoint.Options) : ConnectRequest where
  clientId := o.clientId
  keepAliveSeconds := o.keepAlive / 1000
  cleanSession := o.cleanSession

/-- The flags of a request that brings neither credentials nor a last will. -/
def ConnectRequest.flags (r : ConnectRequest) : Nat := if r.cleanSession then 2 else 0

def answerTo (code : ReturnCode) : PollResult :=
  if code = .success then .event (.incoming (.connAck false .success)) else .refused code

/-! ### The parts and how they feed each other -/

def publisherRun (plan : Plan) : Session Publisher :=
  let role := Publisher.role plan
  let link := Link.immediate fun _ => Client.answer (.publish plan.topic plan.qos "")
  let begun := (Session.start role { link }).resume role
  (List.replicate plan.count.toNat (Stimulus.advance plan.interval)).foldl (Session.react role)
    begun

/-- The accepted messages of a run, numbered, if the broker takes the client. -/
def onTheWire (code : ReturnCode) (calls : List Call) : List (Call × PacketId) :=
  if code = .success then Client.assignIds 0 (Client.acceptedOf calls) else []

/-- Everything that the client says: the broker's answer, then the handshakes. -/
def clientResults (code : ReturnCode) (calls : List Call) : List PollResult :=
  answerTo code :: ((onTheWire code calls).flatMap Client.handshake).map .event

/-- What the pump makes of results that are all there, when it is never interrupted. -/
def pumpRun (delay : Nat) (results : List PollResult) : Pump.Surroundings :=
  ((Pump.activity delay).settle { ready := results } .polling).1

/-- What a reporter makes of notices that are all there. -/
def reporterRun (notices : List Notice) : Surroundings :=
  (Reporter.activity.settle
    { link := Link.deferred, inbox := { unread := notices, isOpen := false } } .listening).1

/-! ### The whole -/

structure PublishReport where
  outcome : Option Outcome
  output : Octets
  reported : Octets
  wire : List Message
  diagnostics : List Diagnostic
deriving DecidableEq, Repr

def publishScript (network : Network) (delay : Nat) (plan : Plan) (code : ReturnCode) :
    Except Timeout PublishReport := do
  network.awaitConnection
  let run := publisherRun plan
  let history := run.surroundings.history
  let feed := pumpRun delay (clientResults code history.calls)
  return {
    outcome := match run.run.phase with
      | .ended (.finished outcome) => some outcome
      | _ => none
    output := history.output
    reported := (reporterRun (Pump.sent feed.history)).history.output
    wire := (onTheWire code history.calls).filterMap Client.message?
    diagnostics := Pump.diagnostics feed.history ++ history.diagnostics }

end BrokerLoad.Broker

/-
  BrokerLoad/Broker/PumpScript.lean
  =================================
  A pump whose client talks to a scripted broker.

  The broker accepts connections and answers the request with some code, sends
  messages or plain octets, and hangs up.  What the client makes of it is left to
  `Client.Connection`; the pump polls until nothing is left, and each step tells
  what it sent and reported.  At the end the reader of its notices goes away.
-/
import BrokerLoad.Broker.Network
import BrokerLoad.Client.Connection

namespace BrokerLoad.Broker

inductive PumpStep where
  /-- Accepts the next connection and answers with a code. -/
  | accept (code : UInt8)
  | publish (message : Message)
  | send (octets : Octets)
  | close
deriving DecidableEq, Repr

/-- What one step led to.  For a connection after a failure it also tells whether the
    pump had waited long enough. -/
structure PumpStepReport where
  notices : List Notice
  diagnostics : List Diagnostic
  waited : Option Bool
deriving DecidableEq, Repr

structure PumpReport where
  steps : List PumpStepReport
  /-- Whether the pump was there until its reader went away. -/
  running : Bool
  /-- Whether it is gone since. -/
  stopped : Bool
  closing : List Diagnostic
deriving DecidableEq, Repr

structure PumpScene where
  connection : Client.Connection := {}
  feed : Pump.Surroundings := {}
  pump : Pump := .polling

namespace PumpScene

def settle (delay : Nat) (x : PumpScene) : PumpScene :=
  let settled := (Pump.activity delay).settle x.feed x.pump
  { x with feed := settled.1, pump := settled.2 }

def patient (x : PumpScene) : PumpScene :=
  match x.pump with
  | .pausing deadline => { x with feed.now := max x.feed.now deadline }
  | _ => x

/-- Lets the client have its say and the pump poll it. -/
def react (delay : Nat) (x : PumpScene) (r : Client.Reaction) : PumpScene :=
  settle delay { x with connection := r.connection, feed.ready := x.feed.ready ++ r.results }

def lastFailure? (x : PumpScene) : Option Nat :=
  (x.feed.history.reverse.find? fun d => match d.effect with
    | .polled result => result.isFailure
    | _ => false).map (·.time)

def step (network : Network) (delay : Nat) (x : PumpScene) :
    PumpStep → Except Timeout PumpScene
  | .accept code => do
    network.awaitConnection
    let x := x.patient
    return x.react delay (x.connection.opened.receive (Wire.connAck code))
  | .publish message => .ok (x.react delay (x.connection.receive (Wire.publish message)))
  | .send octets => .ok (x.react delay (x.connection.receive octets))
  | .close => .ok (x.react delay x.connection.hangUp)

def perform (network : Network) (delay : Nat) (x : PumpScene) (s : PumpStep) :
    Except Timeout (PumpScene × PumpStepReport) := do
  let y ← x.step network delay s
  let deeds := y.feed.history.drop x.feed.trace.size
  let waited := match s, x.lastFailure? with
    | .accept _, some failure => deeds.head?.map fun d => decide (failure + delay ≤ d.time)
    | _, _ => none
  return (y, { notices := Pump.sent deeds, diagnostics := Pump.diagnostics deeds, waited })

def performAll (network : Network) (delay : Nat) (x : PumpScene) :
    List PumpStep → Except Timeout PumpReport
  | [] =>
    let y := settle delay { x with feed.unclaimed := true }
    .ok {
      steps := []
      running := x.pump != .ended
      stopped := y.pump == .ended
      closing := Pump.diagnostics (y.feed.history.drop x.feed.trace.size) }
  | s :: steps => do
    let (y, report) ← x.perform network delay s
    let rest ← y.performAll network delay steps
    return { rest with steps := report :: rest.steps }

end PumpScene

/-- What a script leads to, from the first connection on. -/
def pumpScript (network : Network) (delay : Nat) (steps : List PumpStep) :
    Except Timeout PumpReport :=
  PumpScene.performAll network delay {} steps

end BrokerLoad.Broker

/-
  BrokerLoad/Broker/CommandScript.lean
  ====================================
  A whole program, from its words to its exit status, against a scripted broker.

  The broker answers the request for a connection with some code.  A subscriber
  that it takes is sent messages; a publisher's handshakes are completed.  When
  enough lines have been seen the program is interrupted.  Which diagnostics are
  shown is up to the filter.
-/
import BrokerLoad.Broker.SubscribeScript
import BrokerLoad.CommandLine
import BrokerLoad.Diagnostic.Filter

namespace BrokerLoad.Broker

structure CommandBroker where
  code : ReturnCode
  messages : List Message := []
  lines : Nat := 0
  reports : Nat := 0
deriving DecidableEq, Repr

/-- What is seen of a program until it is interrupted. -/
inductive CommandReport where
  | subscribed (request : ConnectRequest) (subscription : Option (Call × PacketId))
      (output : Octets) (diagnostics : List String)
  | published (request : ConnectRequest) (lines reports : List Octets) (wire : List Message)
      (diagnostics : List String)
deriving DecidableEq, Repr

def shownLines (filter : Diagnostic.Filter) (diagnostics : List Diagnostic) : List String :=
  let lines := ((diagnostics.filter filter.shows).filter (·.severity.rank ≤ 3)).map (·.line)
  lines.eraseDups.mergeSort fun a b => !(b < a)

def outputLines : Octets → List Octets
  | [] => []
  | o :: octets =>
    if o = 0x0a then [o] :: outputLines octets
    else
      match outputLines octets with
      | [] => [[o]]
      | line :: lines => (o :: line) :: lines

/-- The first so many messages of the standard plan, and then the interruption. -/
def interruptedRun (plan : Plan) (messages : Nat) : Session Publisher :=
  let role := Publisher.role plan
  let link := Link.immediate fun _ => Client.answer (.publish plan.topic plan.qos "")
  let begun := (Session.start role { link }).resume role
  let going := (List.replicate (messages - 1) (Stimulus.advance plan.interval)).foldl
    (Session.react role) begun
  going.react role .shutdown

def publishCommand (filter : Diagnostic.Filter) (request : ConnectRequest) (topic : String)
    (b : CommandBroker) : CommandReport :=
  let run := interruptedRun (Plan.standard topic) (max b.lines b.reports)
  let history := run.surroundings.history
  let feed := pumpRun Endpoint.reconnectDelay (clientResults b.code history.calls)
  let reported := (reporterRun (Pump.sent feed.history)).history.output
  .published request ((outputLines history.output).take b.lines)
    ((outputLines reported).take b.reports)
    (((onTheWire b.code history.calls).filterMap Client.message?).take (b.reports - 1))
    (shownLines filter (Pump.diagnostics feed.history ++ history.diagnostics
      ++ [.sendingInterrupted run.run.submitted]))

def subscribeCommand (network : Network) (filter : Diagnostic.Filter) (request : ConnectRequest)
    (topic : String) (b : CommandBroker) : Except Timeout CommandReport := do
  let report ← subscribeScript network Endpoint.reconnectDelay topic
    [{ code := b.code, messages := b.messages }]
  return .subscribed request (report.sessions.head?.bind (·.subscription))
    (report.sessions.flatMap (·.output) ++ report.tail)
    (shownLines filter (report.sessions.flatMap (·.diagnostics) ++ report.diagnostics))

/-- A program with the given words and setting of its filter.  One that is not asked to
    work ends without a connection, and the broker waits in vain; so it would if the
    client's options were not accepted, which does not happen. -/
def commandScript (network : Network) (program : Program) (words : List Octets)
    (setting? : Option String) (draw : UInt32) (b : CommandBroker) :
    Except Timeout CommandReport := do
  network.awaitConnection
  match CommandLine.read words, program.clientOptions draw with
  | .run topic, .ok options =>
    let request := ConnectRequest.ofOptions options
    let filter := Diagnostic.Filter.ofSetting setting?
    match program with
    | .publish => return publishCommand filter request topic b
    | .subscribe => subscribeCommand network filter request topic b
  | _, _ => .error .connection

end BrokerLoad.Broker

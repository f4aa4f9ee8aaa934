/-
  BrokerLoad/Engine.lean
  ======================
  A program at work: its loops, its pump and its client's connection on one clock.

  The outer layer tells an engine what time it is, what arrived and whether the
  signal is up, and gets back what to send, what to print and what to report.  A
  call of a loop is accepted as long as the client's queue has room, and otherwise
  waits for it; queued calls are sent as the connection takes them.
-/
import BrokerLoad.Client.Connection
import BrokerLoad.Session

namespace BrokerLoad

/-! ### The client -/

/-- A client with its pump: the connection, the calls accepted and not yet sent, and
    the moment at which something was last sent. -/
structure ClientEngine where
  keepAlive : Nat
  connection : Client.Connection := {}
  pump : Pump := .polling
  feed : Pump.Surroundings := {}
  queue : List Call := []
  lastSent : Nat := 0

namespace ClientEngine

def room (c : ClientEngine) : Nat := Endpoint.requestCapacity - c.queue.length

def absorb (c : ClientEngine) (r : Client.Reaction) : ClientEngine × Octets :=
  ({ c with
      connection := r.connection
      feed.ready := c.feed.ready ++ r.results
      lastSent := if r.sent.isEmpty then c.lastSent else c.feed.now },
    r.sent)

/-- Whether a new connection is due: there is none, and the pump asks for results that
    only a connection can give. -/
def wantsConnection (c : ClientEngine) : Bool :=
  c.connection.stage == .lost && c.pump == .polling && c.feed.ready.isEmpty

def connected (c : ClientEngine) (options : Endpoint.Options) : ClientEngine × Octets :=
  c.absorb {
    connection := c.connection.opened
    sent := Wire.connect options.clientId (UInt16.ofNat (options.keepAlive / 1000))
      options.cleanSession }

def unreachable (c : ClientEngine) : ClientEngine :=
  { c with feed.ready := c.feed.ready ++ [.failed] }

def drain (c : ClientEngine) : List Call → ClientEngine × Octets
  | [] => ({ c with queue := [] }, [])
  | call :: calls =>
    if c.connection.isReady then
      let (c, sent) := c.absorb (c.connection.send call)
      let (c, later) := c.drain calls
      (c, sent ++ later)
    else ({ c with queue := call :: calls }, [])

/-- Says that it is still there, when it has been silent for its keep-alive. -/
def ping (c : ClientEngine) : ClientEngine × Octets :=
  if c.connection.stage == .established && c.lastSent + c.keepAlive ≤ c.feed.now then
    c.absorb {
      connection := c.connection
      results := [.event (.outgoing .pingReq)]
      sent := Wire.pingReq }
  else (c, [])

def pumpInto (c : ClientEngine) (inbox : Inbox) : ClientEngine × Inbox :=
  let settled := (Pump.activity Endpoint.reconnectDelay).settle { c.feed with inbox } c.pump
  ({ c with feed := settled.1, pump := settled.2 }, settled.1.inbox)

end ClientEngine

/-! ### A loop on a client -/

/-- How the next calls of a loop are answered when the queue has room for so many: a
    loop whose calls the client refuses unseen has them refused, and others are
    accepted until the queue is full. -/
def answersWithRoom (refuses : Bool) (made room : Nat) : Nat → Option Answer := fun n =>
  if refuses then some (.refused Client.refusal)
  else if n ≤ made + room then some .accepted
  else none

/-- A loop, the client that takes its calls, and the reader of the client's notices if
    that is not the loop itself. -/
structure Engine (σ : Type) where
  role : Role σ
  refuses : Bool
  session : Session σ
  client : ClientEngine
  reporter : Option (Session Reporter) := none
  waiting : Option Call := none

/-- What the outer layer has to do after a tick. -/
structure Tick where
  sent : Octets
  printed : Octets
  reported : List Diagnostic

namespace Engine

variable {σ : Type}

def start (role : Role σ) (refuses : Bool) (keepAlive : Nat)
    (reporter : Option (Session Reporter)) : Engine σ where
  role
  refuses
  session := Session.start role { link := Link.deferred }
  client := { keepAlive }
  reporter

def inform (e : Engine σ) : Engine σ :=
  match e.reporter with
  | some reader =>
    let (client, inbox) := e.client.pumpInto reader.surroundings.inbox
    let reader := { reader with surroundings.inbox := inbox }
    { e with client, reporter := some (reader.resume Reporter.role) }
  | none =>
    let (client, inbox) := e.client.pumpInto e.session.surroundings.inbox
    { e with client, session.surroundings.inbox := inbox }

def serveWaiting (e : Engine σ) : Engine σ :=
  match e.waiting with
  | some call =>
    if e.client.room = 0 then e
    else
      { e with
        waiting := none
        session := e.session.change e.role (.resolve .accepted)
        client.queue := e.client.queue ++ [call] }
  | none => e

/-- Lets the loop go on; the calls that were accepted at once are queued. -/
def proceed (e : Engine σ) : Engine σ :=
  let made := e.session.surroundings.link.made
  let before := e.session.surroundings.trace.size
  let answers := answersWithRoom e.refuses made e.client.room
  let session := { e.session with surroundings.link.atOnce := answers }.resume e.role
  let calls := Trace.calls (session.surroundings.history.drop before)
  let accepted := if e.refuses then [] else
    if e.role.waits session.run then calls.dropLast else calls
  let waiting := if e.role.waits session.run then calls.getLast?.or e.waiting else none
  { e with session, waiting, client.queue := e.client.queue ++ accepted }

/-- The deeds since the last tick, for the outer layer; they are forgotten here. -/
def settleAccounts (e : Engine σ) (sent : Octets) : Engine σ × Tick :=
  let deeds := e.session.surroundings.history
  let news := match e.reporter with
    | some reader => reader.surroundings.history
    | none => []
  let reader := e.reporter.map fun r => { r with surroundings.trace := #[] }
  ({ e with
      session.surroundings.trace := #[]
      client.feed.trace := #[]
      reporter := reader },
    { sent
      printed := Trace.output news ++ Trace.output deeds
      reported := Pump.diagnostics e.client.feed.history ++ Trace.diagnostics deeds })

/-- One tick: the clock is set, the signal is up or not, news come through, the loop goes
    on, and what was called for is sent. -/
def tick (e : Engine σ) (now : Nat) (raised : Bool) : Engine σ × Tick :=
  let e := { e with
    client.feed.now := now
    session.surroundings.now := now
    session.surroundings.signal.raised := e.session.surroundings.signal.raised || raised }
  let e := e.inform.serveWaiting.proceed
  let (client, calls) := e.client.drain e.client.queue
  let (client, pings) := client.ping
  { e with client }.settleAccounts (calls ++ pings)

end Engine

end BrokerLoad

/-
  BrokerLoad/Client/Connection.lean
  =================================
  A client's side of one connection: what it makes of the octets that arrive, and
  what it sends.

  The first packet after connecting has to be the broker's answer.  From then on
  an acknowledgement counts only if something waits for it; anything else that a
  broker may not send, and every frame that cannot be read, loses the connection.
  Messages that were on their way are sent again over the next one.

  Packets that have arrived together are taken in batches of at most ten, and what
  they lead to is there when the whole batch was taken.  A batch that loses the
  connection leaves what its packets had led to for the next connection.
-/
import BrokerLoad.Client.Delivery
import BrokerLoad.Pump
import BrokerLoad.Wire

namespace BrokerLoad.Client

inductive Stage where
  | lost
  | connecting
  | established
deriving DecidableEq, Repr

/-- What a client keeps from packet to packet. -/
structure Connection where
  stage : Stage := .lost
  buffer : Octets := []
  lastId : PacketId := 0
  unacknowledged : List Message := []
  /-- Numbers of messages that were taken and are being released. -/
  releasing : List PacketId := []
  /-- Numbers of messages that arrived and are not released by the broker. -/
  held : List PacketId := []
  /-- Results of the batch that lost the last connection. -/
  leftOver : List PollResult := []
deriving DecidableEq, Repr

/-- The packets taken together so far, and what they led to. -/
structure Batch where
  count : Nat := 0
  results : List PollResult := []
  sent : Octets := []
deriving DecidableEq, Repr

/-- What a client does with a piece of input: its new state, the results for whoever
    polls it, and the octets that it sends. -/
structure Reaction where
  connection : Connection
  results : List PollResult := []
  sent : Octets := []
deriving DecidableEq, Repr

namespace Connection

/-- The greatest body of a packet that is read. -/
def packetLimit : Nat := 10240

def batchLimit : Nat := 10

/-- The connection is lost: what did not arrive in full is dropped, and the broker's
    messages need no release any more. -/
def lose (c : Connection) : Connection := { c with stage := .lost, buffer := [], held := [] }

def opened (c : Connection) : Connection := { c.lose with stage := .connecting }

/-- What is sent again once a new connection is established. -/
def resent (c : Connection) : Octets :=
  c.unacknowledged.flatMap Wire.publish ++ c.releasing.flatMap Wire.pubRel

/-- What an established connection makes of a packet; nothing, if the packet may
    not come. -/
def accept (c : Connection) : Packet → Option Reaction
  | .publish m =>
    let arrived : PollResult := .event (.incoming (.publish m))
    match m.qos with
    | .atMostOnce => some { connection := c, results := [arrived] }
    | .atLeastOnce =>
      some {
        connection := c
        results := [.event (.outgoing (.pubAck m.pkid)), arrived]
        sent := Wire.pubAck m.pkid }
    | .exactlyOnce =>
      some {
        connection := { c with held := m.pkid :: c.held.erase m.pkid }
        results := [.event (.outgoing (.pubRec m.pkid)), arrived]
        sent := Wire.pubRec m.pkid }
  | .pubAck pkid =>
    if c.unacknowledged.any (·.pkid == pkid) then
      some {
        connection := { c with unacknowledged := c.unacknowledged.filter (·.pkid != pkid) }
        results := [.event (.incoming (.pubAck pkid))] }
    else none
  | .pubRec pkid =>
    if c.unacknowledged.any (·.pkid == pkid) then
      some {
        connection := { c with
          unacknowledged := c.unacknowledged.filter (·.pkid != pkid)
          releasing := c.releasing ++ [pkid] }
        results := [.event (.outgoing (.pubRel pkid)), .event (.incoming (.pubRec pkid))]
        sent := Wire.pubRel pkid }
    else none
  | .pubComp pkid =>
    if c.releasing.contains pkid then
      some {
        connection := { c with releasing := c.releasing.erase pkid }
        results := [.event (.incoming (.pubComp pkid))] }
    else none
  | .pubRel pkid =>
    if c.held.contains pkid then
      some {
        connection := { c with held := c.held.erase pkid }
        results := [.event (.outgoing (.pubComp pkid)), .event (.incoming (.pubRel pkid))]
        sent := Wire.pubComp pkid }
    else none
  | .subAck pkid => some { connection := c, results := [.event (.incoming (.subAck pkid))] }
  | .unsubAck pkid => some { connection := c, results := [.event (.incoming (.unsubAck pkid))] }
  | .pingResp => some { connection := c, results := [.event (.incoming .pingResp)] }
  | _ => none

def fail (c : Connection) (batch : Batch) : Reaction where
  connection := { c.lose with leftOver := c.leftOver ++ batch.results }
  results := [.failed]

def read (c : Connection) (batch : Batch) (octets : Octets) : Reaction :=
  match h : Wire.scan packetLimit octets with
  | .incomplete =>
    { connection := { c with buffer := octets }, results := batch.results, sent := batch.sent }
  | .malformed => c.fail batch
  | .found first body rest =>
    have : rest.length < octets.length := Wire.scan_lt h
    match (Wire.packet? first body).bind c.accept with
    | none => c.fail batch
    | some r =>
      let results := batch.results ++ r.results
      let sent := batch.sent ++ r.sent
      if batch.count + 1 < batchLimit then
        r.connection.read { count := batch.count + 1, results, sent } rest
      else
        let later := r.connection.read {} rest
        { connection := later.connection
          results := results ++ later.results
          sent := sent ++ later.sent }
termination_by octets.length

/-- Reads the broker's answer; a refusal loses the connection.  Over a new connection
    what was left over comes first. -/
def begin (c : Connection) (octets : Octets) : Reaction :=
  match Wire.scan packetLimit octets with
  | .incomplete => { connection := { c with buffer := octets } }
  | .malformed => c.fail {}
  | .found first body rest =>
    match Wire.packet? first body with
    | some (.connAck sessionPresent .success) =>
      let later := { c with stage := .established, buffer := [], leftOver := [] }.read {} rest
      { connection := later.connection
        results := .event (.incoming (.connAck sessionPresent .success))
          :: (c.leftOver ++ later.results)
        sent := c.resent ++ later.sent }
    | some (.connAck _ code) => { connection := c.lose, results := [.refused code] }
    | _ => c.fail {}

def receive (c : Connection) (octets : Octets) : Reaction :=
  match c.stage with
  | .lost => { connection := c }
  | .connecting => c.begin (c.buffer ++ octets)
  | .established => { c with buffer := [] }.read {} (c.buffer ++ octets)

def hangUp (c : Connection) : Reaction :=
  if c.stage = .lost then { connection := c } else { connection := c.lose, results := [.failed] }

/-- Whether the next call may be sent: there is a connection, and fewer messages are
    on their way than may be. -/
def isReady (c : Connection) : Bool :=
  c.stage == .established &&
    c.unacknowledged.length + c.releasing.length < inflightLimit.toNat &&
    !(c.unacknowledged.any (·.pkid == nextId c.lastId) || c.releasing.contains (nextId c.lastId))

def send (c : Connection) (call : Call) : Reaction :=
  let pkid := if isAcknowledged call then nextId c.lastId else 0
  let c := if isAcknowledged call then { c with lastId := pkid } else c
  match call with
  | .publish topic qos payload =>
    let m : Message := { topic, qos, pkid, payload := Octets.ofText payload }
    { connection :=
        if qos = .atMostOnce then c else { c with unacknowledged := c.unacknowledged ++ [m] }
      results := [.event (.outgoing (.publish pkid))]
      sent := Wire.publish m }
  | .subscribe topic qos =>
    { connection := c
      results := [.event (.outgoing (.subscribe pkid))]
      sent := Wire.subscribe topic qos pkid }

end Connection

end BrokerLoad.Client

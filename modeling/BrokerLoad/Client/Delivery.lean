/-
  BrokerLoad/Client/Delivery.lean
  ===============================
  What a client makes of accepted calls: the numbers it gives to packets, and the
  events of each handshake.

  Packets that are acknowledged are numbered from one to the limit of messages on
  their way, and then from one again.  A message that is not acknowledged has
  number zero and takes none.
-/
import BrokerLoad.Client.RequestQueue

namespace BrokerLoad.Client

/-- How many messages may be on their way; also the greatest packet number. -/
def inflightLimit : PacketId := 100

def nextId (last : PacketId) : PacketId :=
  if last < inflightLimit then last + 1 else 1

def isAcknowledged : Call → Bool
  | .publish _ qos _ => qos != .atMostOnce
  | .subscribe _ _ => true

/-- Gives accepted calls their packet numbers, after the last number given. -/
def assignIds : PacketId → List Call → List (Call × PacketId)
  | _, [] => []
  | last, call :: calls =>
    if isAcknowledged call then (call, nextId last) :: assignIds (nextId last) calls
    else (call, 0) :: assignIds last calls

def acceptedOf (calls : List Call) : List Call := calls.filter fun c => !refusesUnseen c

def message? : Call × PacketId → Option Message
  | (.publish topic qos payload, pkid) =>
    some { topic, qos, pkid, payload := Octets.ofText payload }
  | (.subscribe _ _, _) => none

/-- The events of a numbered call with a broker that completes its handshake. -/
def handshake : Call × PacketId → List ClientEvent
  | (.publish _ .atMostOnce _, pkid) => [.outgoing (.publish pkid)]
  | (.publish _ .atLeastOnce _, pkid) =>
    [.outgoing (.publish pkid), .incoming (.pubAck pkid)]
  | (.publish _ .exactlyOnce _, pkid) =>
    [.outgoing (.publish pkid), .incoming (.pubRec pkid),
      .outgoing (.pubRel pkid), .incoming (.pubComp pkid)]
  | (.subscribe _ _, pkid) => [.outgoing (.subscribe pkid), .incoming (.subAck pkid)]

end BrokerLoad.Client

/-
  BrokerLoad/Packet.lean
  ======================
  The vocabulary of a broker session as a client sees it: qualities of service,
  return codes, the packets that arrive, the packets that leave, and the events
  that tell of either.
-/
import BrokerLoad.Octets

namespace BrokerLoad

/-! ### Qualities of service -/

/-- How hard the two ends try to deliver a message. -/
inductive QoS where
  | atMostOnce
  | atLeastOnce
  | exactlyOnce
deriving DecidableEq, Repr

def QoS.level : QoS → Nat
  | .atMostOnce => 0
  | .atLeastOnce => 1
  | .exactlyOnce => 2

def QoS.ofLevel? : Nat → Option QoS
  | 0 => some .atMostOnce
  | 1 => some .atLeastOnce
  | 2 => some .exactlyOnce
  | _ => none

theorem QoS.ofLevel?_level (q : QoS) : QoS.ofLevel? q.level = some q := by
  cases q <;> rfl

/-! ### Return codes -/

/-- A broker's answer to a request for a connection. -/
inductive ReturnCode where
  | success
  | refusedProtocolVersion
  | badClientId
  | serviceUnavailable
  | badUserNamePassword
  | notAuthorized
deriving DecidableEq, Repr

namespace ReturnCode

/-- The number that stands for a return code in a packet, and that the operator
    is shown. -/
def value : ReturnCode → Nat
  | .success => 0
  | .refusedProtocolVersion => 1
  | .badClientId => 2
  | .serviceUnavailable => 3
  | .badUserNamePassword => 4
  | .notAuthorized => 5

def name : ReturnCode → String
  | .success => "Success"
  | .refusedProtocolVersion => "RefusedProtocolVersion"
  | .badClientId => "BadClientId"
  | .serviceUnavailable => "ServiceUnavailable"
  | .badUserNamePassword => "BadUserNamePassword"
  | .notAuthorized => "NotAuthorized"

def all : List ReturnCode :=
  [.success, .refusedProtocolVersion, .badClientId, .serviceUnavailable,
    .badUserNamePassword, .notAuthorized]

def ofValue? (n : Nat) : Option ReturnCode := all[n]?

def ofName? (s : String) : Option ReturnCode := all.find? fun c => c.name == s

theorem ofValue?_value (c : ReturnCode) : ofValue? c.value = some c := by
  cases c <;> rfl

theorem value_injective {c d : ReturnCode} (h : c.value = d.value) : c = d := by
  have := congrArg ofValue? h
  simpa [ofValue?_value] using this

end ReturnCode

/-! ### Packets and events -/

/-- The number that ties a packet to its acknowledgement. -/
abbrev PacketId := UInt16

structure Message where
  topic : String
  payload : Octets
  qos : QoS := .atMostOnce
  pkid : PacketId := 1
  retain : Bool := false
  dup : Bool := false
deriving DecidableEq, Repr

inductive Packet where
  | connect (clientId : String)
  | connAck (sessionPresent : Bool) (code : ReturnCode)
  | publish (message : Message)
  | pubAck (pkid : PacketId)
  | pubRec (pkid : PacketId)
  | pubRel (pkid : PacketId)
  | pubComp (pkid : PacketId)
  | subscribe (topic : String)
  | subAck (pkid : PacketId)
  | unsubscribe (topic : String)
  | unsubAck (pkid : PacketId)
  | pingReq
  | pingResp
  | disconnect
deriving DecidableEq, Repr

/-- What the client tells of a packet that it sent. -/
inductive Departure where
  | publish (pkid : PacketId)
  | subscribe (pkid : PacketId)
  | unsubscribe (pkid : PacketId)
  | pubAck (pkid : PacketId)
  | pubRec (pkid : PacketId)
  | pubRel (pkid : PacketId)
  | pubComp (pkid : PacketId)
  | awaitAck (pkid : PacketId)
  | pingReq
  | pingResp
  | disconnect
deriving DecidableEq, Repr

inductive ClientEvent where
  | incoming (packet : Packet)
  | outgoing (departure : Departure)
deriving DecidableEq, Repr

end BrokerLoad

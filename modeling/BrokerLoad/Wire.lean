/-
  BrokerLoad/Wire.lean
  ====================
  Packets as octets: how a client's packets are written, and how a broker's are
  read.

  A packet is a frame: one octet for its kind and flags, the length of its body
  in one to four octets of seven bits each, and the body.  Octets arrive in
  pieces of any size, so reading a frame may also find that there is more to come.
  A packet that only a client may send is no packet to read here.
-/
import BrokerLoad.Packet

namespace BrokerLoad.Wire

/-! ### Writing -/

def word (n : UInt16) : Octets := [(n >>> 8).toUInt8, n.toUInt8]

def field (octets : Octets) : Octets := word (UInt16.ofNat octets.length) ++ octets

/-- A length in at most so many octets of seven bits, the low ones first; the top
    bit says that another octet follows. -/
def lengthOctets : Nat → Nat → Octets
  | 0, _ => []
  | k + 1, n =>
    if n < 128 then [UInt8.ofNat n]
    else UInt8.ofNat (n % 128 + 128) :: lengthOctets k (n / 128)

def frame (first : UInt8) (body : Octets) : Octets :=
  first :: lengthOctets 4 body.length ++ body

/-- The request for a connection of a client that brings nothing but its id. -/
def connect (clientId : String) (keepAliveSeconds : UInt16) (cleanSession : Bool) : Octets :=
  frame 0x10 (field (Octets.ofText "MQTT") ++ [4, if cleanSession then 2 else 0]
    ++ word keepAliveSeconds ++ field (Octets.ofText clientId))

def publish (m : Message) : Octets :=
  let flags := (if m.dup then 8 else 0) + 2 * m.qos.level + (if m.retain then 1 else 0)
  frame (UInt8.ofNat (0x30 + flags)) (field (Octets.ofText m.topic)
    ++ (if m.qos = .atMostOnce then [] else word m.pkid) ++ m.payload)

def subscribe (topic : String) (qos : QoS) (pkid : PacketId) : Octets :=
  frame 0x82 (word pkid ++ field (Octets.ofText topic) ++ [UInt8.ofNat qos.level])

def pubAck (pkid : PacketId) : Octets := frame 0x40 (word pkid)

def pubRec (pkid : PacketId) : Octets := frame 0x50 (word pkid)

def pubRel (pkid : PacketId) : Octets := frame 0x62 (word pkid)

def pubComp (pkid : PacketId) : Octets := frame 0x70 (word pkid)

def pingReq : Octets := frame 0xc0 []

def subAck (pkid : PacketId) : Octets := frame 0x90 (word pkid ++ [0])

def connAck (code : UInt8) : Octets := frame 0x20 [0, code]

/-! ### Reading frames -/

inductive LengthScan where
  | incomplete
  | malformed
  | found (length : Nat) (rest : Octets)
deriving DecidableEq, Repr

/-- Reads a length of at most so many octets; `unit` is the worth of the next. -/
def scanLength : Nat → Nat → Nat → Octets → LengthScan
  | 0, _, _, _ => .malformed
  | _ + 1, _, _, [] => .incomplete
  | k + 1, unit, sum, octet :: rest =>
    let sum := sum + octet.toNat % 128 * unit
    if octet.toNat < 128 then .found sum rest else scanLength k (128 * unit) sum rest

inductive Scan where
  | incomplete
  | malformed
  | found (first : UInt8) (body rest : Octets)
deriving DecidableEq, Repr

/-- Reads a frame whose body is not longer than the limit. -/
def scan (limit : Nat) : Octets → Scan
  | [] => .incomplete
  | first :: octets =>
    match scanLength 4 1 0 octets with
    | .incomplete => .incomplete
    | .malformed => .malformed
    | .found length rest =>
      if limit < length then .malformed
      else if rest.length < length then .incomplete
      else .found first (rest.take length) (rest.drop length)

theorem scanLength_lt {k unit sum : Nat} {octets : Octets} {length : Nat} {rest : Octets}
    (h : scanLength k unit sum octets = .found length rest) : rest.length < octets.length := by
  induction k generalizing unit sum octets with
  | zero => cases h
  | succ k ih =>
    cases octets with
    | nil => cases h
    | cons octet octets =>
      simp only [scanLength] at h
      split at h
      · obtain ⟨-, rfl⟩ := LengthScan.found.inj h
        exact Nat.lt_succ_self _
      · exact Nat.lt_succ_of_lt (ih h)

/-- A frame that was read is gone from what is left. -/
theorem scan_lt {limit : Nat} {octets : Octets} {first : UInt8} {body rest : Octets}
    (h : scan limit octets = .found first body rest) : rest.length < octets.length := by
  cases octets with
  | nil => cases h
  | cons head octets =>
    simp only [scan] at h
    split at h
    · cases h
    · cases h
    · rename_i length tail hlength
      split at h
      · cases h
      · split at h
        · cases h
        · obtain ⟨-, -, rfl⟩ := Scan.found.inj h
          have := scanLength_lt hlength
          simp only [List.length_drop, List.length_cons]
          omega

/-! ### Reading packets -/

def word? : Octets → Option (UInt16 × Octets)
  | high :: low :: rest => some (high.toUInt16 <<< 8 ||| low.toUInt16, rest)
  | _ => none

def text? (octets : Octets) : Option (String × Octets) := do
  let (length, rest) ← word? octets
  if rest.length < length.toNat then none
  else
    let text ← Octets.text? (rest.take length.toNat)
    return (text, rest.drop length.toNat)

/-- A message, from the flags and the body of its packet.  One that is to be
    acknowledged has a number other than zero. -/
def message? (first : UInt8) (body : Octets) : Option Message := do
  let qos ← QoS.ofLevel? (first.toNat / 2 % 4)
  let (topic, rest) ← text? body
  let retain := first.toNat % 2 == 1
  let dup := first.toNat / 8 % 2 == 1
  if qos = .atMostOnce then return { topic, payload := rest, qos, pkid := 0, retain, dup }
  else
    let (pkid, payload) ← word? rest
    if pkid = 0 then none else return { topic, payload, qos, pkid, retain, dup }

/-- A packet that a broker may send, from the first octet and the body of its
    frame.  Only the answer to a ping may have an empty body. -/
def packet? (first : UInt8) (body : Octets) : Option Packet :=
  match first.toNat / 16, body with
  | 13, _ => some .pingResp
  | 2, flags :: code :: _ =>
    (ReturnCode.ofValue? code.toNat).map (.connAck (flags.toNat % 2 == 1))
  | 3, body => (message? first body).map .publish
  | 4, body => (word? body).map fun r => .pubAck r.1
  | 5, body => (word? body).map fun r => .pubRec r.1
  | 6, body => (word? body).map fun r => .pubRel r.1
  | 7, body => (word? body).map fun r => .pubComp r.1
  | 9, body => do
    let (pkid, codes) ← word? body
    if codes.isEmpty || codes.any (fun c => 2 < c && c != 128) then none
    else return .subAck pkid
  | 11, [high, low] => (word? [high, low]).map fun r => .unsubAck r.1
  | _, _ => none

end BrokerLoad.Wire

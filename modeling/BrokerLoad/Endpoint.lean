/-
  BrokerLoad/Endpoint.lean
  ========================
  Where the broker is, and what a client says of itself when it connects.

  Both programs talk to one fixed broker.  Each process takes a client id of its
  own, its role followed by eight random hexadecimal digits, so that two runs
  never push each other off the broker.  A client id may not begin with a space,
  and a keep-alive below five whole seconds is not accepted; the client id is
  looked at first.
-/
import BrokerLoad.Packet

namespace BrokerLoad.Endpoint

/-! ### Fixed values (durations in milliseconds) -/

def host : String := "localhost"

def port : Nat := 1883

def subscriberKeepAlive : Nat := 60000

/-- The pause between a failed connection and the next attempt. -/
def reconnectDelay : Nat := 1000

/-- How many requests may wait between a client and its connection. -/
def requestCapacity : Nat := 1024

def address : String := host ++ ":" ++ toString port

/-! ### Connection options -/

/-- What a client asks for when it connects.  A client that says no more than its
    id and its keep-alive starts clean, brings no credentials and no last will,
    and acknowledges by itself. -/
structure Options where
  clientId : String
  host : String := Endpoint.host
  port : Nat := Endpoint.port
  keepAlive : Nat := 60000
  cleanSession : Bool := true
  credentials : Option (String × String) := none
  lastWill : Option Message := none
  manualAcks : Bool := false
  inflight : Nat := 100
  maxPacketSize : Nat := 10240
deriving Repr

inductive OptionsError where
  | clientIdBeginsWithSpace
  | keepAliveTooShort
deriving DecidableEq, Repr

def OptionsError.message : OptionsError → String
  | .clientIdBeginsWithSpace => "Invalid client id"
  | .keepAliveTooShort => "Keep alives should be >= 5 secs"

def hexWord (word : UInt32) : String :=
  let digits := Nat.toDigits 16 word.toNat
  String.ofList (List.replicate (8 - digits.length) '0' ++ digits)

def clientId (role : String) (draw : UInt32) : String :=
  role ++ "-" ++ hexWord draw

/-- The options of a client for the fixed broker; the keep-alive is the usual one
    minute unless it is given. -/
def options (role : String) (draw : UInt32) (keepAlive? : Option Nat) :
    Except OptionsError Options :=
  let id := clientId role draw
  if id.startsWith " " then .error .clientIdBeginsWithSpace
  else
    match keepAlive? with
    | none => .ok { clientId := id }
    | some keepAlive =>
      if keepAlive / 1000 < 5 then .error .keepAliveTooShort
      else .ok { clientId := id, keepAlive }

end BrokerLoad.Endpoint

/-
  BrokerLoad/Broker/Network.lean
  ==============================
  The network between a client and a scripted broker.

  A scripted broker plays its part step by step and waits for the client's.  Its
  patience is limited: when the client's connection does not come, it gives up.
  Over a network that carries nothing that is what happens to every script that
  begins with a connection.
-/

namespace BrokerLoad.Broker

inductive Network where
  | up
  | down
deriving DecidableEq, Repr

/-- What a scripted broker waited for in vain. -/
inductive Timeout where
  | connection
deriving DecidableEq, Repr

def Timeout.message : Timeout → String
  | .connection => "timeout: connect"

def Network.awaitConnection : Network → Except Timeout Unit
  | .up => .ok ()
  | .down => .error .connection

end BrokerLoad.Broker

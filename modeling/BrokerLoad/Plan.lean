/-
  BrokerLoad/Plan.lean
  ====================
  What one publisher run sends: how many messages, to which topic, how hard, and
  at which pace.
-/
import BrokerLoad.Packet

namespace BrokerLoad

/-- The plan of a publisher run.  `interval` is the pause after each message, in
    milliseconds. -/
structure Plan where
  topic : String
  count : UInt32
  interval : Nat
  qos : QoS
deriving DecidableEq, Repr

/-- The plan that the operator gets by naming a topic: twenty thousand messages,
    a millisecond apart, each delivered exactly once. -/
def Plan.standard (topic : String) : Plan where
  topic
  count := 20000
  interval := 1
  qos := .exactlyOnce

end BrokerLoad

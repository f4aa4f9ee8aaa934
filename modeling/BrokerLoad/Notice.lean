/-
  BrokerLoad/Notice.lean
  ======================
  The slice of a client's activity that the programs act on.

  A connection produces many kinds of events; three of them matter here.  The
  broker answered a request for a connection, a message was delivered exactly
  once, a message arrived.  Acknowledgements on the way to these, pings and
  everything the client sends are nobody's business.
-/
import BrokerLoad.Packet

namespace BrokerLoad

inductive Notice where
  /-- The broker answered a request for a connection, well or ill. -/
  | connected (code : ReturnCode)
  /-- A message has completed its exactly-once handshake. -/
  | delivered (pkid : PacketId)
  /-- A message arrived on a topic. -/
  | received (topic : String) (payload : Octets)
deriving DecidableEq, Repr

/-- The notice that an event calls for, if any.  How a message was sent (its
    quality of service, its packet number, whether it was retained or repeated)
    is not part of the notice. -/
def Notice.ofEvent? : ClientEvent → Option Notice
  | .incoming (.connAck _ code) => some (.connected code)
  | .incoming (.pubComp pkid) => some (.delivered pkid)
  | .incoming (.publish message) => some (.received message.topic message.payload)
  | _ => none

end BrokerLoad

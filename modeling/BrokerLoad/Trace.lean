/-
  BrokerLoad/Trace.lean
  =====================
  What a run did: its deeds in order, each with the reading of the clock.

  A run acts on its surroundings in five ways.  It writes octets, asks for a
  flush, makes a call on its link, takes a notice from its inbox and reports a
  diagnostic.  One trace holds all five in the order in which they happened, and
  `output`, `flushes`, `calls`, `taken` and `diagnostics` are its views.
-/
import BrokerLoad.Diagnostic
import BrokerLoad.Notice

namespace BrokerLoad

inductive Call where
  | publish (topic : String) (qos : QoS) (payload : String)
  | subscribe (topic : String) (qos : QoS)
deriving DecidableEq, Repr

inductive Effect where
  /-- These octets were taken by the writer. -/
  | wrote (octets : Octets)
  /-- A flush was asked for, whether it went well or not. -/
  | flushed
  /-- A call was made, whatever becomes of it. -/
  | called (call : Call)
  | took (notice : Notice)
  | reported (diagnostic : Diagnostic)
deriving DecidableEq, Repr

structure Deed (α : Type) where
  time : Nat
  effect : α
deriving DecidableEq, Repr

namespace Effect

def written : Effect → Octets
  | wrote octets => octets
  | _ => []

def call? : Effect → Option Call
  | called call => some call
  | _ => none

def notice? : Effect → Option Notice
  | took notice => some notice
  | _ => none

def diagnostic? : Effect → Option Diagnostic
  | reported diagnostic => some diagnostic
  | _ => none

end Effect

abbrev Trace := List (Deed Effect)

namespace Trace

def output (trace : Trace) : Octets := trace.flatMap (·.effect.written)

def flushes (trace : Trace) : Nat := trace.countP (·.effect == .flushed)

def calls (trace : Trace) : List Call := trace.filterMap (·.effect.call?)

def taken (trace : Trace) : List Notice := trace.filterMap (·.effect.notice?)

def diagnostics (trace : Trace) : List Diagnostic := trace.filterMap (·.effect.diagnostic?)

def callTimes (trace : Trace) : List Nat :=
  (trace.filter (·.effect.call?.isSome)).map (·.time)

end Trace

end BrokerLoad

/-
  BrokerLoad/Pump.lean
  ====================
  The loop that keeps a client's connection going and hands over its notices.

  The pump asks the client for what happens next and puts the notice that this
  calls for, if any, into an inbox.  A refusal by the broker is a notice as well,
  since the programs report its code.  After a refusal, and after every other
  failure, the pump pauses before it asks again; the client then connects anew.
  Nothing but the disappearance of the inbox's reader ends it, and it looks for
  that before everything else.

  Two things are left out of its log.  One is the client's own account of a
  failure, which the program adds to the words "connection error"; it is the
  client's text and decides nothing.  The other is the entry of level TRACE that
  the program makes of every event before it deals with it.
-/
import BrokerLoad.Activity
import BrokerLoad.Surroundings

namespace BrokerLoad

/-- What the client says when it is asked what happened next. -/
inductive PollResult where
  | event (event : ClientEvent)
  /-- The broker answered the request for a connection with a refusal. -/
  | refused (code : ReturnCode)
  /-- The connection failed in another way; in which one, the client's text about it would
      tell. -/
  | failed
deriving DecidableEq, Repr

namespace PollResult

def notice? : PollResult → Option Notice
  | event e => Notice.ofEvent? e
  | refused code => some (.connected code)
  | failed => none

def isFailure : PollResult → Bool
  | event _ => false
  | _ => true

def diagnostic? : PollResult → Option Diagnostic
  | event _ => none
  | refused code => some (.connectionRefused code)
  | failed => some .connectionFailed

end PollResult

/-! ### Surroundings -/

inductive Pump.Effect where
  /-- A result was asked for and came. -/
  | polled (result : PollResult)
  /-- A notice was put into the inbox. -/
  | sent (notice : Notice)
  | reported (diagnostic : Diagnostic)
deriving DecidableEq, Repr

/-- What the pump has around it: a clock, the client's results that are there to be
    asked for, the inbox that it fills, and whether somebody reads from that. -/
structure Pump.Surroundings where
  now : Nat := 0
  ready : List PollResult := []
  inbox : Inbox := {}
  unclaimed : Bool := false
  trace : Array (Deed Pump.Effect) := #[]

namespace Pump.Surroundings

def history (s : Surroundings) : List (Deed Pump.Effect) := s.trace.toList

/-- Adds a deed at the current reading of the clock. -/
def record (s : Surroundings) (effect : Pump.Effect) : Surroundings :=
  { s with trace := s.trace.push { time := s.now, effect } }

/-- Puts a notice into the inbox, if it is read. -/
def send (s : Surroundings) (notice : Notice) : Surroundings :=
  if s.unclaimed then s
  else { s with inbox := s.inbox.put notice }.record (.sent notice)

end Pump.Surroundings

def Pump.sent (deeds : List (Deed Pump.Effect)) : List Notice :=
  deeds.filterMap fun d => match d.effect with
    | .sent notice => some notice
    | _ => none

def Pump.polled (deeds : List (Deed Pump.Effect)) : List PollResult :=
  deeds.filterMap fun d => match d.effect with
    | .polled result => some result
    | _ => none

def Pump.diagnostics (deeds : List (Deed Pump.Effect)) : List Diagnostic :=
  deeds.filterMap fun d => match d.effect with
    | .reported diagnostic => some diagnostic
    | _ => none

/-! ### The loop -/

inductive Pump where
  | polling
  /-- A result came, and is not dealt with yet. -/
  | handling (result : PollResult)
  /-- It waits for the clock to reach the deadline. -/
  | pausing (deadline : Nat)
  | ended
deriving DecidableEq, Repr

namespace Pump

def stop (s : Surroundings) : Surroundings × Pump :=
  (s.record (.reported .noticesUnclaimed), .ended)

/-- Deals with a result.  After an event the pump goes on at once, unless its
    notice has no reader; after a failure it pauses. -/
def handle (delay : Nat) (s : Surroundings) : PollResult → Surroundings × Pump
  | .event e =>
    match Notice.ofEvent? e with
    | none => (s, .polling)
    | some notice => if s.unclaimed then stop s else (s.send notice, .polling)
  | .refused code =>
    ((s.record (.reported (.connectionRefused code))).send (.connected code),
      .pausing (s.now + delay))
  | .failed => (s.record (.reported .connectionFailed), .pausing (s.now + delay))

def step (delay : Nat) (s : Surroundings) : Pump → Option (Surroundings × Pump)
  | .polling =>
    if s.unclaimed then some (stop s)
    else
      match s.ready with
      | [] => none
      | result :: rest =>
        some ({ s with ready := rest }.record (.polled result), .handling result)
  | .handling result => some (handle delay s result)
  | .pausing deadline =>
    if s.unclaimed then some (stop s)
    else if deadline ≤ s.now then some (s, .polling)
    else none
  | .ended => none

/-- How many steps the pump may still take: three for each result that is there. -/
def weight (s : Surroundings) : Pump → Nat
  | .polling => 3 * s.ready.length + 1
  | .handling _ => 3 * s.ready.length + 3
  | .pausing _ => 3 * s.ready.length + 2
  | .ended => 0

theorem ready_send (s : Surroundings) (notice : Notice) : (s.send notice).ready = s.ready := by
  unfold Surroundings.send
  split <;> rfl

theorem weight_handle (delay : Nat) (s : Surroundings) (result : PollResult) :
    weight (handle delay s result).1 (handle delay s result).2 ≤ 3 * s.ready.length + 2 := by
  unfold handle
  split
  · split
    · exact Nat.le_succ _
    · split
      · exact Nat.zero_le _
      · simp only [weight, ready_send]
        exact Nat.le_succ _
  · simp only [weight, ready_send]
    exact Nat.le_refl _
  · exact Nat.le_refl _

theorem weight_step (delay : Nat) {s : Surroundings} {p : Pump} {s' : Surroundings} {p' : Pump}
    (h : step delay s p = some (s', p')) : weight s' p' < weight s p := by
  unfold step at h
  split at h
  · split at h
    · exact weight_lt_of_eq weight h (Nat.zero_le _) (Nat.succ_pos _)
    · split at h
      · cases h
      · rename_i hready
        refine weight_lt_of_eq weight h (Nat.le_refl _) ?_
        simp only [weight, Surroundings.record, hready, List.length_cons]
        omega
  · exact weight_lt_of_eq weight h (weight_handle _ _ _) (Nat.lt_succ_self _)
  · split at h
    · exact weight_lt_of_eq weight h (Nat.zero_le _) (Nat.succ_pos _)
    · split at h
      · exact weight_lt_of_eq weight h (Nat.le_refl _) (Nat.lt_succ_self _)
      · cases h
  · cases h

def activity (delay : Nat) : Activity Surroundings Pump where
  step := step delay
  weight := weight
  weight_step := weight_step delay

end Pump

end BrokerLoad

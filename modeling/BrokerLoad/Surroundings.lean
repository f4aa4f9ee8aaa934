/-
  BrokerLoad/Surroundings.lean
  ============================
  Everything that a run meets outside itself: a clock, a shutdown signal, a
  writer, a link to the client, an inbox of notices.

  The parts can be hostile.  A writer may take only so many octets or fail a
  flush, a link may refuse calls or leave them waiting, and the signal may be
  raised by a run's own output or by its own call.  What a run does to its
  surroundings is kept as a trace.
-/
import BrokerLoad.Trace

namespace BrokerLoad

/-! ### The parts -/

/-- The shutdown signal.  Once up it stays up.  It can also be set to go up with
    the octet or the call of a given number. -/
structure Signal where
  raised : Bool := false
  onOctets : Option Nat := none
  onCall : Option Nat := none
deriving DecidableEq, Repr

/-- Where a run writes.  It takes octets one by one up to its limit, and the flush
    of one number may fail. -/
structure Writer where
  limit : Option Nat := none
  failingFlush : Option Nat := none
  written : Nat := 0
  flushes : Nat := 0
deriving DecidableEq, Repr

inductive WriterError where
  | full
  | flushFailed
deriving DecidableEq, Repr

def WriterError.message : WriterError → String
  | .full => "writer full"
  | .flushFailed => "flush failed"

/-- How a run ended: in its own way, or because its writer failed. -/
inductive Ending (α : Type) where
  | finished (outcome : α)
  | failed (error : WriterError)
deriving DecidableEq, Repr

inductive Answer where
  | accepted
  | refused (reason : String)
deriving DecidableEq, Repr

/-- The way to the client.  `atOnce n` is the answer that call number `n` gets at
    once; a call without one waits until an answer comes from outside. -/
structure Link where
  atOnce : Nat → Option Answer
  made : Nat := 0
  answer : Option Answer := none

/-- The queue of notices between the connection and a run. -/
structure Inbox where
  unread : List Notice := []
  isOpen : Bool := true
deriving DecidableEq, Repr

structure Surroundings where
  now : Nat := 0
  signal : Signal := {}
  writer : Writer := {}
  link : Link
  inbox : Inbox := {}
  trace : Array (Deed Effect) := #[]

/-! ### Writers and links -/

def Writer.fitting (w : Writer) (octets : Octets) : Octets :=
  match w.limit with
  | none => octets
  | some limit => octets.take (limit - w.written)

namespace Link

def immediate (answer : Nat → Answer) : Link where
  atOnce n := some (answer n)

def deferred : Link where
  atOnce _ := none

end Link

/-! ### Inboxes -/

namespace Inbox

/-- A notice put in after the close is lost. -/
def put (inbox : Inbox) (notice : Notice) : Inbox :=
  if inbox.isOpen then { inbox with unread := inbox.unread ++ [notice] } else inbox

/-- What was put in before the close can still be taken. -/
def close (inbox : Inbox) : Inbox := { inbox with isOpen := false }

end Inbox

/-! ### What a run can do -/

namespace Surroundings

def history (s : Surroundings) : Trace := s.trace.toList

/-- Adds a deed at the current reading of the clock. -/
def record (s : Surroundings) (effect : Effect) : Surroundings :=
  { s with trace := s.trace.push { time := s.now, effect } }

def raiseIf (s : Surroundings) (condition : Bool) : Surroundings :=
  { s with signal.raised := s.signal.raised || condition }

def report (s : Surroundings) (diagnostic : Diagnostic) : Surroundings :=
  s.record (.reported diagnostic)

/-- Writes octets.  The writer takes what fits and fails if that is not all; the
    signal goes up if an octet was taken and its number has been reached. -/
def write (s : Surroundings) (octets : Octets) : Surroundings × Option WriterError :=
  let fitting := s.writer.fitting octets
  let error? := if fitting.length < octets.length then some .full else none
  if fitting.isEmpty then (s, error?)
  else
    let written := s.writer.written + fitting.length
    let s := { s with writer.written := written }
    let reached := s.signal.onOctets.any (· ≤ written)
    ((s.record (.wrote fitting)).raiseIf reached, error?)

def flush (s : Surroundings) : Surroundings × Option WriterError :=
  let number := s.writer.flushes + 1
  let s := { s with writer.flushes := number }
  (s.record .flushed, if s.writer.failingFlush = some number then some .flushFailed else none)

/-- Makes a call.  The signal goes up, if it is set to, before the call is
    answered. -/
def call (s : Surroundings) (call : Call) : Surroundings × Option Answer :=
  let number := s.link.made + 1
  let s := { s with link.made := number, link.answer := none }
  ((s.record (.called call)).raiseIf (s.signal.onCall == some number), s.link.atOnce number)

def take? (s : Surroundings) : Option (Notice × Surroundings) :=
  match s.inbox.unread with
  | [] => none
  | notice :: rest => some (notice, { s with inbox.unread := rest }.record (.took notice))

/-- The surroundings of a new run in place of an abandoned one: the signal is down
    and no longer set to anything, and a waiting call is forgotten. -/
def renewed (s : Surroundings) : Surroundings :=
  { s with signal := {}, link.answer := none }

/-! ### What writing, flushing and calling leave alone -/

theorem inbox_write (s : Surroundings) (octets : Octets) :
    (s.write octets).1.inbox = s.inbox := by
  unfold write
  dsimp only
  split <;> rfl

theorem inbox_flush (s : Surroundings) : s.flush.1.inbox = s.inbox := rfl

theorem inbox_call (s : Surroundings) (call : Call) : (s.call call).1.inbox = s.inbox := rfl

/-- A taken notice is unread no more. -/
theorem length_unread_of_take? {s t : Surroundings} {notice : Notice}
    (h : s.take? = some (notice, t)) :
    s.inbox.unread.length = t.inbox.unread.length + 1 := by
  unfold take? at h
  split at h
  · cases h
  · rename_i hunread
    obtain ⟨-, rfl⟩ := Prod.mk.inj (Option.some.inj h)
    simp [hunread, record]

end Surroundings

end BrokerLoad

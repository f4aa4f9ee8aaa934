/-
  BrokerLoad/Reporter.lean
  ========================
  The loop that tells the operator how a publisher's connection is doing.

  Every notice is taken in order, also after the inbox was closed, and is
  followed by a flush, also when it puts nothing into print.  The loop ends when
  the inbox is closed and drained.
-/
import BrokerLoad.Activity
import BrokerLoad.Endpoint
import BrokerLoad.Surroundings

namespace BrokerLoad

inductive Reporter where
  | listening
  /-- A notice is in print, its flush not asked for. -/
  | flushing
  | ended (result : Ending Unit)
deriving DecidableEq, Repr

namespace Reporter

/-- What a notice puts into print: the return code of a connect, good or bad, and
    the number of a delivered message. -/
def text : Notice → Octets
  | .connected code =>
    Octets.ofText ("Connected successfully to " ++ Endpoint.address ++ " with result code "
      ++ toString code.value ++ "\n")
  | .delivered pkid =>
    Octets.ofText ("message successfully sent to topic with ID " ++ toString pkid.toNat ++ "\n")
  | .received _ _ => []

def unlessFailed (next : Reporter) : Surroundings × Option WriterError → Surroundings × Reporter
  | (s, none) => (s, next)
  | (s, some error) => (s, .ended (.failed error))

def step (s : Surroundings) : Reporter → Option (Surroundings × Reporter)
  | .listening =>
    match s.take? with
    | some (notice, s) => some (unlessFailed .flushing (s.write (text notice)))
    | none => if s.inbox.isOpen then none else some (s, .ended (.finished ()))
  | .flushing => some (unlessFailed .listening s.flush)
  | .ended _ => none

/-- How many steps a run may still take: two for each unread notice. -/
def weight (s : Surroundings) : Reporter → Nat
  | .listening => 2 * s.inbox.unread.length + 1
  | .flushing => 2 * s.inbox.unread.length + 2
  | .ended _ => 0

theorem weight_unlessFailed_le (next : Reporter) (r : Surroundings × Option WriterError) :
    weight (unlessFailed next r).1 (unlessFailed next r).2 ≤ weight r.1 next := by
  rcases r with ⟨s, _ | error⟩
  · exact Nat.le_refl _
  · exact Nat.zero_le _

theorem weight_step {s : Surroundings} {r : Reporter} {s' : Surroundings} {r' : Reporter}
    (h : step s r = some (s', r')) : weight s' r' < weight s r := by
  unfold step at h
  split at h
  · split at h
    · rename_i notice taken htake
      refine weight_lt_of_eq weight h (weight_unlessFailed_le _ _) ?_
      have := Surroundings.length_unread_of_take? htake
      simp only [weight, Surroundings.inbox_write]
      omega
    · split at h
      · cases h
      · exact weight_lt_of_eq weight h (Nat.le_refl _) (Nat.succ_pos _)
  · refine weight_lt_of_eq weight h (weight_unlessFailed_le _ _) ?_
    simp only [weight, Surroundings.inbox_flush]
    omega
  · cases h

def activity : Activity Surroundings Reporter where
  step := step
  weight := weight
  weight_step := weight_step

end Reporter

end BrokerLoad

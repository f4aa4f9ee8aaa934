/-
  BrokerLoad/Subscriber.lean
  ==========================
  The receive loop: notices handled in order of arrival, and a subscription asked
  for after each good connect, since every session starts clean.

  The loop looks at the shutdown signal only when it is ready for the next
  notice, and then before it looks at its inbox.  So a notice that was begun is
  finished, with its lines, the answer to its subscribe call and its flush, and
  no notice is taken once the signal is up.
-/
import BrokerLoad.Activity
import BrokerLoad.ByteLiteral
import BrokerLoad.Endpoint
import BrokerLoad.Surroundings

namespace BrokerLoad

/-- How a subscriber run ends when its writer does not stop it. -/
inductive Exit where
  /-- The signal was up. -/
  | interrupted
  /-- No notice can come any more. -/
  | linkClosed
deriving DecidableEq, Repr

inductive Subscriber where
  | listening
  /-- A subscribe call waits for its answer. -/
  | subscribing
  /-- A notice is handled, its flush not asked for. -/
  | flushing
  | ended (result : Ending Exit)
deriving DecidableEq, Repr

namespace Subscriber

/-! ### Texts -/

def connectLine (code : ReturnCode) : Octets :=
  Octets.ofText ("Connected to " ++ Endpoint.address ++ " with result code : "
    ++ toString code.value ++ "\n")

def subscribeLine (topic : String) : Octets :=
  Octets.ofText ("Subscribing to topic : " ++ topic ++ "\n")

/-- The line of a message: its topic as it is, its payload as a literal. -/
def messageLine (topic : String) (payload : Octets) : Octets :=
  Octets.ofText ("received message on : " ++ topic ++ " -> ")
    ++ ByteLiteral.encode payload ++ Octets.ofText "\n"

/-- What a notice puts into print for a subscriber of the given topic. -/
def text (topic : String) : Notice → Octets
  | .connected code =>
    connectLine code ++ if code = .success then subscribeLine topic else []
  | .received source payload => messageLine source payload
  | .delivered _ => []

/-! ### Single steps -/

/-- Takes the answer to a subscribe call; a refusal is reported and no more. -/
def conclude (s : Surroundings) (answer : Answer) : Surroundings × Subscriber :=
  let s := { s with link.answer := none }
  let s := match answer with
    | .accepted => s
    | .refused reason => s.report (.subscribeRejected reason)
  (s, .flushing)

def afterCall : Surroundings × Option Answer → Surroundings × Subscriber
  | (s, some answer) => conclude s answer
  | (s, none) => (s, .subscribing)

/-- Goes on after the lines of a notice: a good connect calls for a subscription. -/
def afterText (topic : String) (notice : Notice) :
    Surroundings × Option WriterError → Surroundings × Subscriber
  | (s, some error) => (s, .ended (.failed error))
  | (s, none) =>
    if notice = .connected .success then afterCall (s.call (.subscribe topic .atMostOnce))
    else (s, .flushing)

def afterFlush : Surroundings × Option WriterError → Surroundings × Subscriber
  | (s, some error) => (s, .ended (.failed error))
  | (s, none) => (s, .listening)

def step (topic : String) (s : Surroundings) : Subscriber → Option (Surroundings × Subscriber)
  | .listening =>
    if s.signal.raised then some (s.report .subscriberInterrupted, .ended (.finished .interrupted))
    else
      match s.take? with
      | some (notice, s) => some (afterText topic notice (s.write (text topic notice)))
      | none => if s.inbox.isOpen then none else some (s, .ended (.finished .linkClosed))
  | .subscribing => s.link.answer.map (conclude s)
  | .flushing => some (afterFlush s.flush)
  | .ended _ => none

/-! ### The loop -/

/-- How many steps a run may still take: three for each unread notice. -/
def weight (s : Surroundings) : Subscriber → Nat
  | .listening => 3 * s.inbox.unread.length + 1
  | .subscribing => 3 * s.inbox.unread.length + 3
  | .flushing => 3 * s.inbox.unread.length + 2
  | .ended _ => 0

theorem weight_conclude (s : Surroundings) (answer : Answer) :
    weight (conclude s answer).1 (conclude s answer).2 = 3 * s.inbox.unread.length + 2 := by
  cases answer <;> rfl

theorem weight_afterText (topic : String) (notice : Notice)
    (r : Surroundings × Option WriterError) :
    weight (afterText topic notice r).1 (afterText topic notice r).2
      ≤ 3 * r.1.inbox.unread.length + 3 := by
  rcases r with ⟨s, _ | error⟩
  · unfold afterText
    dsimp only
    split
    · have hinbox := s.inbox_call (.subscribe topic .atMostOnce)
      rcases hcall : s.call (.subscribe topic .atMostOnce) with ⟨s', _ | answer⟩ <;>
        rw [hcall] at hinbox <;> dsimp only at hinbox
      · simp only [afterCall, weight]
        exact Nat.le_of_eq (by rw [hinbox])
      · simp only [afterCall]
        rw [weight_conclude, hinbox]
        exact Nat.le_succ _
    · exact Nat.le_succ _
  · exact Nat.zero_le _

theorem weight_step (topic : String) {s : Surroundings} {p : Subscriber} {s' : Surroundings}
    {p' : Subscriber} (h : step topic s p = some (s', p')) : weight s' p' < weight s p := by
  unfold step at h
  split at h
  · split at h
    · exact weight_lt_of_eq weight h (Nat.le_refl _) (Nat.succ_pos _)
    · split at h
      · rename_i notice taken htake
        refine weight_lt_of_eq weight h (weight_afterText _ _ _) ?_
        have := Surroundings.length_unread_of_take? htake
        simp only [weight, Surroundings.inbox_write]
        omega
      · split at h
        · cases h
        · exact weight_lt_of_eq weight h (Nat.le_refl _) (Nat.succ_pos _)
  · obtain ⟨answer, -, h⟩ := Option.map_eq_some_iff.mp h
    refine weight_lt_of_eq weight (congrArg some h) (Nat.le_of_eq (weight_conclude _ _)) ?_
    exact Nat.lt_succ_self _
  · have hinbox := s.inbox_flush
    rcases hflush : s.flush with ⟨t, _ | error⟩ <;> rw [hflush] at h hinbox
    · refine weight_lt_of_eq weight h (Nat.le_refl _) ?_
      simp only [afterFlush, weight]
      rw [hinbox]
      exact Nat.lt_succ_self _
    · exact weight_lt_of_eq weight h (Nat.le_refl _) (Nat.succ_pos _)
  · cases h

def activity (topic : String) : Activity Surroundings Subscriber where
  step := step topic
  weight := weight
  weight_step := weight_step topic

end Subscriber

end BrokerLoad

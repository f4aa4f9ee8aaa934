/-
  BrokerLoad/Publisher.lean
  =========================
  The send loop: one line, one call and one pause for each message of a plan.

  The loop looks at the shutdown signal at three places, and always before it
  looks at anything else there: before a message, between its line and its call,
  and while it waits for the call's answer or for the end of the pause.  It does
  not look between an answer and the count of submitted messages.  A refused
  message is reported and counts as submitted.

  `Publisher.activity` is the loop by its single steps; its weight bounds them by
  the messages that are left.
-/
import BrokerLoad.Activity
import BrokerLoad.Payload
import BrokerLoad.Plan
import BrokerLoad.Surroundings

namespace BrokerLoad

/-- How a publisher run ends when its writer does not stop it. -/
inductive Outcome where
  | completed (submitted : UInt32)
  | interrupted (submitted : UInt32)
deriving DecidableEq, Repr

inductive Publisher.Phase where
  /-- A message is done, or none was begun. -/
  | between
  /-- The line of a message is written, its call not made. -/
  | written
  /-- The call of a message waits for its answer. -/
  | calling
  /-- A message is submitted, and the clock has to reach the deadline. -/
  | pausing (deadline : Nat)
  | ended (result : Ending Outcome)
deriving DecidableEq, Repr

/-- A publisher run: the message in hand or last done, the count of submitted
    messages, and where it is. -/
structure Publisher where
  number : UInt32 := 0
  submitted : UInt32 := 0
  phase : Publisher.Phase := .between
deriving DecidableEq, Repr

namespace Publisher

def line (topic payload : String) : Octets :=
  Octets.ofText ("publishing message to topic : " ++ topic ++ " -> " ++ payload ++ "\n")

/-! ### Single steps -/

def interrupt (p : Publisher) (s : Surroundings) : Surroundings × Publisher :=
  (s.report (.publisherInterrupted p.submitted),
    { p with phase := .ended (.finished (.interrupted p.submitted)) })

def Phase.afterLine : Option WriterError → Phase
  | none => .written
  | some error => .ended (.failed error)

def begin (plan : Plan) (p : Publisher) (s : Surroundings) : Surroundings × Publisher :=
  let number := p.number + 1
  let attempt := s.write (line plan.topic (Payload.numbered number.toNat))
  (attempt.1, { p with number, phase := .afterLine attempt.2 })

/-- Takes the answer to a call: the message counts as submitted, whatever the
    answer, and the pause begins. -/
def conclude (plan : Plan) (p : Publisher) (s : Surroundings) (answer : Answer) :
    Surroundings × Publisher :=
  let s := { s with link.answer := none }
  let s := match answer with
    | .accepted => s
    | .refused reason => s.report (.publishRejected reason)
  (s, { p with submitted := p.submitted + 1, phase := .pausing (s.now + plan.interval) })

/-- Goes on after the call of the message in hand: with its answer, if there is
    one at once, and otherwise by waiting. -/
def afterCall (plan : Plan) (p : Publisher) :
    Surroundings × Option Answer → Surroundings × Publisher
  | (s, some answer) => p.conclude plan s answer
  | (s, none) => (s, { p with phase := .calling })

def submit (plan : Plan) (p : Publisher) (s : Surroundings) : Surroundings × Publisher :=
  p.afterCall plan (s.call (.publish plan.topic plan.qos (Payload.numbered p.number.toNat)))

def step (plan : Plan) (s : Surroundings) (p : Publisher) : Option (Surroundings × Publisher) :=
  match p.phase with
  | .between =>
    if p.number < plan.count then
      if s.signal.raised then some (p.interrupt s) else some (p.begin plan s)
    else some (s, { p with phase := .ended (.finished (.completed p.submitted)) })
  | .written => if s.signal.raised then some (p.interrupt s) else some (p.submit plan s)
  | .calling =>
    if s.signal.raised then some (p.interrupt s) else s.link.answer.map (p.conclude plan s)
  | .pausing deadline =>
    if s.signal.raised then some (p.interrupt s)
    else if deadline ≤ s.now then some (s, { p with phase := .between })
    else none
  | .ended _ => none

/-! ### The loop -/

/-- How many steps may still be taken from a phase on, with so many messages left
    after the one in hand. -/
def Phase.weight (left : Nat) : Phase → Nat
  | .between => 4 * left + 1
  | .written => 4 * left + 4
  | .calling => 4 * left + 3
  | .pausing _ => 4 * left + 2
  | .ended _ => 0

def weight (plan : Plan) (p : Publisher) : Nat :=
  p.phase.weight (plan.count.toNat - p.number.toNat)

theorem weight_conclude (plan : Plan) (p : Publisher) (s : Surroundings) (answer : Answer) :
    (p.conclude plan s answer).2.weight plan = 4 * (plan.count.toNat - p.number.toNat) + 2 :=
  rfl

/-- Counting up to a message that there is does not run over. -/
theorem toNat_number_succ {plan : Plan} {p : Publisher} (h : p.number < plan.count) :
    (p.number + 1).toNat = p.number.toNat + 1 := by
  have := UInt32.lt_iff_toNat_lt.mp h
  have := plan.count.toNat_lt
  rw [UInt32.toNat_add]
  simp
  omega

theorem weight_begin (plan : Plan) (p : Publisher) (s : Surroundings)
    (h : p.number < plan.count) :
    (p.begin plan s).2.weight plan ≤ 4 * (plan.count.toNat - p.number.toNat) := by
  have hlt : p.number.toNat < plan.count.toNat := UInt32.lt_iff_toNat_lt.mp h
  simp only [begin, weight, toNat_number_succ h]
  cases (s.write (line plan.topic (Payload.numbered (p.number.toNat + 1)))).2 with
  | none =>
    simp only [Phase.afterLine, Phase.weight]
    omega
  | some error => exact Nat.zero_le _

theorem weight_submit (plan : Plan) (p : Publisher) (s : Surroundings) :
    (p.submit plan s).2.weight plan ≤ 4 * (plan.count.toNat - p.number.toNat) + 3 := by
  unfold submit
  rcases s.call (.publish plan.topic plan.qos (Payload.numbered p.number.toNat)) with
    ⟨s', _ | answer⟩
  · exact Nat.le_refl _
  · exact Nat.le_succ _

theorem weight_step (plan : Plan) {s : Surroundings} {p : Publisher} {s' : Surroundings}
    {p' : Publisher} (h : p.step plan s = some (s', p')) : p'.weight plan < p.weight plan := by
  have lower := @weight_lt_of_eq Surroundings Publisher fun _ p => p.weight plan
  unfold step at h
  unfold weight
  split at h <;> rename_i hphase <;> simp only [hphase, Phase.weight]
  · split at h
    · rename_i hlt
      split at h
      · exact lower h (Nat.zero_le _) (Nat.lt_succ_self _)
      · exact lower h (weight_begin plan p s hlt) (Nat.lt_succ_self _)
    · exact lower h (Nat.zero_le _) (Nat.lt_succ_self _)
  · split at h
    · exact lower h (Nat.zero_le _) (Nat.lt_succ_self _)
    · exact lower h (weight_submit plan p s) (Nat.lt_succ_self _)
  · split at h
    · exact lower h (Nat.zero_le _) (Nat.lt_succ_self _)
    · obtain ⟨answer, -, h⟩ := Option.map_eq_some_iff.mp h
      exact lower (congrArg some h) (Nat.le_refl _) (Nat.lt_succ_self _)
  · split at h
    · exact lower h (Nat.zero_le _) (Nat.lt_succ_self _)
    · split at h
      · exact lower h (Nat.le_refl _) (Nat.lt_succ_self _)
      · cases h
  · cases h

def activity (plan : Plan) : Activity Surroundings Publisher where
  step := step plan
  weight _ p := p.weight plan
  weight_step := weight_step plan

end Publisher

end BrokerLoad

/-
  BrokerLoad/Proofs/Publisher/Moves.lean
  ======================================
  What a single step of the send loop can do, said once.

  `Move` lists the eight steps with everything that holds of each: the phase it
  starts from, what it asks of the signal, the link and the clock, the effects it
  adds and the state it leads to.  `move_of_step` says that there is no other step.
  The proofs about publisher runs go by cases on `Move` and do not open the loop.
-/
import BrokerLoad.Proofs.Runs

namespace BrokerLoad

/-! ### The messages of a plan -/

theorem Publisher.line_ne_nil (topic payload : String) : line topic payload ≠ [] := by
  apply Octets.ofText_ne_nil
  intro htext
  have hlength := congrArg String.length htext
  simp at hlength

namespace Plan

def announcement (plan : Plan) (number : Nat) : Octets :=
  Publisher.line plan.topic (Payload.numbered number)

def submission (plan : Plan) (number : Nat) : Call :=
  .publish plan.topic plan.qos (Payload.numbered number)

theorem announcement_ne_nil (plan : Plan) (number : Nat) : plan.announcement number ≠ [] :=
  Publisher.line_ne_nil plan.topic (Payload.numbered number)

end Plan

namespace Publisher

variable {plan : Plan}

def afterAttempt (p : Publisher) (attempt : Surroundings × Option WriterError) :
    Surroundings × Publisher :=
  (attempt.1, { p with number := p.number + 1, phase := .afterLine attempt.2 })

theorem begin_eq_afterAttempt (plan : Plan) (p : Publisher) (s : Surroundings) :
    p.begin plan s =
      p.afterAttempt (s.write (line plan.topic (Payload.numbered (p.number + 1).toNat))) := rfl

/-! ### Looks -/

/-- The next step of the run looks at the signal. -/
def Looks (plan : Plan) (p : Publisher) : Prop :=
  match p.phase with
  | .between => p.number < plan.count
  | .ended _ => False
  | _ => True

theorem Looks.going {p : Publisher} (h : p.Looks plan) : ∀ result, p.phase ≠ .ended result := by
  intro result hphase
  simp [Looks, hphase] at h

theorem step_of_raised {p : Publisher} {s : Surroundings} (hlooks : p.Looks plan)
    (hraised : s.signal.raised = true) : p.step plan s = some (p.interrupt s) := by
  unfold Looks at hlooks
  unfold step
  split at hlooks <;> rename_i hphase
  · simp [hphase, hlooks, hraised]
  · exact hlooks.elim
  · split <;> simp_all

/-! ### Moves -/

def interrupted (p : Publisher) : Publisher :=
  { p with phase := .ended (.finished (.interrupted p.submitted)) }

def counted (plan : Plan) (p : Publisher) (now : Nat) : Publisher :=
  { p with submitted := p.submitted + 1, phase := .pausing (now + plan.interval) }

/-- `Move plan s p t q`: in the surroundings `s`, the run `p` goes on as `q` in the
    surroundings `t`. -/
inductive Move (plan : Plan) (s : Surroundings) (p : Publisher) (t : Surroundings) :
    Publisher → Prop where
  /-- The run looks at the signal and finds it up. -/
  | interrupt : p.Looks plan → s.signal.raised = true →
    s.Acts [.reported (.publisherInterrupted p.submitted)] t →
    Move plan s p t p.interrupted
  /-- The line of the next message is written. -/
  | announce : p.phase = .between → p.number < plan.count → s.signal.raised = false →
    s.Acts [.wrote (plan.announcement (p.number.toNat + 1))] t →
    Move plan s p t { p with number := p.number + 1, phase := .written }
  /-- The line of the next message is cut by the writer. -/
  | cut (octets : Octets) : p.phase = .between → p.number < plan.count →
    s.signal.raised = false → s.writer.limit ≠ none →
    octets <+: plan.announcement (p.number.toNat + 1) →
    octets.length < (plan.announcement (p.number.toNat + 1)).length →
    s.Acts (Effect.writing octets) t →
    Move plan s p t { p with number := p.number + 1, phase := .ended (.failed .full) }
  /-- No message is left. -/
  | complete : p.phase = .between → plan.count ≤ p.number → t = s →
    Move plan s p t { p with phase := .ended (.finished (.completed p.submitted)) }
  /-- The call is made and waits. -/
  | await : p.phase = .written → s.signal.raised = false →
    s.link.atOnce (s.link.made + 1) = none →
    s.Acts [.called (plan.submission p.number.toNat)] t →
    Move plan s p t { p with phase := .calling }
  /-- The call is made and answered at once. -/
  | submit (answer : Answer) : p.phase = .written → s.signal.raised = false →
    s.link.atOnce (s.link.made + 1) = some answer →
    s.Acts (.called (plan.submission p.number.toNat) :: answer.complaint .publishRejected) t →
    Move plan s p t (p.counted plan s.now)
  /-- The answer to the waiting call is taken. -/
  | conclude (answer : Answer) : p.phase = .calling → s.signal.raised = false →
    s.link.answer = some answer → s.Acts (answer.complaint .publishRejected) t →
    Move plan s p t (p.counted plan s.now)
  /-- The pause is over. -/
  | proceed (deadline : Nat) : p.phase = .pausing deadline → s.signal.raised = false →
    deadline ≤ s.now → t = s → Move plan s p t { p with phase := .between }

theorem Move.acts {s t : Surroundings} {p q : Publisher} (h : Move plan s p t q) :
    ∃ effects, s.Acts effects t := by
  cases h with
  | interrupt _ _ hacts => exact ⟨_, hacts⟩
  | announce _ _ _ hacts => exact ⟨_, hacts⟩
  | cut _ _ _ _ _ _ _ hacts => exact ⟨_, hacts⟩
  | complete _ _ ht => exact ⟨[], ht ▸ .refl s⟩
  | await _ _ _ hacts => exact ⟨_, hacts⟩
  | submit _ _ _ _ hacts => exact ⟨_, hacts⟩
  | conclude _ _ _ _ hacts => exact ⟨_, hacts⟩
  | proceed _ _ _ _ ht => exact ⟨[], ht ▸ .refl s⟩

theorem acts_conclude (plan : Plan) (p : Publisher) (s : Surroundings) (answer : Answer) :
    s.Acts (answer.complaint .publishRejected) (p.conclude plan s answer).1 := by
  cases answer with
  | accepted => exact s.acts_answered
  | refused reason => exact s.acts_answered.trans (Surroundings.acts_report _ _)

theorem conclude_snd (plan : Plan) (p : Publisher) (s : Surroundings) (answer : Answer) :
    (p.conclude plan s answer).2 = p.counted plan s.now := by
  cases answer <;> rfl

theorem move_begin {p : Publisher} {s : Surroundings} (hphase : p.phase = .between)
    (hlt : p.number < plan.count) (hdown : s.signal.raised = false) :
    Move plan s p (p.begin plan s).1 (p.begin plan s).2 := by
  have hnumber := toNat_number_succ hlt
  have hbegin : p.begin plan s =
      ((s.write (plan.announcement (p.number.toNat + 1))).1,
        { p with
          number := p.number + 1
          phase := .afterLine (s.write (plan.announcement (p.number.toNat + 1))).2 }) := by
    simp only [begin, hnumber, Plan.announcement]
  rw [hbegin]
  -- the line is in print or cut, and the number has gone up either way
  rcases s.write_cases (plan.announcement (p.number.toNat + 1)) with
    ⟨hnone, hacts⟩ | ⟨hfull, hlimit, octets, hinitial, hlength, hacts⟩
  · rw [Effect.writing_of_ne_nil (plan.announcement_ne_nil _)] at hacts
    simp only [hnone, Phase.afterLine]
    exact .announce hphase hlt hdown hacts
  · simp only [hfull, Phase.afterLine]
    exact .cut octets hphase hlt hdown hlimit hinitial hlength hacts

theorem move_submit {p : Publisher} {s : Surroundings} (hphase : p.phase = .written)
    (hdown : s.signal.raised = false) :
    Move plan s p (p.submit plan s).1 (p.submit plan s).2 := by
  have hacts := s.acts_call (plan.submission p.number.toNat)
  have hanswer : (s.call (plan.submission p.number.toNat)).2 =
      s.link.atOnce (s.link.made + 1) := rfl
  have hsubmit : p.submit plan s =
      p.afterCall plan (s.call (plan.submission p.number.toNat)) := rfl
  rw [hsubmit]
  rcases hcall : s.call (plan.submission p.number.toNat) with ⟨t, _ | answer⟩ <;>
    simp only [hcall] at hacts hanswer
  · exact .await hphase hdown hanswer.symm hacts
  · simp only [afterCall, conclude_snd, hacts.now_eq]
    exact .submit answer hphase hdown hanswer.symm
      (hacts.trans (p.acts_conclude plan t answer))

theorem move_of_step {p q : Publisher} {s t : Surroundings}
    (h : p.step plan s = some (t, q)) : Move plan s p t q := by
  -- wherever the run looks at the signal, it does so before anything else
  by_cases hraised : s.signal.raised = true ∧ p.Looks plan
  · rw [step_of_raised hraised.2 hraised.1] at h
    cases h
    exact .interrupt hraised.2 hraised.1 (s.acts_report _)
  · have hdown : p.Looks plan → s.signal.raised = false := by
      intro hlooks
      exact Bool.eq_false_iff.mpr fun hup => hraised ⟨hup, hlooks⟩
    unfold Looks at hdown
    unfold step at h
    split at h <;> rename_i hphase <;> simp only [hphase] at hdown
    · split at h
      · rename_i hlt
        simp only [hdown hlt, Bool.false_eq_true, if_false, Option.some.injEq] at h
        have hmove := move_begin hphase hlt (hdown hlt)
        rwa [h] at hmove
      · rename_i hle
        cases h
        exact .complete hphase (UInt32.not_lt.mp hle) rfl
    · simp only [hdown trivial, Bool.false_eq_true, if_false, Option.some.injEq] at h
      have hmove : Move plan s p (p.submit plan s).1 (p.submit plan s).2 :=
        move_submit hphase (hdown trivial)
      rwa [h] at hmove
    · simp only [hdown trivial, Bool.false_eq_true, if_false, Option.map_eq_some_iff] at h
      obtain ⟨answer, hanswer, hconclude⟩ := h
      have hacts := p.acts_conclude plan s answer
      have hsnd := p.conclude_snd plan s answer
      rw [hconclude] at hacts hsnd
      subst hsnd
      exact .conclude answer hphase (hdown trivial) hanswer hacts
    · simp only [hdown trivial, Bool.false_eq_true, if_false] at h
      split at h
      · rename_i hover
        cases h
        exact .proceed _ hphase (hdown trivial) hover rfl
      · cases h
    · cases h

theorem acting (plan : Plan) : (role plan).Acting := fun hstep => (move_of_step hstep).acts

/-- A run rests at its end, and, while the signal is down, where a call waits without an
    answer and in a pause that is not over. -/
theorem step_eq_none_iff {p : Publisher} {s : Surroundings} :
    p.step plan s = none ↔ (∃ result, p.phase = .ended result) ∨
      s.signal.raised = false ∧ ((p.phase = .calling ∧ s.link.answer = none) ∨
        ∃ deadline, p.phase = .pausing deadline ∧ s.now < deadline) := by
  unfold step
  cases hphase : p.phase with
  | between => by_cases hlt : p.number < plan.count <;> cases s.signal.raised <;> simp [hlt]
  | written => cases s.signal.raised <;> simp
  | calling => cases s.signal.raised <;> simp
  | pausing deadline => cases s.signal.raised <;> simp
  | ended result => simp

end Publisher

end BrokerLoad

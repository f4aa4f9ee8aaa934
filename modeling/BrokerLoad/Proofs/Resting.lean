/-
  BrokerLoad/Proofs/Resting.lean
  ==============================
  Where a resumption comes to an end, and that it does.

  A loop that rests has ended or has something to wait for.  What the three loops wait for is
  said by an `Idle` predicate for each of them, in terms of what they meet outside: a call that
  was made last and has no answer, a reading that the clock does not show yet, an inbox that is
  empty and open.  A loop rests exactly there (`Settles.rests_iff`), whatever piled up before
  it was resumed, and a resumption gets there after a number of steps that its messages or
  notices bound (`Settles.finite`).
-/
import BrokerLoad.Proofs.Moments
import BrokerLoad.Proofs.Publisher.Moves
import BrokerLoad.Proofs.Reporter.Transcript
import BrokerLoad.Proofs.Subscriber.Moves

namespace BrokerLoad

/-! ### Resumptions -/

section

variable {σ : Type} {role : Role σ}

/-- A resumption is a number of steps, none of them from a place where the loop rests. -/
theorem Session.exists_steps_resume (role : Role σ) (x : Session σ) :
    ∃ n ≤ role.activity.weight x.surroundings x.run,
      x.live role (List.replicate n .step) = x.resume role ∧
        ∀ m < n, ¬ role.Rests (x.live role (List.replicate m .step)) := by
  generalize hw : role.activity.weight x.surroundings x.run = w
  -- every step lowers the weight, so there are no more steps than that
  induction w using Nat.strongRecOn generalizing x with
  | ind w ih =>
    rcases hstep : role.activity.step x.surroundings x.run with _ | ⟨s, p⟩
    · refine ⟨0, Nat.zero_le _, (Session.resume_of_rests hstep).symm, ?_⟩
      intro m hm
      exact absurd hm (Nat.not_lt_zero m)
    · have hlt : role.activity.weight s p < w := hw ▸ role.activity.weight_step hstep
      have hnext := Session.next_of_step hstep
      obtain ⟨n, hle, hresume, hgoing⟩ := ih _ hlt { surroundings := s, run := p } rfl
      refine ⟨n + 1, Nat.lt_of_le_of_lt hle hlt, ?_, ?_⟩
      · rw [List.replicate_succ, Session.live_cons, hnext, hresume, Session.resume_of_step hstep]
      · intro m hm
        cases m with
        | zero =>
          intro hrests
          exact absurd (hrests.symm.trans hstep) (by simp)
        | succ m =>
          rw [List.replicate_succ, Session.live_cons, hnext]
          exact hgoing m (by omega)

/-! ### Calls without an answer -/

/-- This call is the last thing that was done, and no answer to it is there. -/
def Surroundings.Awaits (s : Surroundings) (call : Call) : Prop :=
  s.effects.getLast? = some (.called call) ∧ s.link.answer = none

/-- A loop that begins to wait only by making a call.  `awaited` is the call that it waits
    for. -/
structure Role.Awaiting (role : Role σ) (awaited : σ → Option Call) : Prop where
  start : awaited role.start = none
  step : ∀ {s t p q call}, role.activity.step s p = some (t, q) → awaited q = some call →
    ∃ effects, s.Acts (effects ++ [.called call]) t

/-- As long as a run waits, the call is the last thing that was done. -/
theorem Role.Awaiting.getLast?_run {awaited : σ → Option Call} {s : Surroundings} {y : Session σ}
    {events : List Stimulus} (h : role.Awaiting awaited)
    (hrun : role.Run (Session.start role s) events y) {call : Call}
    (hawaited : awaited y.run = some call) :
    y.surroundings.effects.getLast? = some (.called call) := by
  induction hrun with
  | start => exact absurd (h.start.symm.trans hawaited) (by simp)
  | @change events z stimulus _ ih =>
    by_cases hrestart : stimulus = .restart
    · subst hrestart
      exact absurd (h.start.symm.trans hawaited) (by simp)
    · have hchanged : Session.Changed stimulus z (z.change role stimulus) :=
        z.changed_change hrestart
      rw [hchanged.run_eq] at hawaited
      rw [hchanged.effects_eq]
      exact ih hawaited
  | step _ hstep _ =>
    obtain ⟨effects, hacts⟩ := h.step hstep hawaited
    rw [hacts.effects_eq, ← List.append_assoc, List.getLast?_concat]

/-! ### What a resumption comes to -/

/-- What a resumption of `x` comes to, if the loop has something to wait for where `Idle`
    holds. -/
structure Settles (role : Role σ) (Idle : Session σ → Prop) (bound : Nat) (x : Session σ) :
    Prop where
  /-- It ends after some steps, and not before the loop rests. -/
  finite : ∃ n ≤ bound, x.live role (List.replicate n .step) = x.resume role ∧
    ∀ m < n, ¬ role.Rests (x.live role (List.replicate m .step))
  idle : role.isOver (x.resume role).run = false → Idle (x.resume role)
  rests_iff : role.Rests x ↔ role.isOver x.run = true ∨ Idle x

theorem Role.settles {Idle : Session σ → Prop} {bound : Nat} {s : Surroundings}
    (hrests : ∀ {y events}, role.Run (Session.start role s) events y →
      (role.Rests y ↔ role.isOver y.run = true ∨ Idle y)) (moments : List Moment)
    (hbound : role.activity.weight (role.after s moments).surroundings
      (role.after s moments).run ≤ bound) :
    Settles role Idle bound (role.after s moments) := by
  have hrun := Session.run_live role (Session.start role s) moments
  obtain ⟨n, hle, hsteps⟩ := (role.after s moments).exists_steps_resume role
  refine ⟨⟨n, Nat.le_trans hle hbound, hsteps⟩, ?_, hrests hrun⟩
  intro hgoing
  rcases (hrests hrun.resume).mp ((role.after s moments).rests_resume role) with hover | hidle
  · exact absurd (hgoing.symm.trans hover) Bool.false_ne_true
  · exact hidle

end

/-! ### The loops -/

namespace Publisher

variable {plan : Plan} {s : Surroundings} {x : Session Publisher} {events : List Stimulus}

def awaited (plan : Plan) (p : Publisher) : Option Call :=
  if p.phase = .calling then some (plan.submission p.number.toNat) else none

/-- The signal is down, and the run waits for the answer to the call of the message in hand
    or for a reading that the clock does not show yet. -/
def Idle (plan : Plan) (x : Session Publisher) : Prop :=
  x.surroundings.signal.raised = false ∧
    ((x.run.phase = .calling ∧
        x.surroundings.Awaits (plan.submission x.run.number.toNat)) ∨
      ∃ deadline, x.run.phase = .pausing deadline ∧ x.surroundings.now < deadline)

theorem awaiting (plan : Plan) : (role plan).Awaiting (awaited plan) where
  start := rfl
  step {s t p q call} hstep hawaited := by
    cases move_of_step hstep with
    | await _ _ _ hacts =>
      cases hawaited
      exact ⟨[], hacts⟩
    | _ => cases hawaited

theorem rests_iff (h : (role plan).Run (Session.start (role plan) s) events x) :
    (role plan).Rests x ↔ (role plan).isOver x.run = true ∨ Idle plan x := by
  have hover : (role plan).isOver x.run = true ↔ ∃ result, x.run.phase = .ended result := by
    cases hphase : x.run.phase <;> simp [role, hphase]
  have hcall : x.run.phase = .calling →
      x.surroundings.effects.getLast? = some (.called (plan.submission x.run.number.toNat)) := by
    intro hphase
    exact (awaiting plan).getLast?_run h (if_pos hphase)
  rw [hover]
  refine step_eq_none_iff.trans (or_congr Iff.rfl (and_congr_right fun _ => or_congr_left ?_))
  constructor
  · rintro ⟨hphase, hanswer⟩
    exact ⟨hphase, hcall hphase, hanswer⟩
  · rintro ⟨hphase, -, hanswer⟩
    exact ⟨hphase, hanswer⟩

theorem weight_le (plan : Plan) (p : Publisher) :
    p.weight plan ≤ 4 * (plan.count.toNat - p.number.toNat) + 4 := by
  unfold weight
  cases p.phase <;> simp only [Phase.weight] <;> omega

end Publisher

namespace Subscriber

variable {topic : String} {s : Surroundings} {x : Session Subscriber} {events : List Stimulus}

def awaited (topic : String) (p : Subscriber) : Option Call :=
  if p = .subscribing then some (.subscribe topic .atMostOnce) else none

/-- The run waits for the answer to its subscribe call, or it has nothing to look at: the signal
    is down, and the inbox is empty and open. -/
def Idle (topic : String) (x : Session Subscriber) : Prop :=
  (x.run = .subscribing ∧ x.surroundings.Awaits (.subscribe topic .atMostOnce)) ∨
    (x.run = .listening ∧ x.surroundings.inbox.unread = [] ∧
      x.surroundings.inbox.isOpen = true ∧ x.surroundings.signal.raised = false)

theorem awaiting (topic : String) : (role topic).Awaiting (awaited topic) where
  start := rfl
  step {s t p q call} hstep hawaited := by
    cases move_of_step hstep with
    | await notice request _ hrequest _ hacts =>
      have hconnected : notice = .connected .success ∧ .subscribe topic .atMostOnce = request := by
        simpa [request?] using hrequest
      have hcall : .subscribe topic .atMostOnce = call := Option.some.inj hawaited
      rw [← hconnected.2, hcall] at hacts
      exact ⟨_, hacts⟩
    | _ => cases hawaited

theorem rests_iff (h : (role topic).Run (Session.start (role topic) s) events x) :
    (role topic).Rests x ↔ (role topic).isOver x.run = true ∨ Idle topic x := by
  constructor
  · intro hrests
    rcases rest_cases hrests with ⟨hrun, hdown, hunread, hopen⟩ | ⟨hrun, hanswer⟩ | ⟨result, hrun⟩
    · exact .inr (.inr ⟨hrun, hunread, hopen, hdown⟩)
    · exact .inr (.inl ⟨hrun, (awaiting topic).getLast?_run h (if_pos hrun), hanswer⟩)
    · exact .inl (by rw [hrun]; rfl)
  · rintro (hover | ⟨hrun, -, hanswer⟩ | ⟨hrun, hunread, hopen, hdown⟩)
    · cases hrun : x.run with
      | ended result =>
        rw [Role.Rests, hrun]
        rfl
      | _ => simp [role, hrun] at hover
    · rw [Role.Rests, hrun]
      exact Option.map_eq_none_iff.mpr hanswer
    · rw [Role.Rests, hrun]
      change step topic x.surroundings .listening = none
      simp [step, Surroundings.take?, hunread, hopen, hdown]

theorem weight_le (s : Surroundings) (p : Subscriber) :
    weight s p ≤ 3 * s.inbox.unread.length + 3 := by
  cases p <;> simp only [weight] <;> omega

end Subscriber

namespace Reporter

variable {s : Surroundings} {x : Session Reporter}

/-- The inbox is empty and open. -/
def Idle (x : Session Reporter) : Prop :=
  x.run = .listening ∧ x.surroundings.inbox.unread = [] ∧ x.surroundings.inbox.isOpen = true

theorem rests_iff : role.Rests x ↔ role.isOver x.run = true ∨ Idle x := by
  constructor
  · intro hrests
    rcases rest_cases hrests with hidle | ⟨result, hrun⟩
    · exact .inr hidle
    · exact .inl (by rw [hrun]; rfl)
  · rintro (hover | ⟨hrun, hunread, hopen⟩)
    · cases hrun : x.run with
      | ended result =>
        rw [Role.Rests, hrun]
        rfl
      | _ => simp [role, hrun] at hover
    · rw [Role.Rests, hrun]
      change step x.surroundings .listening = none
      simp [step, Surroundings.take?, hunread, hopen]

theorem weight_le (s : Surroundings) (p : Reporter) :
    weight s p ≤ 2 * s.inbox.unread.length + 2 := by
  cases p <;> simp only [weight] <;> omega

end Reporter

/-! ### All three -/

/-- No run rests while it could go on, and every resumption ends. -/
theorem rests_only_when_idle (s : Surroundings) (moments : List Moment) :
    (∀ plan, let x := (Publisher.role plan).after s moments
        Settles (Publisher.role plan) (Publisher.Idle plan)
          (4 * (plan.count.toNat - x.run.number.toNat) + 4) x) ∧
      (∀ topic, let x := (Subscriber.role topic).after s moments
        Settles (Subscriber.role topic) (Subscriber.Idle topic)
          (3 * x.surroundings.inbox.unread.length + 3) x) ∧
      let x := Reporter.role.after s moments
      Settles Reporter.role Reporter.Idle (2 * x.surroundings.inbox.unread.length + 2) x := by
  refine ⟨fun plan => ?_, fun topic => ?_, ?_⟩
  · exact Role.settles Publisher.rests_iff moments (Publisher.weight_le plan _)
  · exact Role.settles Subscriber.rests_iff moments (Subscriber.weight_le _ _)
  · exact Role.settles (fun _ => Reporter.rests_iff) moments (Reporter.weight_le _ _)

/-- While a subscribe call waits, the signal goes up, a notice comes and the inbox is closed.
    The run rests all the same, since nobody has answered. -/
theorem rests_only_when_idle_before_answer :
    let s : Surroundings := { link := .deferred }
    let moments : List Moment :=
      [.arrival (.notice (.connected .success)), .step, .arrival .shutdown,
        .arrival (.notice (.delivered 7)), .arrival .close]
    let y := ((Subscriber.role "t").after s moments).resume (Subscriber.role "t")
    y.surroundings.signal.raised = true ∧ y.surroundings.inbox.isOpen = false ∧
      y.surroundings.inbox.unread = [.delivered 7] ∧
      (Subscriber.role "t").isOver y.run = false ∧
      y.surroundings.Awaits (.subscribe "t" .atMostOnce) := by
  intro s moments y
  obtain ⟨-, hsubscriber, -⟩ := rests_only_when_idle s moments
  have hgoing : (Subscriber.role "t").isOver y.run = false := by decide
  have hclosed : y.surroundings.inbox.isOpen = false := by decide
  refine ⟨by decide, hclosed, by decide, hgoing, ?_⟩
  rcases (hsubscriber "t").idle hgoing with ⟨-, hawaits⟩ | ⟨-, -, hopen, -⟩
  · exact hawaits
  · exact absurd (hclosed.symm.trans hopen) Bool.false_ne_true

end BrokerLoad

/-
  BrokerLoad/Proofs/Announcements.lean
  ====================================
  No call without its lines.

  Every call that a run makes comes directly after the complete lines that announce it, so
  that nothing at all was done between its last octet and the call.  `Announced` says this
  of the effects of a run and keeps track of the call whose lines are in print and which
  is still to be made; `announced_live` carries it through runs with restarts.
-/
import BrokerLoad.Proofs.Moments
import BrokerLoad.Proofs.Publisher.Moves
import BrokerLoad.Proofs.Reporter.Transcript
import BrokerLoad.Proofs.Subscriber.Moves

namespace BrokerLoad

def Call.lines : Call → Octets
  | .publish topic _ payload => Publisher.line topic payload
  | .subscribe topic _ => Subscriber.text topic (.connected .success)

theorem Call.lines_ne_nil (call : Call) : call.lines ≠ [] := by
  cases call with
  | publish topic qos payload => exact Publisher.line_ne_nil topic payload
  | subscribe topic qos =>
    -- the line after "Connected" is enough
    apply List.append_ne_nil_of_right_ne_nil
    apply Octets.ofText_ne_nil
    intro htext
    have hlength := congrArg String.length htext
    simp at hlength

/-- Every call among the effects comes directly after its lines, and the effects end with
    the lines of the call that is still to be made, if there is one. -/
structure Effect.Announced (effects : List Effect) (due : Option Call) : Prop where
  lines_before : ∀ earlier call later, effects = earlier ++ .called call :: later →
    ∃ start, earlier = start ++ [.wrote call.lines]
  lines_of_due : ∀ call, due = some call → ∃ start, effects = start ++ [.wrote call.lines]

namespace Effect.Announced

variable {effects more : List Effect} {due : Option Call} {call : Call}

theorem nil : Announced [] none where
  lines_before earlier call later h := by simp at h
  lines_of_due _ h := by cases h

theorem forget (h : Announced effects due) : Announced effects none where
  lines_before := h.lines_before
  lines_of_due _ hdue := by cases hdue

/-- One more effect.  If it is a call, it has to be the one that is due. -/
theorem append_singleton {effect : Effect} (h : Announced effects due)
    (hcall : ∀ call, effect = .called call → due = some call) :
    Announced (effects ++ [effect]) none where
  lines_before earlier call later hsplit := by
    rcases List.eq_nil_or_concat later with rfl | ⟨init, last, rfl⟩
    · obtain ⟨rfl, hlast⟩ := List.append_inj' hsplit rfl
      exact h.lines_of_due call (hcall call (List.singleton_inj.mp hlast))
    · rw [List.concat_eq_append, ← List.cons_append, ← List.append_assoc] at hsplit
      exact h.lines_before earlier call init (List.append_inj' hsplit rfl).1
  lines_of_due _ hdue := by cases hdue

theorem append_silent (h : Announced effects due)
    (hsilent : more.filterMap Effect.call? = []) : Announced (effects ++ more) none := by
  induction more generalizing effects due with
  | nil =>
    rw [List.append_nil]
    exact h.forget
  | cons effect more ih =>
    rw [List.filterMap_eq_nil_iff] at hsilent
    rw [List.append_cons]
    refine ih (h.append_singleton ?_) ?_
    · rintro call rfl
      exact absurd (hsilent _ List.mem_cons_self) (by simp [call?])
    · rw [List.filterMap_eq_nil_iff]
      intro later hlater
      exact hsilent later (List.mem_cons_of_mem _ hlater)

theorem print (h : Announced effects due) (call : Call) :
    Announced (effects ++ [.wrote call.lines]) (some call) where
  lines_before := (h.append_singleton (by simp)).lines_before
  lines_of_due _ hdue := ⟨effects, by rw [Option.some.inj hdue]⟩

theorem make (h : Announced effects (some call)) :
    Announced (effects ++ [.called call]) none := by
  refine h.append_singleton ?_
  rintro other heq
  rw [Effect.called.inj heq]

end Effect.Announced

/-! ### The loops -/

/-- A loop that makes no call before its lines.  `due` is the call whose lines are in
    print and which is still to be made. -/
structure Role.Announces {σ : Type} (role : Role σ) (due : σ → Option Call) : Prop where
  start : due role.start = none
  step : ∀ {s t p q effects}, role.activity.step s p = some (t, q) →
    Effect.Announced effects (due p) →
    ∃ more, s.Acts more t ∧ Effect.Announced (effects ++ more) (due q)

def Publisher.due (plan : Plan) (p : Publisher) : Option Call :=
  if p.phase = .written then some (plan.submission p.number.toNat) else none

theorem Publisher.announces (plan : Plan) : (role plan).Announces (due plan) where
  start := rfl
  step {s t p q effects} hstep h := by
    cases move_of_step hstep with
    | interrupt _ _ hacts => exact ⟨_, hacts, h.append_silent rfl⟩
    | announce _ hlt _ hacts =>
      refine ⟨_, hacts, ?_⟩
      -- the line in print is that of the call to be made
      have hprint := h.print (plan.submission (p.number.toNat + 1))
      simp only [due, if_true, toNat_number_succ hlt]
      exact hprint
    | cut octets _ _ _ _ _ _ hacts =>
      exact ⟨_, hacts, h.append_silent (Effect.filterMap_call?_writing octets)⟩
    | complete _ _ ht =>
      refine ⟨[], ht ▸ .refl s, h.append_silent rfl⟩
    | await hphase _ _ hacts =>
      rw [due, if_pos hphase] at h
      exact ⟨_, hacts, h.make⟩
    | submit answer hphase _ _ hacts =>
      rw [due, if_pos hphase] at h
      refine ⟨_, hacts, ?_⟩
      rw [List.append_cons]
      exact h.make.append_silent (Effect.filterMap_call?_complaint _ answer)
    | conclude answer _ _ _ hacts =>
      exact ⟨_, hacts, h.append_silent (Effect.filterMap_call?_complaint _ answer)⟩
    | proceed _ _ _ _ ht =>
      exact ⟨[], ht ▸ .refl s, h.append_silent rfl⟩

/-- A subscriber makes its call in the step that writes the lines. -/
theorem Subscriber.announces (topic : String) : (role topic).Announces fun _ => none where
  start := rfl
  step {s t p q effects} hstep h := by
    -- the two lines of a good connect end with the one that announces the call
    have hopening : ∀ {notice call}, request? topic notice = some call →
        Effect.Announced (effects ++ opening topic notice ++ [.called call]) none := by
      intro notice call hrequest
      have hconnected : notice = .connected .success ∧ .subscribe topic .atMostOnce = call := by
        simpa [request?] using hrequest
      obtain ⟨rfl, rfl⟩ := hconnected
      have htook : Effect.Announced (effects ++ [.took (.connected .success)]) none :=
        h.append_silent rfl
      have hprint := htook.print (.subscribe topic .atMostOnce)
      rw [List.append_assoc] at hprint
      exact hprint.make
    cases move_of_step hstep with
    | interrupt _ hacts => exact ⟨_, hacts, h.append_silent rfl⟩
    | exhaust _ _ _ => exact ⟨[], .refl s, h.append_silent rfl⟩
    | handle notice _ _ hacts =>
      exact ⟨_, hacts, h.append_silent (Effect.filterMap_call?_writing _)⟩
    | cut notice octets _ _ _ _ hacts =>
      exact ⟨_, hacts, h.append_silent (Effect.filterMap_call?_writing octets)⟩
    | await notice call _ hrequest _ hacts =>
      refine ⟨_, hacts, ?_⟩
      rw [← List.append_assoc]
      exact hopening hrequest
    | subscribe notice call answer _ hrequest _ hacts =>
      refine ⟨_, hacts, ?_⟩
      rw [List.append_cons (opening topic notice), ← List.append_assoc, ← List.append_assoc]
      exact (hopening hrequest).append_silent (Effect.filterMap_call?_complaint _ answer)
    | conclude answer _ hacts =>
      exact ⟨_, hacts, h.append_silent (Effect.filterMap_call?_complaint _ answer)⟩
    | flush hacts => exact ⟨_, hacts, h.append_silent rfl⟩
    | lose _ hacts => exact ⟨_, hacts, h.append_silent rfl⟩

/-- A reporter makes no calls. -/
theorem Reporter.announces : role.Announces fun _ => none where
  start := rfl
  step {s t p q effects} hstep h := by
    cases move_of_step hstep with
    | print notice hacts =>
      exact ⟨_, hacts, h.append_silent (Effect.filterMap_call?_writing _)⟩
    | cut notice octets _ _ _ hacts =>
      exact ⟨_, hacts, h.append_silent (Effect.filterMap_call?_writing octets)⟩
    | finish _ _ => exact ⟨[], .refl s, h.append_silent rfl⟩
    | flush hacts => exact ⟨_, hacts, h.append_silent rfl⟩
    | lose _ hacts => exact ⟨_, hacts, h.append_silent rfl⟩

/-! ### Whole runs -/

/-- Every call of a run comes directly after its lines, also across restarts. -/
theorem Role.Announces.announced_run {σ : Type} {role : Role σ} {due : σ → Option Call}
    {x y : Session σ} {events : List Stimulus} (h : role.Announces due)
    (hstart : due x.run = none) (hrun : role.Run x events y) :
    ∃ effects, y.surroundings.effects = x.surroundings.effects ++ effects ∧
      Effect.Announced effects (due y.run) := by
  induction hrun with
  | start => exact ⟨[], (List.append_nil _).symm, hstart ▸ .nil⟩
  | @change events y stimulus _ ih =>
    obtain ⟨effects, heffects, hannounced⟩ := ih
    refine ⟨effects, by rw [Session.effects_change, heffects], ?_⟩
    by_cases hrestart : stimulus = .restart
    · -- the new run has nothing in print
      have hnew : due (y.change role .restart).run = none := h.start
      rw [hrestart, hnew]
      exact hannounced.forget
    · have hchanged : Session.Changed stimulus y (y.change role stimulus) :=
        y.changed_change hrestart
      rw [hchanged.run_eq]
      exact hannounced
  | step _ hstep ih =>
    obtain ⟨effects, heffects, hannounced⟩ := ih
    obtain ⟨more, hacts, hannounced'⟩ := h.step hstep hannounced
    refine ⟨effects ++ more, ?_, hannounced'⟩
    rw [hacts.effects_eq, heffects, List.append_assoc]

end BrokerLoad

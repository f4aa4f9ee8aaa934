/-
  BrokerLoad/Proofs/Pump/Moves.lean
  =================================
  What a single step of the pump can do, said once, and the states that a pump gets to.

  `Acts` says what a step adds to the pump's history and what it leaves alone, `Move`
  lists the seven steps, and `move_of_step` says that there is no other.  `Run` lets
  results arrive, the clock move on, and the reader of the inbox read or go away before
  any of these steps.
-/
import BrokerLoad.Pump

namespace BrokerLoad

def PollResult.response (result : PollResult) : List Pump.Effect :=
  result.diagnostic?.toList.map .reported ++ result.notice?.toList.map .sent

namespace Pump

/-! ### Views by effects -/

namespace Effect

def result? : Pump.Effect → Option PollResult
  | polled result => some result
  | _ => none

def notice? : Pump.Effect → Option Notice
  | sent notice => some notice
  | _ => none

def diagnostic? : Pump.Effect → Option Diagnostic
  | reported diagnostic => some diagnostic
  | _ => none

variable (effects : List Pump.Effect) (time : Nat)

def deeds : List (Deed Pump.Effect) := effects.map fun effect => { time, effect }

@[simp] theorem map_effect_deeds : (deeds effects time).map (·.effect) = effects := by
  simp [deeds, Function.comp_def]

end Effect

section Views

variable (deeds : List (Deed Pump.Effect))

theorem polled_eq_filterMap :
    polled deeds = (deeds.map (·.effect)).filterMap Effect.result? := by
  rw [polled, List.filterMap_map]
  rfl

theorem sent_eq_filterMap : sent deeds = (deeds.map (·.effect)).filterMap Effect.notice? := by
  rw [sent, List.filterMap_map]
  rfl

theorem diagnostics_eq_filterMap :
    diagnostics deeds = (deeds.map (·.effect)).filterMap Effect.diagnostic? := by
  rw [diagnostics, List.filterMap_map]
  rfl

end Views

/-! ### Acts -/

/-- `s.Acts effects t`: what the pump does, with these effects, leads from `s` to `t`.
    What it polled was ready, in this order, and what it sent is in the inbox. -/
structure Surroundings.Acts (s : Surroundings) (effects : List Pump.Effect)
    (t : Surroundings) : Prop where
  history_eq : t.history = s.history ++ Effect.deeds effects s.now
  now_eq : t.now = s.now
  unclaimed_eq : t.unclaimed = s.unclaimed
  ready_eq : s.ready = effects.filterMap Effect.result? ++ t.ready
  inbox_eq : t.inbox = (effects.filterMap Effect.notice?).foldl Inbox.put s.inbox

namespace Surroundings.Acts

variable {s t u : Surroundings} {first second : List Pump.Effect}

theorem refl (s : Surroundings) : s.Acts [] s :=
  ⟨by simp [Effect.deeds], rfl, rfl, rfl, rfl⟩

theorem trans (h : s.Acts first t) (g : t.Acts second u) : s.Acts (first ++ second) u where
  history_eq := by
    rw [g.history_eq, h.history_eq, h.now_eq, Effect.deeds, Effect.deeds, Effect.deeds,
      List.map_append, List.append_assoc]
  now_eq := g.now_eq.trans h.now_eq
  unclaimed_eq := g.unclaimed_eq.trans h.unclaimed_eq
  ready_eq := by rw [h.ready_eq, g.ready_eq, List.filterMap_append, List.append_assoc]
  inbox_eq := by rw [g.inbox_eq, h.inbox_eq, List.filterMap_append, List.foldl_append]

theorem report (s : Surroundings) (diagnostic : Diagnostic) :
    s.Acts [.reported diagnostic] (s.record (.reported diagnostic)) :=
  ⟨by simp [history, record, Effect.deeds], rfl, rfl, rfl, rfl⟩

theorem poll {result : PollResult} {rest : List PollResult} (hready : s.ready = result :: rest) :
    s.Acts [.polled result] ({ s with ready := rest }.record (.polled result)) :=
  ⟨by simp [history, record, Effect.deeds], rfl, rfl, hready, rfl⟩

/-- A notice gets into an inbox that is read, and is dropped otherwise. -/
theorem send (s : Surroundings) (notice : Notice) :
    s.Acts (if s.unclaimed then [] else [.sent notice]) (s.send notice) := by
  unfold Surroundings.send
  by_cases hunclaimed : s.unclaimed = true
  · rw [if_pos hunclaimed, if_pos hunclaimed]
    exact refl s
  · rw [if_neg hunclaimed, if_neg hunclaimed]
    exact ⟨by simp [history, record, Effect.deeds], rfl, rfl, rfl, rfl⟩

end Surroundings.Acts

/-! ### Moves -/

def Waits : Pump → Prop
  | .polling => True
  | .pausing _ => True
  | _ => False

/-- Where the pump goes on after a result: at once after an event, and after a pause
    otherwise. -/
def afterward (delay now : Nat) (result : PollResult) : Pump :=
  if result.isFailure then .pausing (now + delay) else .polling

/-- `Move delay s p t q`: in the surroundings `s`, the pump `p` goes on as `q` in the
    surroundings `t`. -/
inductive Move (delay : Nat) (s : Surroundings) : Pump → Surroundings → Pump → Prop where
  /-- The pump waits, and the reader of its inbox is gone. -/
  | quit {t : Surroundings} {p : Pump} : p.Waits → s.unclaimed = true →
    s.Acts [.reported .noticesUnclaimed] t → Move delay s p t .ended
  | poll {t : Surroundings} (result : PollResult) : s.unclaimed = false →
    s.Acts [.polled result] t → Move delay s .polling t (.handling result)
  /-- A result is dealt with, and its notice is read. -/
  | respond {t : Surroundings} (result : PollResult) : s.unclaimed = false →
    s.Acts result.response t → Move delay s (.handling result) t (afterward delay s.now result)
  /-- A result that is no event is dealt with, and its notice, if any, is dropped. -/
  | lament {t : Surroundings} (result : PollResult) : s.unclaimed = true →
    result.isFailure = true → s.Acts (result.diagnostic?.toList.map .reported) t →
    Move delay s (.handling result) t (afterward delay s.now result)
  /-- An event calls for no notice. -/
  | ignore (event : ClientEvent) : s.unclaimed = true → Notice.ofEvent? event = none →
    Move delay s (.handling (.event event)) s .polling
  /-- An event calls for a notice that nobody reads. -/
  | abandon {t : Surroundings} (event : ClientEvent) : s.unclaimed = true →
    Notice.ofEvent? event ≠ none → s.Acts [.reported .noticesUnclaimed] t →
    Move delay s (.handling (.event event)) t .ended
  /-- The pause is over. -/
  | proceed (deadline : Nat) : s.unclaimed = false → deadline ≤ s.now →
    Move delay s (.pausing deadline) s .polling

variable {delay : Nat} {s t u : Surroundings} {p q : Pump}

theorem move_handle (delay : Nat) (s : Surroundings) (result : PollResult) :
    Move delay s (.handling result) (handle delay s result).1 (handle delay s result).2 := by
  -- a notice gets through only while the inbox is read, so that is asked first
  cases hunclaimed : s.unclaimed with
  | true =>
    cases result with
    | event event =>
      cases hnotice : Notice.ofEvent? event with
      | none =>
        simp only [handle, hnotice]
        exact .ignore event hunclaimed hnotice
      | some notice =>
        simp only [handle, hnotice, hunclaimed, if_true]
        exact .abandon event hunclaimed (by simp [hnotice]) (.report s _)
    | refused code =>
      have hsend := Surroundings.Acts.send
        (s.record (.reported (.connectionRefused code))) (.connected code)
      have hdropped : (s.record (.reported (.connectionRefused code))).unclaimed = true :=
        hunclaimed
      rw [if_pos hdropped] at hsend
      exact .lament (.refused code) hunclaimed rfl ((Surroundings.Acts.report s _).trans hsend)
    | failed => exact .lament .failed hunclaimed rfl (.report s _)
  | false =>
    cases result with
    | event event =>
      cases hnotice : Notice.ofEvent? event with
      | none =>
        simp only [handle, hnotice]
        have hresponse : (PollResult.event event).response = [] := by
          simp [PollResult.response, PollResult.diagnostic?, PollResult.notice?, hnotice]
        exact .respond (.event event) hunclaimed (hresponse ▸ .refl s)
      | some notice =>
        simp only [handle, hnotice, hunclaimed, Bool.false_eq_true, if_false]
        have hsend := Surroundings.Acts.send s notice
        rw [if_neg (by simp [hunclaimed])] at hsend
        have hresponse : (PollResult.event event).response = [.sent notice] := by
          simp [PollResult.response, PollResult.diagnostic?, PollResult.notice?, hnotice]
        exact .respond (.event event) hunclaimed (hresponse ▸ hsend)
    | refused code =>
      have hsend := Surroundings.Acts.send
        (s.record (.reported (.connectionRefused code))) (.connected code)
      have hread : ¬ (s.record (.reported (.connectionRefused code))).unclaimed = true := by
        simp [Surroundings.record, hunclaimed]
      rw [if_neg hread] at hsend
      exact .respond (.refused code) hunclaimed ((Surroundings.Acts.report s _).trans hsend)
    | failed => exact .respond .failed hunclaimed (.report s _)

theorem move_of_step (h : step delay s p = some (t, q)) : Move delay s p t q := by
  unfold step at h
  split at h
  · split at h
    · rename_i hunclaimed
      cases h
      exact .quit trivial hunclaimed (.report s _)
    · rename_i hclaimed
      split at h
      · cases h
      · rename_i result rest hready
        cases h
        exact .poll result (Bool.eq_false_iff.mpr hclaimed) (.poll hready)
  · have hmove := move_handle delay s ‹PollResult›
    rwa [Option.some.inj h] at hmove
  · split at h
    · rename_i hunclaimed
      cases h
      exact .quit trivial hunclaimed (.report s _)
    · rename_i hclaimed
      split at h
      · rename_i hover
        cases h
        exact .proceed _ (Bool.eq_false_iff.mpr hclaimed) hover
      · cases h
  · cases h

theorem Move.acts (h : Move delay s p t q) : ∃ effects, s.Acts effects t := by
  cases h with
  | quit _ _ hacts => exact ⟨_, hacts⟩
  | poll _ _ hacts => exact ⟨_, hacts⟩
  | respond _ _ hacts => exact ⟨_, hacts⟩
  | lament _ _ _ hacts => exact ⟨_, hacts⟩
  | ignore _ _ _ => exact ⟨[], .refl s⟩
  | abandon _ _ _ hacts => exact ⟨_, hacts⟩
  | proceed _ _ _ => exact ⟨[], .refl s⟩

/-- A pump rests at its end, while there is nothing to ask for, or in a pause. -/
theorem rest_cases (h : step delay s p = none) :
    (p = .polling ∧ s.ready = []) ∨ (∃ deadline, p = .pausing deadline ∧ s.now < deadline) ∨
      p = .ended := by
  unfold step at h
  split at h
  · split at h
    · cases h
    · split at h
      · exact .inl ⟨rfl, ‹_›⟩
      · cases h
  · cases h
  · split at h
    · cases h
    · split at h
      · cases h
      · exact .inr (.inl ⟨_, rfl, Nat.lt_of_not_le ‹_›⟩)
  · exact .inr (.inr rfl)

/-! ### Runs -/

inductive Stimulus where
  /-- The client has a result to ask for. -/
  | offer (result : PollResult)
  | advance (milliseconds : Nat)
  /-- The oldest notice in the inbox is read. -/
  | read
  /-- The reader of the inbox goes away. -/
  | leave
deriving DecidableEq, Repr

def Stimulus.offer? : Stimulus → Option PollResult
  | offer result => some result
  | _ => none

def Surroundings.after (s : Surroundings) : Stimulus → Surroundings
  | .offer result => { s with ready := s.ready ++ [result] }
  | .advance ms => { s with now := s.now + ms }
  | .read => { s with inbox.unread := s.inbox.unread.tail }
  | .leave => { s with unclaimed := true }

/-- `Run delay s events t p`: a pump that began in `s` gets to be `p` in `t` while this
    happens around it, in this order, each before any of its steps. -/
inductive Run (delay : Nat) (s : Surroundings) : List Stimulus → Surroundings → Pump → Prop where
  | start : Run delay s [] s .polling
  | change {events : List Stimulus} {t : Surroundings} {p : Pump} (stimulus : Stimulus) :
    Run delay s events t p → Run delay s (events ++ [stimulus]) (t.after stimulus) p
  | step {events : List Stimulus} {t u : Surroundings} {p q : Pump} :
    Run delay s events t p → Pump.step delay t p = some (u, q) → Run delay s events u q

/-- A resumption is a number of steps in a row. -/
theorem Run.settle {events : List Stimulus} (h : Run delay s events t p) :
    Run delay s events ((activity delay).settle t p).1 ((activity delay).settle t p).2 :=
  (activity delay).settle_induction (motive := fun t p => Run delay s events t p)
    (fun _ _ _ _ hrun hstep => hrun.step hstep) h

end Pump

end BrokerLoad

/-
  BrokerLoad/Proofs/Pump/Stopping.lean
  ====================================
  How the pump paces itself, and how it stops.

  `due` is the earliest moment at which a pump can ask for its next result.  No step
  lowers it, and a failure that was polled keeps it a whole delay away (`Paced`).  What a
  pump reports is what its results call for, in order, and its last word at its end
  (`Chronicle`); it ends only when the reader of its inbox is gone, and then nothing keeps
  it from ending: it polls and sends no more, wherever it is (`quiet_of_unclaimed`,
  `ended_of_unclaimed`).  `pauses_and_stops` puts this together.
-/
import BrokerLoad.Proofs.Pump.Forwarding

namespace BrokerLoad

namespace Pump

variable {delay : Nat} {s t u : Surroundings} {p q : Pump} {events : List Stimulus}

section Views

variable (deeds more : List (Deed Pump.Effect)) (effects : List Pump.Effect) (time : Nat)

theorem polled_append : polled (deeds ++ more) = polled deeds ++ polled more :=
  List.filterMap_append

theorem sent_append : sent (deeds ++ more) = sent deeds ++ sent more := List.filterMap_append

theorem polled_deeds : polled (Effect.deeds effects time) = effects.filterMap Effect.result? := by
  rw [polled_eq_filterMap, Effect.map_effect_deeds]

theorem sent_deeds : sent (Effect.deeds effects time) = effects.filterMap Effect.notice? := by
  rw [sent_eq_filterMap, Effect.map_effect_deeds]

end Views

/-! ### Pace -/

def IsFailure (d : Deed Pump.Effect) : Prop :=
  ∃ result, d.effect = .polled result ∧ result.isFailure = true

/-- Between a failure and every later result there is at least the delay. -/
def Spaced (delay : Nat) (deeds : List (Deed Pump.Effect)) : Prop :=
  deeds.Pairwise fun earlier later => IsFailure earlier →
    ∀ result, later.effect = .polled result → earlier.time + delay ≤ later.time

/-- The earliest moment at which a pump that goes on can ask for its next result. -/
def due (delay now : Nat) : Pump → Nat
  | .polling => now
  | .handling result => if result.isFailure then now + delay else now
  | .pausing deadline => deadline
  | .ended => now

theorem due_mono (p : Pump) {now later : Nat} (h : now ≤ later) :
    due delay now p ≤ due delay later p := by
  cases p with
  | handling result =>
    simp only [due]
    split <;> omega
  | pausing deadline => exact Nat.le_refl _
  | _ => exact h

theorem due_afterward (now : Nat) (result : PollResult) :
    due delay now (afterward delay now result) = due delay now (.handling result) := by
  cases hfailure : result.isFailure <;> simp [afterward, due, hfailure]

/-- A failure among these deeds is a whole delay before the next result of the pump. -/
structure Paced (delay : Nat) (deeds : List (Deed Pump.Effect)) (now : Nat) (p : Pump) : Prop where
  spaced : Spaced delay deeds
  rested : p ≠ .ended → ∀ d ∈ deeds, IsFailure d → d.time + delay ≤ due delay now p
  inHand : ∀ result, p = .handling result → (polled deeds).getLast? = some result
  pausing : ∀ deadline, p = .pausing deadline →
    ∃ failure, (polled deeds).getLast? = some failure ∧ failure.isFailure = true

/-- What is done without polling keeps the pace, if the pump goes on no earlier. -/
theorem Paced.silent {deeds : List (Deed Pump.Effect)} {now : Nat} (h : Paced delay deeds now p)
    {effects : List Pump.Effect} (hsilent : effects.filterMap Effect.result? = [])
    (hdue : q ≠ .ended → p ≠ .ended ∧ due delay now p ≤ due delay now q)
    (hhandling : ∀ result, q ≠ .handling result)
    (hpausing : ∀ deadline, q = .pausing deadline →
      ∃ failure, p = .handling failure ∧ failure.isFailure = true) :
    Paced delay (deeds ++ Effect.deeds effects now) now q := by
  have hnone : ∀ d ∈ Effect.deeds effects now, ∀ result, d.effect ≠ .polled result := by
    intro d hd result heffect
    obtain ⟨effect, hin, rfl⟩ := List.mem_map.mp hd
    have hresult := List.filterMap_eq_nil_iff.mp hsilent effect hin
    rw [show effect = .polled result from heffect] at hresult
    cases hresult
  have hpolled : polled (deeds ++ Effect.deeds effects now) = polled deeds := by
    rw [polled_append, polled_deeds, hsilent, List.append_nil]
  constructor
  · apply List.pairwise_append.mpr
    refine ⟨h.spaced, ?_, ?_⟩
    · apply List.pairwise_of_forall_mem_list
      intro earlier _ later hlater _ result heffect
      exact absurd heffect (hnone later hlater result)
    · intro earlier _ later hlater _ result heffect
      exact absurd heffect (hnone later hlater result)
  · intro hgoing d hd hfailure
    obtain ⟨hbefore, hle⟩ := hdue hgoing
    rcases List.mem_append.mp hd with hin | hin
    · exact Nat.le_trans (h.rested hbefore d hin hfailure) hle
    · obtain ⟨result, heffect, -⟩ := hfailure
      exact absurd heffect (hnone d hin result)
  · intro result hq
    exact absurd hq (hhandling result)
  · intro deadline hq
    obtain ⟨failure, hp, hfailed⟩ := hpausing deadline hq
    rw [hpolled]
    exact ⟨failure, h.inHand failure hp, hfailed⟩

/-- A result is polled once the pace allows it. -/
theorem Paced.poll {deeds : List (Deed Pump.Effect)} {now : Nat}
    (h : Paced delay deeds now .polling) (result : PollResult) :
    Paced delay (deeds ++ Effect.deeds [.polled result] now) now (.handling result) := by
  have hlast : polled (deeds ++ Effect.deeds [.polled result] now) = polled deeds ++ [result] := by
    rw [polled_append, polled_deeds]
    rfl
  have hrested := h.rested (by simp)
  simp only [due] at hrested
  constructor
  · apply List.pairwise_append.mpr
    refine ⟨h.spaced, List.pairwise_singleton _ _, ?_⟩
    intro earlier hearlier later hlater hfailure other _
    -- every failure before is a delay ago, or the pump would not ask
    obtain rfl := List.mem_singleton.mp hlater
    exact hrested earlier hearlier hfailure
  · intro _ d hd hfailure
    rcases List.mem_append.mp hd with hin | hin
    · refine Nat.le_trans (hrested d hin hfailure) ?_
      simp only [due]
      split <;> omega
    · obtain rfl := List.mem_singleton.mp hin
      obtain ⟨failure, heffect, hfailed⟩ := hfailure
      obtain rfl : result = failure := by simpa using heffect
      simp [due, hfailed]
  · intro other hother
    cases hother
    rw [hlast]
    exact List.getLast?_concat
  · intro deadline hpause
    cases hpause

theorem Paced.later {deeds : List (Deed Pump.Effect)} {now later : Nat}
    (h : Paced delay deeds now p) (hle : now ≤ later) : Paced delay deeds later p where
  spaced := h.spaced
  rested hgoing d hd hfailure := Nat.le_trans (h.rested hgoing d hd hfailure) (due_mono p hle)
  inHand := h.inHand
  pausing := h.pausing

theorem result?_response (result : PollResult) :
    result.response.filterMap Effect.result? = [] := by
  rw [PollResult.response]
  cases result.diagnostic? <;> cases result.notice? <;> rfl

theorem Paced.move {deeds : List (Deed Pump.Effect)} (h : Paced delay deeds s.now p)
    (hmove : Move delay s p t q) : ∃ effects, s.Acts effects t ∧
      Paced delay (deeds ++ Effect.deeds effects s.now) s.now q := by
  -- a pause after a result means that it was a failure
  have hafterward : ∀ {result : PollResult} {deadline : Nat},
      afterward delay s.now result = .pausing deadline → result.isFailure = true := by
    intro result deadline hpause
    unfold afterward at hpause
    split at hpause
    · assumption
    · cases hpause
  have hnotHandling : ∀ result other, afterward delay s.now result ≠ .handling other := by
    intro result other hhandling
    unfold afterward at hhandling
    split at hhandling <;> cases hhandling
  cases hmove with
  | quit _ _ hacts =>
    exact ⟨_, hacts, h.silent rfl (fun hgoing => absurd rfl hgoing) nofun nofun⟩
  | poll result _ hacts => exact ⟨_, hacts, h.poll result⟩
  | respond result _ hacts =>
    refine ⟨_, hacts, h.silent (result?_response result) ?_
      (hnotHandling result) fun _ hpause => ⟨result, rfl, hafterward hpause⟩⟩
    intro _
    exact ⟨by simp, Nat.le_of_eq (due_afterward _ _).symm⟩
  | lament result _ _ hacts =>
    have hsilent : (result.diagnostic?.toList.map Pump.Effect.reported).filterMap
        Effect.result? = [] := by
      cases result.diagnostic? <;> rfl
    refine ⟨_, hacts, h.silent hsilent ?_
      (hnotHandling result) fun _ hpause => ⟨result, rfl, hafterward hpause⟩⟩
    intro _
    exact ⟨by simp, Nat.le_of_eq (due_afterward _ _).symm⟩
  | ignore event _ _ =>
    exact ⟨[], .refl s, h.silent rfl (fun _ => ⟨by simp, Nat.le_refl _⟩) nofun nofun⟩
  | abandon event _ _ hacts =>
    exact ⟨_, hacts, h.silent rfl (fun hgoing => absurd rfl hgoing) nofun nofun⟩
  | proceed deadline _ hover =>
    exact ⟨[], .refl s, h.silent rfl (fun _ => ⟨by simp, hover⟩) nofun nofun⟩

/-! ### The log -/

def closing : Pump → List Diagnostic
  | .ended => [.noticesUnclaimed]
  | _ => []

@[simp] theorem closing_afterward (delay now : Nat) (result : PollResult) :
    (afterward delay now result).closing = [] := by
  unfold afterward
  split <;> rfl

/-- A pump that dealt with these results, read or not, reported what they call for, and its
    end if it is there; and it is there only without a reader. -/
structure Chronicle (unclaimed : Bool) (p : Pump) (effects : List Pump.Effect)
    (results : List PollResult) : Prop where
  polled_eq : effects.filterMap Effect.result? = results ++ p.inHand
  log_eq : effects.filterMap Effect.diagnostic? =
    results.filterMap PollResult.diagnostic? ++ p.closing
  gone : p = .ended → unclaimed = true

theorem diagnostic?_response (result : PollResult) :
    result.response.filterMap Effect.diagnostic? = result.diagnostic?.toList := by
  rw [PollResult.response]
  cases result.diagnostic? <;> cases result.notice? <;> rfl

theorem Chronicle.respond {unclaimed : Bool} {result : PollResult} {now : Nat}
    {effects more : List Pump.Effect} {results : List PollResult}
    (h : Chronicle unclaimed (.handling result) effects results)
    (hsilent : more.filterMap Effect.result? = [])
    (hlog : more.filterMap Effect.diagnostic? = result.diagnostic?.toList) :
    Chronicle unclaimed (afterward delay now result) (effects ++ more) (results ++ [result]) where
  polled_eq := by
    rw [List.filterMap_append, h.polled_eq, hsilent, inHand_afterward]
    rfl
  log_eq := by
    rw [List.filterMap_append, List.filterMap_append, h.log_eq, hlog, closing_afterward]
    cases hdiagnostic : result.diagnostic? <;> simp [closing, hdiagnostic]
  gone hended := absurd hended (afterward_ne_ended _ _ _)

theorem Chronicle.move {effects : List Pump.Effect} {results : List PollResult}
    (h : Chronicle s.unclaimed p effects results) (hmove : Move delay s p t q) :
    ∃ more results', s.Acts more t ∧ Chronicle t.unclaimed q (effects ++ more) results' := by
  cases hmove with
  | quit hwaits hunclaimed hacts =>
    -- the pump had nothing in hand, and adds its last word
    refine ⟨_, results, hacts, ?_, ?_, fun _ => hacts.unclaimed_eq.trans hunclaimed⟩
    · rw [List.filterMap_append, h.polled_eq]
      cases p <;> simp_all [Waits, inHand, Effect.result?]
    · rw [List.filterMap_append, h.log_eq]
      cases p <;> simp_all [Waits, closing, Effect.diagnostic?]
  | poll result _ hacts =>
    refine ⟨_, results, hacts, ?_, ?_, ?_⟩
    · simp [h.polled_eq, inHand, Effect.result?]
    · simp [h.log_eq, closing, Effect.diagnostic?]
    · intro hended
      cases hended
  | respond result _ hacts =>
    refine ⟨_, results ++ [result], hacts, ?_⟩
    rw [hacts.unclaimed_eq]
    exact h.respond (result?_response result) (diagnostic?_response result)
  | lament result _ _ hacts =>
    refine ⟨_, results ++ [result], hacts, ?_⟩
    rw [hacts.unclaimed_eq]
    apply h.respond
    · cases result.diagnostic? <;> rfl
    · cases result.diagnostic? <;> rfl
  | ignore event _ _ =>
    have hnext : Chronicle s.unclaimed (afterward delay s.now (.event event)) (effects ++ [])
        (results ++ [.event event]) := h.respond rfl rfl
    exact ⟨[], _, .refl s, hnext⟩
  | abandon event hunclaimed _ hacts =>
    refine ⟨_, results ++ [.event event], hacts, ?_, ?_,
      fun _ => hacts.unclaimed_eq.trans hunclaimed⟩
    · simp [h.polled_eq, inHand, Effect.result?]
    · simp [h.log_eq, closing, Effect.diagnostic?, PollResult.diagnostic?]
  | proceed deadline _ _ =>
    refine ⟨[], results, .refl s, ?_, ?_, ?_⟩
    · simp [h.polled_eq, inHand]
    · simp [h.log_eq, closing]
    · intro hended
      cases hended

/-! ### Whole runs -/

theorem Surroundings.history_after (t : Surroundings) (stimulus : Stimulus) :
    (t.after stimulus).history = t.history := by
  cases stimulus <;> rfl

theorem Surroundings.now_le_after (t : Surroundings) (stimulus : Stimulus) :
    t.now ≤ (t.after stimulus).now := by
  cases stimulus <;> simp [after]

theorem Surroundings.unclaimed_after (t : Surroundings) (stimulus : Stimulus) :
    (t.after stimulus).unclaimed = true ↔ t.unclaimed = true ∨ stimulus = .leave := by
  cases stimulus <;> simp [after]

/-- The state of any pump, whether its inbox is read or not. -/
structure Course (delay : Nat) (s t : Surroundings) (p : Pump) (results : List PollResult) :
    Prop where
  history_eq : t.history = s.history ++ t.deedsSince s
  paced : Paced delay (t.deedsSince s) t.now p
  chronicle : Chronicle t.unclaimed p ((t.deedsSince s).map (·.effect)) results

theorem Course.change {results : List PollResult} (h : Course delay s t p results)
    (stimulus : Stimulus) : Course delay s (t.after stimulus) p results := by
  have hsince : (t.after stimulus).deedsSince s = t.deedsSince s := by
    rw [Surroundings.deedsSince, Surroundings.deedsSince, Surroundings.history_after]
  constructor
  · rw [Surroundings.history_after, hsince]
    exact h.history_eq
  · rw [hsince]
    exact h.paced.later (Surroundings.now_le_after t stimulus)
  · rw [hsince]
    refine ⟨h.chronicle.polled_eq, h.chronicle.log_eq, ?_⟩
    intro hended
    exact (Surroundings.unclaimed_after t stimulus).mpr (.inl (h.chronicle.gone hended))

theorem Course.deedsSince_eq {results : List PollResult} (h : Course delay s t p results)
    {deeds : List (Deed Pump.Effect)} (hmore : u.history = t.history ++ deeds) :
    u.deedsSince s = t.deedsSince s ++ deeds := by
  apply Surroundings.deedsSince_of_append
  rw [hmore, h.history_eq, List.append_assoc, Surroundings.deedsSince_of_append h.history_eq]

theorem Course.move {results : List PollResult} (h : Course delay s t p results)
    (hmove : Move delay t p u q) : ∃ results', Course delay s u q results' := by
  obtain ⟨more, hacts, hpaced⟩ := h.paced.move hmove
  obtain ⟨more', results', hacts', hchronicle⟩ := h.chronicle.move hmove
  refine ⟨results', ?_, ?_, ?_⟩
  · rw [h.deedsSince_eq hacts.history_eq, hacts.history_eq, ← List.append_assoc, ← h.history_eq]
  · rw [h.deedsSince_eq hacts.history_eq, hacts.now_eq]
    exact hpaced
  · rw [h.deedsSince_eq hacts'.history_eq, List.map_append, Effect.map_effect_deeds]
    exact hchronicle

theorem course_run (h : Run delay s events t p) : ∃ results, Course delay s t p results := by
  induction h with
  | start =>
    have hsince : s.deedsSince s = [] := Surroundings.deedsSince_of_append (by simp)
    refine ⟨[], by simp [hsince], ?_, ?_⟩
    · rw [hsince]
      exact ⟨.nil, fun _ _ hd => absurd hd List.not_mem_nil, nofun, nofun⟩
    · rw [hsince]
      exact ⟨rfl, rfl, nofun⟩
  | change stimulus _ ih =>
    obtain ⟨results, hcourse⟩ := ih
    exact ⟨results, hcourse.change stimulus⟩
  | step _ hstep ih =>
    obtain ⟨results, hcourse⟩ := ih
    exact hcourse.move (move_of_step hstep)

theorem unclaimed_run (h : Run delay s events t p) :
    t.unclaimed = true ↔ s.unclaimed = true ∨ .leave ∈ events := by
  induction h with
  | start => simp
  | change stimulus _ ih =>
    rw [Surroundings.unclaimed_after, ih, List.mem_append, List.mem_singleton, or_assoc,
      eq_comm (a := stimulus)]
  | step _ hstep ih =>
    obtain ⟨effects, hacts⟩ := (move_of_step hstep).acts
    rw [hacts.unclaimed_eq, ih]

/-! ### Without a reader -/

/-- `Onward delay t p events u q`: the pump `p` in `t` gets to be `q` in `u` while this
    happens around it, in this order, each before any of its steps. -/
inductive Onward (delay : Nat) (t : Surroundings) (p : Pump) :
    List Stimulus → Surroundings → Pump → Prop where
  | start : Onward delay t p [] t p
  | change {events : List Stimulus} {u : Surroundings} {q : Pump} (stimulus : Stimulus) :
    Onward delay t p events u q → Onward delay t p (events ++ [stimulus]) (u.after stimulus) q
  | step {events : List Stimulus} {u v : Surroundings} {q r : Pump} :
    Onward delay t p events u q → Pump.step delay u q = some (v, r) → Onward delay t p events v r

/-- Without a reader nothing is polled or sent any more. -/
theorem Move.quiet_of_unclaimed (h : Move delay s p t q) (hunclaimed : s.unclaimed = true) :
    ∃ effects, s.Acts effects t ∧ effects.filterMap Effect.result? = [] ∧
      effects.filterMap Effect.notice? = [] := by
  cases h with
  | quit _ _ hacts => exact ⟨_, hacts, rfl, rfl⟩
  | poll _ hclaimed _ => exact absurd (hclaimed.symm.trans hunclaimed) (by simp)
  | respond _ hclaimed _ => exact absurd (hclaimed.symm.trans hunclaimed) (by simp)
  | lament result _ _ hacts =>
    refine ⟨_, hacts, ?_, ?_⟩
    · cases result.diagnostic? <;> rfl
    · cases result.diagnostic? <;> rfl
  | ignore _ _ _ => exact ⟨[], .refl s, rfl, rfl⟩
  | abandon _ _ _ hacts => exact ⟨_, hacts, rfl, rfl⟩
  | proceed _ hclaimed _ => exact absurd (hclaimed.symm.trans hunclaimed) (by simp)

theorem quiet_of_unclaimed {more : List Stimulus} (h : Onward delay t p more u q)
    (hunclaimed : t.unclaimed = true) :
    u.unclaimed = true ∧ ∃ deeds, u.history = t.history ++ deeds ∧ polled deeds = [] ∧
      sent deeds = [] := by
  induction h with
  | start => exact ⟨hunclaimed, [], by simp, rfl, rfl⟩
  | @change events u q stimulus _ ih =>
    obtain ⟨hgone, deeds, hhistory, hquiet⟩ := ih
    refine ⟨(Surroundings.unclaimed_after u stimulus).mpr (.inl hgone), deeds, ?_, hquiet⟩
    rw [Surroundings.history_after, hhistory]
  | @step events u v q r _ hstep ih =>
    obtain ⟨hgone, deeds, hhistory, hpolled, hsent⟩ := ih
    obtain ⟨effects, hacts, hresult, hnotice⟩ := (move_of_step hstep).quiet_of_unclaimed hgone
    refine ⟨hacts.unclaimed_eq.trans hgone, deeds ++ Effect.deeds effects u.now, ?_, ?_, ?_⟩
    · rw [hacts.history_eq, hhistory, List.append_assoc]
    · rw [polled_append, hpolled, polled_deeds, hresult, List.nil_append]
    · rw [sent_append, hsent, sent_deeds, hnotice, List.nil_append]

theorem step_of_unclaimed (hunclaimed : t.unclaimed = true) (hwaits : p.Waits) :
    step delay t p = some (stop t) := by
  cases p with
  | polling => simp [step, hunclaimed]
  | pausing deadline => simp [step, hunclaimed]
  | handling result => exact hwaits.elim
  | ended => exact hwaits.elim

/-- There is no rest without a reader but the end. -/
theorem ended_of_unclaimed (hunclaimed : t.unclaimed = true) (hrest : step delay t p = none) :
    p = .ended := by
  have hnotWaiting : ¬ p.Waits := by
    intro hwaits
    rw [step_of_unclaimed hunclaimed hwaits] at hrest
    cases hrest
  -- where it waits it would take the step that ends it
  rcases rest_cases hrest with ⟨rfl, -⟩ | ⟨deadline, rfl, -⟩ | hended
  · exact absurd trivial hnotWaiting
  · exact absurd trivial hnotWaiting
  · exact hended

theorem unclaimed_settle (delay : Nat) (t : Surroundings) (p : Pump) :
    ((activity delay).settle t p).1.unclaimed = t.unclaimed := by
  refine (activity delay).settle_induction (motive := fun u _ => u.unclaimed = t.unclaimed) ?_ rfl
  intro u p v q hsame hstep
  obtain ⟨effects, hacts⟩ := (move_of_step hstep).acts
  exact hacts.unclaimed_eq.trans hsame

/-! ### The whole life -/

theorem complaint?_ne_closing {result : PollResult} {line : String}
    (h : result.complaint? = some line) : line ≠ Diagnostic.noticesUnclaimed.fullLine := by
  cases result with
  | event _ => cases h
  | refused code =>
    cases h
    cases code <;> decide
  | failed =>
    cases h
    decide

/-- What can be seen of the log of a pump that is now `p`: a complaint about every failure
    that it dealt with, in order, and at the end, there and nowhere else, its last word. -/
structure Logged (deeds : List (Deed Pump.Effect)) (p : Pump) (results : List PollResult) :
    Prop where
  polled_eq : polled deeds = results ++ p.inHand
  log_eq : (diagnostics deeds).map Diagnostic.fullLine =
    results.filterMap PollResult.complaint? ++ p.closing.map Diagnostic.fullLine
  once : ((diagnostics deeds).map Diagnostic.fullLine).count
    "DEBUG notice receiver gone, stopping event loop" = if p = .ended then 1 else 0

theorem Course.logged {results : List PollResult} (h : Course delay s t p results) :
    Logged (t.deedsSince s) p results := by
  have hlog : (diagnostics (t.deedsSince s)).map Diagnostic.fullLine =
      results.filterMap PollResult.complaint? ++ p.closing.map Diagnostic.fullLine := by
    rw [diagnostics_eq_filterMap, h.chronicle.log_eq, List.map_append, List.map_filterMap,
      funext PollResult.fullLine_diagnostic?]
  refine ⟨?_, hlog, ?_⟩
  · rw [polled_eq_filterMap]
    exact h.chronicle.polled_eq
  · -- no complaint reads like the last word
    have hnone : Diagnostic.noticesUnclaimed.fullLine ∉
        results.filterMap PollResult.complaint? := by
      intro hmem
      obtain ⟨result, -, hline⟩ := List.mem_filterMap.mp hmem
      exact complaint?_ne_closing hline rfl
    have hclosing : Diagnostic.noticesUnclaimed.fullLine =
        "DEBUG notice receiver gone, stopping event loop" := by decide
    rw [hlog, List.count_append, ← hclosing, List.count_eq_zero.mpr hnone, Nat.zero_add]
    cases p <;> simp [closing]

/-- Let `(t, p)` be any state of a pump, whatever it polled, whenever the clock moved, and
    whether the reader of its inbox is still there or went away at some moment.

    Between a failure and the next result that it asks for is at least the delay, and it
    pauses after a failure only.  Its log has a complaint for every failure and, if and only
    if it has ended, the line about its end, once.

    If it has ended, then the reader is gone.  Once the reader is gone, it polls and sends
    no more, whatever happens; where it is waiting, its next step is to end; and when it is
    resumed, it ends. -/
theorem pauses_and_stops (h : Run delay s events t p) :
    Spaced delay (t.deedsSince s) ∧
      (p = .polling → ∀ d ∈ t.deedsSince s, IsFailure d → d.time + delay ≤ t.now) ∧
      (∀ deadline, p = .pausing deadline →
        ∃ failure, (polled (t.deedsSince s)).getLast? = some failure ∧ failure.isFailure = true) ∧
      (∃ results, Logged (t.deedsSince s) p results) ∧
      (t.unclaimed = true ↔ s.unclaimed = true ∨ .leave ∈ events) ∧
      (p = .ended → t.unclaimed = true) ∧
      (t.unclaimed = true →
        (∀ more u q, Onward delay t p more u q → polled (u.deedsSince s) = polled (t.deedsSince s) ∧
          sent (u.deedsSince s) = sent (t.deedsSince s)) ∧
        (p.Waits → step delay t p = some (stop t)) ∧
        ((activity delay).settle t p).2 = .ended) := by
  obtain ⟨results, hcourse⟩ := course_run h
  refine ⟨hcourse.paced.spaced, ?_, hcourse.paced.pausing, ⟨results, hcourse.logged⟩,
    unclaimed_run h, hcourse.chronicle.gone, ?_⟩
  · rintro rfl
    exact hcourse.paced.rested nofun
  · intro hunclaimed
    refine ⟨?_, step_of_unclaimed hunclaimed, ?_⟩
    · intro more u q honward
      obtain ⟨-, deeds, hhistory, hpolled, hsent⟩ := quiet_of_unclaimed honward hunclaimed
      rw [hcourse.deedsSince_eq hhistory, polled_append, sent_append, hpolled, hsent]
      exact ⟨List.append_nil _, List.append_nil _⟩
    · have hsettled : ((activity delay).settle t p).1.unclaimed = true := by
        rw [unclaimed_settle]
        exact hunclaimed
      exact ended_of_unclaimed hsettled ((activity delay).step_settle t p)

/-- A refusal is polled, and the reader goes away before it is dealt with: its notice is
    dropped, and the pause, however long, ends at once. -/
theorem pauses_and_stops_with_refusal_in_hand :
    let ready : List PollResult := [.event (.incoming .pingResp), .refused .notAuthorized, .failed]
    let s : Surroundings := { ready }
    let polled₁ := { s with ready := ready.drop 1 }.record (.polled (.event (.incoming .pingResp)))
    let polled₂ := { polled₁ with ready := [.failed] }.record (.polled (.refused .notAuthorized))
    let t := polled₂.after .leave
    let x := (activity 1000).settle t (.handling (.refused .notAuthorized))
    Run 1000 s [.leave] t (.handling (.refused .notAuthorized)) ∧ x.2 = .ended ∧
      polled (x.1.deedsSince s) = ready.take 2 ∧ sent (x.1.deedsSince s) = [] ∧
      (diagnostics (x.1.deedsSince s)).map Diagnostic.fullLine =
        ["ERROR broker refused the connection code=NotAuthorized",
          "DEBUG notice receiver gone, stopping event loop"] ∧ x.1.now = 0 := by
  intro ready s polled₁ polled₂ t x
  have hrun : Run 1000 s [.leave] t (.handling (.refused .notAuthorized)) :=
    (((Run.start.step rfl).step rfl).step rfl).change .leave
  obtain ⟨-, -, -, -, hgone, -, hstops⟩ := pauses_and_stops hrun
  obtain ⟨-, -, hended⟩ := hstops (hgone.mpr (.inr (by decide)))
  exact ⟨hrun, hended, by decide, by decide, by decide, by decide⟩

end Pump
end BrokerLoad

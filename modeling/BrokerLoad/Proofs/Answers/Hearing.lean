/-
  BrokerLoad/Proofs/Answers/Hearing.lean
  ======================================
  Which answers a run takes, and when.

  A run hears an answer in the step in which it takes it (`Surroundings.heard?`): at once
  after the call, or later out of the link.  Each refusal heard leaves one report, at the
  end of what that step does, and no other step leaves one (`StepHears`).  So the log of a
  whole run has the refusals heard and no other rejection (`log_live`).  The numbers of the
  calls whose answers are heard only grow (`pairwise_hears`), since a run does not wait any
  more once it has heard an answer.
-/
import BrokerLoad.Proofs.Answers.Accepting
import BrokerLoad.Proofs.Subscriber.Moves

namespace BrokerLoad

def Answer.refusal? : Answer → Option String
  | accepted => none
  | refused reason => some reason

/-! ### Hearing -/

/-- The answer that a step from `s` to `t` takes: the one given at once to the call that it
    makes, or else the one that was there and is there no more. -/
def Surroundings.heard? (s t : Surroundings) : Option Answer :=
  if s.link.made < t.link.made then s.link.atOnce t.link.made
  else if t.link.answer.isNone then s.link.answer else none

namespace Session

variable {σ : Type}

def heard? (role : Role σ) (x : Session σ) : Moment → Option (Nat × Answer)
  | .arrival _ => none
  | .step =>
    (x.surroundings.heard? (x.next role .step).surroundings).map
      ((x.next role .step).surroundings.link.made, ·)

def hears (role : Role σ) : Session σ → List Moment → List (Nat × Answer)
  | _, [] => []
  | x, moment :: later => (x.heard? role moment).toList ++ hears role (x.next role moment) later

theorem hears_append (role : Role σ) (x : Session σ) (moments more : List Moment) :
    x.hears role (moments ++ more) =
      x.hears role moments ++ (x.live role moments).hears role more := by
  induction moments generalizing x with
  | nil => rfl
  | cons moment moments ih =>
    rw [List.cons_append, hears, ih, hears, List.append_assoc]
    rfl

end Session

/-! ### Single steps -/

/-- What a step has to do with answers.  It reports the refusal that it hears, last of all,
    and no other.  It hears only the call that it makes or the one that waits, and goes on
    then; while the run waits for the last call, that one was not heard. -/
structure StepHears {σ : Type} (role : Role σ) (rejected : String → Diagnostic)
    (s : Surroundings) (p : σ) (after : Surroundings × σ) : Prop where
  made_le : s.link.made ≤ after.1.link.made
  logged : ∃ effects, (∀ effect ∈ effects, effect.isRejection = false) ∧
    s.Acts (effects ++ (s.heard? after.1).elim [] (·.complaint rejected)) after.1
  of_heard : s.heard? after.1 ≠ none →
    (s.link.made < after.1.link.made ∨ role.waits p = true) ∧ role.isOver after.2 = false
  of_waits : role.waits after.2 = true → s.heard? after.1 = none ∧
    (s.link.made < after.1.link.made ∨ role.waits p = true)

/-- A way to take an answer: a refusal is reported, and the run goes on. -/
structure Concludes {σ : Type} (role : Role σ) (rejected : String → Diagnostic)
    (conclude : Surroundings → Answer → Surroundings × σ) : Prop where
  acts : ∀ (s : Surroundings) answer, s.Acts (answer.complaint rejected) (conclude s answer).1
  link_eq : ∀ s answer, (conclude s answer).1.link = { s.link with answer := none }
  waits_eq : ∀ s answer, role.waits (conclude s answer).2 = false
  isOver_eq : ∀ s answer, role.isOver (conclude s answer).2 = false

structure Role.Hears {σ : Type} (role : Role σ) (rejected : String → Diagnostic) : Prop where
  isRejection_eq : ∀ reason, (rejected reason).isRejection = true
  waits_start : role.waits role.start = false
  waits_of_isOver : ∀ p, role.isOver p = true → role.waits p = false
  step : ∀ s p after, role.activity.step s p = some after → StepHears role rejected s p after

section

variable {σ : Type} {role : Role σ} {rejected : String → Diagnostic} {s t : Surroundings} {p q : σ}
  {conclude : Surroundings → Answer → Surroundings × σ} {effects : List Effect}

/-- Where the link is left alone, nothing is heard. -/
theorem Surroundings.heard?_of_link_eq (h : t.link = s.link) : s.heard? t = none := by
  unfold heard?
  rw [h, if_neg (Nat.lt_irrefl _)]
  cases s.link.answer <;> rfl

theorem Session.heard?_of_step {x : Session σ}
    (h : role.activity.step x.surroundings x.run = some (t, q)) :
    x.heard? role .step = (x.surroundings.heard? t).map (t.link.made, ·) := by
  rw [heard?, next_of_step h]

/-- A loop that rests has neither made a call nor taken an answer. -/
theorem Session.heard?_of_rests {x : Session σ}
    (h : role.activity.step x.surroundings x.run = none) : x.heard? role .step = none := by
  rw [heard?, next_of_rest h, Surroundings.heard?_of_link_eq rfl, Option.map_none]

/-- The answer that was there is heard as it leaves the link. -/
theorem Surroundings.heard?_of_taken (h : t.link = { s.link with answer := none }) :
    s.heard? t = s.link.answer := by
  simp [heard?, h]

/-- A call is heard with the answer that it gets at once. -/
theorem Surroundings.heard?_of_made
    (h : t.link = { s.link with made := s.link.made + 1, answer := none }) :
    s.heard? t = s.link.atOnce (s.link.made + 1) := by
  simp [heard?, h]

theorem StepHears.silent (hacts : s.Acts effects t)
    (hquiet : ∀ effect ∈ effects, effect.isRejection = false) (hlink : t.link = s.link)
    (hwaits : role.waits q = false) : StepHears role rejected s p (t, q) := by
  have hunheard := Surroundings.heard?_of_link_eq hlink
  refine ⟨?_, ⟨effects, hquiet, ?_⟩, ?_, ?_⟩
  · exact Nat.le_of_eq (by rw [hlink])
  · rw [hunheard, Option.elim_none, List.append_nil]
    exact hacts
  · exact fun hheard => absurd hunheard hheard
  · exact fun hwaits' => absurd (hwaits.symm.trans hwaits') Bool.false_ne_true

theorem StepHears.idle (hwaits : role.waits q = false) : StepHears role rejected s p (s, q) :=
  .silent (.refl s) (List.forall_mem_nil _) rfl hwaits

/-- The answer to the waiting call is taken. -/
theorem StepHears.concluded (h : Concludes role rejected conclude) {answer : Answer}
    (hanswer : s.link.answer = some answer) (hwaits : role.waits p = true) :
    StepHears role rejected s p (conclude s answer) := by
  have hlink := h.link_eq s answer
  have hheard : s.heard? (conclude s answer).1 = some answer :=
    (Surroundings.heard?_of_taken hlink).trans hanswer
  refine ⟨?_, ⟨[], ?_, ?_⟩, ?_, ?_⟩
  · exact Nat.le_of_eq (by rw [hlink])
  · exact List.forall_mem_nil _
  · rw [hheard]
    exact h.acts s answer
  · exact fun _ => ⟨.inr hwaits, h.isOver_eq s answer⟩
  · intro hwaits'
    exact absurd ((h.waits_eq s answer).symm.trans hwaits') Bool.false_ne_true

/-- A call is made, and its answer is taken if there is one at once. -/
theorem StepHears.called (h : Concludes role rejected conclude) (hacts : s.Acts effects t)
    (hquiet : ∀ effect ∈ effects, effect.isRejection = false) (hlink : t.link = s.link)
    (call : Call) {next : Surroundings × Option Answer → Surroundings × σ}
    (hnone : ∀ u, (next (u, none)).1 = u)
    (hsome : ∀ u answer, next (u, some answer) = conclude u answer) :
    StepHears role rejected s p (next (t.call call)) := by
  have hmore : s.Acts (effects ++ [.called call]) (t.call call).1 := hacts.trans (t.acts_call call)
  have hmade : (t.call call).1.link =
      { s.link with made := s.link.made + 1, answer := none } := by
    rw [← hlink]
    rfl
  have hatOnce : (t.call call).2 = s.link.atOnce (s.link.made + 1) := by
    rw [← hlink]
    rfl
  have hquiet' : ∀ effect ∈ effects ++ [.called call], effect.isRejection = false := by
    intro effect hmem
    rcases List.mem_append.mp hmem with hbefore | hcall
    · exact hquiet effect hbefore
    · rw [List.mem_singleton.mp hcall]
      rfl
  -- without an answer the run waits for this call, and with one the call is over
  rcases hcalled : t.call call with ⟨u, _ | answer⟩ <;>
    simp only [hcalled] at hmore hmade hatOnce
  · have hstay := hnone u
    have hunheard : s.heard? (next (u, none)).1 = none := by
      rw [hstay, Surroundings.heard?_of_made hmade, hatOnce]
    refine ⟨?_, ⟨_, hquiet', ?_⟩, ?_, ?_⟩
    · rw [hstay, hmade]
      exact Nat.le_succ _
    · rw [hunheard, Option.elim_none, List.append_nil, hstay]
      exact hmore
    · exact fun hheard => absurd hunheard hheard
    · intro _
      refine ⟨hunheard, .inl ?_⟩
      rw [hstay, hmade]
      exact Nat.lt_succ_self _
  · have hlink' := h.link_eq u answer
    rw [hmade] at hlink'
    rw [hsome]
    have hheard : s.heard? (conclude u answer).1 = some answer := by
      rw [Surroundings.heard?_of_made hlink', hatOnce]
    have hless : s.link.made < (conclude u answer).1.link.made := by
      rw [hlink']
      exact Nat.lt_succ_self _
    refine ⟨Nat.le_of_lt hless, ⟨_, hquiet', ?_⟩, ?_, ?_⟩
    · rw [hheard]
      exact hmore.trans (h.acts u answer)
    · exact fun _ => ⟨.inl hless, h.isOver_eq u answer⟩
    · intro hwaits
      exact absurd ((h.waits_eq u answer).symm.trans hwaits) Bool.false_ne_true

end

/-! ### The loops -/

theorem Effect.isRejection_of_mem_writing {octets : Octets} :
    ∀ effect ∈ Effect.writing octets, effect.isRejection = false := by
  intro effect hmem
  cases octets with
  | nil => cases hmem
  | cons octet octets =>
    rw [List.mem_singleton.mp hmem]
    rfl

/-- A condition on every result of an alternative is one on the results of both branches. -/
theorem StepHears.ite {σ : Type} {role : Role σ} {rejected : String → Diagnostic}
    {s : Surroundings} {p : σ} {condition : Prop} [Decidable condition]
    {a b : Option (Surroundings × σ)} (ha : ∀ after ∈ a, StepHears role rejected s p after)
    (hb : ∀ after ∈ b, StepHears role rejected s p after) :
    ∀ after ∈ if condition then a else b, StepHears role rejected s p after := by
  split
  · exact ha
  · exact hb

namespace Publisher

variable {plan : Plan} {s : Surroundings}

theorem concludes (plan : Plan) (p : Publisher) :
    Concludes (role plan) .publishRejected (p.conclude plan) where
  acts := p.acts_conclude plan
  link_eq s answer := by cases answer <;> rfl
  waits_eq s answer := by cases answer <;> rfl
  isOver_eq s answer := by cases answer <;> rfl

theorem hears (plan : Plan) : (role plan).Hears .publishRejected where
  isRejection_eq _ := rfl
  waits_start := rfl
  waits_of_isOver p hover := by
    cases hphase : p.phase with
    | ended result => simp [role, hphase]
    | _ => simp [role, hphase] at hover
  step s p := by
    have hinterrupt : ∀ after ∈ some (p.interrupt s),
        StepHears (role plan) .publishRejected s p after := by
      rintro _ ⟨⟩
      exact .silent (s.acts_report _) (by simp [Effect.isRejection, Diagnostic.isRejection]) rfl rfl
    change ∀ after ∈ p.step plan s, StepHears (role plan) .publishRejected s p after
    unfold step
    cases hphase : p.phase with
    | between =>
      refine .ite (.ite hinterrupt ?_) ?_
      · rintro _ ⟨⟩
        rw [begin_eq_afterAttempt]
        refine .silent (s.acts_write _) Effect.isRejection_of_mem_writing (s.link_write _) ?_
        cases (s.write (line plan.topic (Payload.numbered (p.number + 1).toNat))).2 <;> rfl
      · rintro _ ⟨⟩
        exact .idle rfl
    | written =>
      refine .ite hinterrupt ?_
      rintro _ ⟨⟩
      exact .called (p.concludes plan) (.refl s) (List.forall_mem_nil _) rfl
        (plan.submission p.number.toNat) (fun _ => rfl) fun _ _ => rfl
    | calling =>
      refine .ite hinterrupt ?_
      intro after hafter
      obtain ⟨answer, hanswer, rfl⟩ := Option.map_eq_some_iff.mp hafter
      exact .concluded (p.concludes plan) hanswer (by simp [role, hphase])
    | pausing deadline =>
      refine .ite hinterrupt (.ite ?_ ?_)
      · rintro _ ⟨⟩
        exact .idle rfl
      · rintro _ ⟨⟩
    | ended result => rintro _ ⟨⟩

end Publisher

namespace Subscriber

variable {topic : String} {s t : Surroundings}

theorem concludes (topic : String) : Concludes (role topic) .subscribeRejected conclude where
  acts := acts_conclude
  link_eq := link_conclude
  waits_eq s answer := by cases answer <;> rfl
  isOver_eq s answer := by cases answer <;> rfl

theorem stepHears_take {notice : Notice} (htake : s.take? = some (notice, t)) (p : Subscriber) :
    StepHears (role topic) .subscribeRejected s p
      (afterText topic notice (t.write (text topic notice))) := by
  have hacts := (Surroundings.acts_take? htake).trans (t.acts_write (text topic notice))
  have hlink : (t.write (text topic notice)).1.link = s.link := by
    rw [t.link_write, Surroundings.link_of_take? htake]
  have hquiet : ∀ effect ∈ [.took notice] ++
      Effect.writing (t.writer.fitting (text topic notice)), effect.isRejection = false := by
    intro effect hmem
    rcases List.mem_append.mp hmem with htook | hwrote
    · rw [List.mem_singleton.mp htook]
      rfl
    · exact Effect.isRejection_of_mem_writing effect hwrote
  -- a call is made only when the lines are all in print
  rcases hwrite : t.write (text topic notice) with ⟨u, _ | error⟩ <;> rw [hwrite] at hacts hlink
  · unfold afterText
    dsimp only
    split
    · exact .called (concludes topic) hacts hquiet hlink _ (fun _ => rfl) fun _ _ => rfl
    · exact .silent hacts hquiet hlink rfl
  · exact .silent hacts hquiet hlink rfl

theorem hears (topic : String) : (role topic).Hears .subscribeRejected where
  isRejection_eq _ := rfl
  waits_start := rfl
  waits_of_isOver p hover := by
    cases p with
    | ended result => rfl
    | _ => cases hover
  step s p := by
    change ∀ after ∈ step topic s p, StepHears (role topic) .subscribeRejected s p after
    cases p with
    | listening =>
      refine .ite ?_ ?_
      · rintro _ ⟨⟩
        exact .silent (s.acts_report _) (by simp [Effect.isRejection, Diagnostic.isRejection])
          rfl rfl
      · rcases htake : s.take? with _ | ⟨notice, taken⟩
        · refine .ite ?_ ?_
          · rintro _ ⟨⟩
          · rintro _ ⟨⟩
            exact .idle rfl
        · rintro _ ⟨⟩
          exact stepHears_take htake .listening
    | subscribing =>
      intro after hafter
      obtain ⟨answer, hanswer, rfl⟩ := Option.map_eq_some_iff.mp hafter
      exact .concluded (concludes topic) hanswer rfl
    | flushing =>
      rintro _ ⟨⟩
      have hacts := s.acts_flush
      have hlink : s.flush.1.link = s.link := rfl
      have hquiet : ∀ effect ∈ [Effect.flushed], effect.isRejection = false := by
        simp [Effect.isRejection]
      rcases hflush : s.flush with ⟨u, _ | error⟩ <;> rw [hflush] at hacts hlink
      · exact .silent hacts hquiet hlink rfl
      · exact .silent hacts hquiet hlink rfl
    | ended result => rintro _ ⟨⟩

end Subscriber

/-! ### Moments -/

/-- What a moment has to do with answers, as for a step; an arrival has nothing to do with
    them. -/
structure MomentHears {σ : Type} (role : Role σ) (rejected : String → Diagnostic)
    (x : Session σ) (moment : Moment) : Prop where
  made_le : x.surroundings.link.made ≤ (x.next role moment).surroundings.link.made
  logged : ∃ effects, (∀ effect ∈ effects, effect.isRejection = false) ∧
    (x.next role moment).surroundings.effects =
      x.surroundings.effects ++ effects ++
        (x.heard? role moment).elim [] (·.2.complaint rejected)
  of_heard : ∀ heard, x.heard? role moment = some heard →
    heard.1 = (x.next role moment).surroundings.link.made ∧
      (x.surroundings.link.made < heard.1 ∨ role.waits x.run = true) ∧
      role.isOver (x.next role moment).run = false
  of_waits : role.waits (x.next role moment).run = true → x.heard? role moment = none ∧
    (x.surroundings.link.made < (x.next role moment).surroundings.link.made ∨
      role.waits x.run = true)

section

variable {σ : Type} {role : Role σ} {rejected : String → Diagnostic} {x : Session σ}

/-- A moment in which nothing is done and nothing is heard, and no wait begins. -/
theorem MomentHears.silent {moment : Moment}
    (hmade : (x.next role moment).surroundings.link.made = x.surroundings.link.made)
    (heffects : (x.next role moment).surroundings.effects = x.surroundings.effects)
    (hunheard : x.heard? role moment = none)
    (hwaits : role.waits (x.next role moment).run = true → role.waits x.run = true) :
    MomentHears role rejected x moment := by
  refine ⟨Nat.le_of_eq hmade.symm, ⟨[], List.forall_mem_nil _, ?_⟩, ?_, ?_⟩
  · rw [heffects, hunheard, Option.elim_none, List.append_nil, List.append_nil]
  · intro heard hheard
    exact absurd (hunheard.symm.trans hheard) (by simp)
  · intro hwaits'
    exact ⟨hunheard, .inr (hwaits hwaits')⟩

theorem MomentHears.of_step {t : Surroundings} {q : σ}
    (hstep : role.activity.step x.surroundings x.run = some (t, q))
    (h : StepHears role rejected x.surroundings x.run (t, q)) :
    MomentHears role rejected x .step := by
  have hnext := Session.next_of_step hstep
  have hheard := Session.heard?_of_step hstep
  obtain ⟨effects, hquiet, hacts⟩ := h.logged
  refine ⟨?_, ⟨effects, hquiet, ?_⟩, ?_, ?_⟩
  · rw [hnext]
    exact h.made_le
  · rw [hnext, hheard, hacts.effects_eq, List.append_assoc]
    cases x.surroundings.heard? t <;> rfl
  · intro heard hsome
    rw [hheard] at hsome
    obtain ⟨answer, hanswer, rfl⟩ := Option.map_eq_some_iff.mp hsome
    rw [hnext]
    exact ⟨rfl, h.of_heard (by simp [hanswer])⟩
  · intro hwaits
    rw [hnext] at hwaits
    obtain ⟨hunheard, hbefore⟩ := h.of_waits hwaits
    rw [hheard, hunheard, hnext]
    exact ⟨rfl, hbefore⟩

/-- A run that has heard an answer does not wait. -/
theorem MomentHears.waits_eq {moment : Moment} (h : MomentHears role rejected x moment)
    {heard : Nat × Answer} (hheard : x.heard? role moment = some heard) :
    role.waits (x.next role moment).run = false := by
  rw [Bool.eq_false_iff]
  intro hwaits
  exact absurd ((h.of_waits hwaits).1.symm.trans hheard) (by simp)

/-- Where the run did not wait, a bound on the calls after this moment that is strict unless
    the run waits then is a strict bound on the calls before it. -/
theorem MomentHears.made_lt {moment : Moment} (h : MomentHears role rejected x moment)
    (hidle : role.waits x.run = false) {number : Nat}
    (hle : (x.next role moment).surroundings.link.made ≤ number)
    (hlt : role.waits (x.next role moment).run = false →
      (x.next role moment).surroundings.link.made < number) :
    x.surroundings.link.made < number := by
  cases hwaits : role.waits (x.next role moment).run with
  | false => exact Nat.lt_of_le_of_lt h.made_le (hlt hwaits)
  | true =>
    -- it began to wait in this moment, and so by a call
    rcases (h.of_waits hwaits).2 with hmade | hwaited
    · exact Nat.lt_of_lt_of_le hmade hle
    · exact absurd (hidle.symm.trans hwaited) Bool.false_ne_true

theorem Session.made_change (x : Session σ) (role : Role σ) (stimulus : Stimulus) :
    (x.change role stimulus).surroundings.link.made = x.surroundings.link.made := by
  cases stimulus with
  | resolve answer =>
    simp only [change]
    split <;> rfl
  | event event =>
    simp only [change]
    split <;> rfl
  | _ => rfl

namespace Role.Hears

theorem waits_change (h : role.Hears rejected) {stimulus : Stimulus}
    (hwaits : role.waits (x.change role stimulus).run = true) : role.waits x.run = true := by
  by_cases hrestart : stimulus = .restart
  · subst hrestart
    exact absurd (h.waits_start.symm.trans hwaits) Bool.false_ne_true
  · have hchanged : Session.Changed stimulus x (x.change role stimulus) :=
      x.changed_change hrestart
    exact hchanged.run_eq ▸ hwaits

theorem next (h : role.Hears rejected) (x : Session σ) (moment : Moment) :
    MomentHears role rejected x moment := by
  cases moment with
  | arrival stimulus =>
    exact .silent (x.made_change role stimulus) (x.effects_change stimulus) rfl h.waits_change
  | step =>
    rcases hstep : role.activity.step x.surroundings x.run with _ | ⟨t, q⟩
    · have hnext := Session.next_of_rest hstep
      refine .silent ?_ ?_ (Session.heard?_of_rests hstep) ?_ <;> rw [hnext]
      exact id
    · exact .of_step hstep (h.step x.surroundings x.run (t, q) hstep)

/-! ### Whole runs -/

/-- The number of calls made only grows.  A run that waits now, and did not then, has made
    a call since. -/
theorem made_live (h : role.Hears rejected) (x : Session σ) (moments : List Moment) :
    x.surroundings.link.made ≤ (x.live role moments).surroundings.link.made ∧
      (role.waits x.run = false → role.waits (x.live role moments).run = true →
        x.surroundings.link.made < (x.live role moments).surroundings.link.made) := by
  induction moments generalizing x with
  | nil =>
    refine ⟨Nat.le_refl _, fun hbefore hafter => ?_⟩
    exact absurd (hbefore.symm.trans hafter) Bool.false_ne_true
  | cons moment moments ih =>
    have hfirst := h.next x moment
    obtain ⟨hle, hlt⟩ := ih (x.next role moment)
    refine ⟨Nat.le_trans hfirst.made_le hle, fun hbefore hafter => ?_⟩
    exact hfirst.made_lt hbefore hle fun hwaits => hlt hwaits hafter

/-- What is heard is an answer to the last call or to a later one, and to a later one if the
    last does not wait. -/
theorem le_of_mem_hears (h : role.Hears rejected) (x : Session σ) (moments : List Moment) :
    ∀ heard ∈ x.hears role moments, x.surroundings.link.made ≤ heard.1 ∧
      (role.waits x.run = false → x.surroundings.link.made < heard.1) := by
  induction moments generalizing x with
  | nil => exact List.forall_mem_nil _
  | cons moment moments ih =>
    intro heard hmem
    have hfirst := h.next x moment
    -- a call that did not wait before this moment was made in it
    rcases List.mem_append.mp hmem with hnow | hlater
    · obtain ⟨hnumber, hless, -⟩ := hfirst.of_heard heard (Option.mem_toList.mp hnow)
      refine ⟨hnumber ▸ hfirst.made_le, fun hbefore => ?_⟩
      rcases hless with hmade | hwaited
      · exact hmade
      · exact absurd (hbefore.symm.trans hwaited) Bool.false_ne_true
    · obtain ⟨hle, hlt⟩ := ih (x.next role moment) heard hlater
      exact ⟨Nat.le_trans hfirst.made_le hle, fun hbefore => hfirst.made_lt hbefore hle hlt⟩

/-- What was heard was an answer to a call made, and not to the one that waits. -/
theorem mem_hears_le (h : role.Hears rejected) (x : Session σ) (moments : List Moment) :
    ∀ heard ∈ x.hears role moments,
      heard.1 ≤ (x.live role moments).surroundings.link.made ∧
      (role.waits (x.live role moments).run = true →
        heard.1 < (x.live role moments).surroundings.link.made) := by
  induction moments generalizing x with
  | nil => exact List.forall_mem_nil _
  | cons moment moments ih =>
    intro heard hmem
    rcases List.mem_append.mp hmem with hnow | hlater
    · have hfirst := h.next x moment
      have hsome := Option.mem_toList.mp hnow
      obtain ⟨hnumber, -, -⟩ := hfirst.of_heard heard hsome
      -- once its answer is heard, a call waits no more
      have hidle := hfirst.waits_eq hsome
      obtain ⟨hle, hlt⟩ := h.made_live (x.next role moment) moments
      rw [hnumber]
      exact ⟨hle, hlt hidle⟩
    · exact ih (x.next role moment) heard hlater

/-- Answers are heard in the order of the calls, and none twice. -/
theorem pairwise_hears (h : role.Hears rejected) (x : Session σ) (moments : List Moment) :
    (x.hears role moments).Pairwise (·.1 < ·.1) := by
  induction moments generalizing x with
  | nil => exact .nil
  | cons moment moments ih =>
    rw [Session.hears, List.pairwise_append]
    refine ⟨?_, ih _, ?_⟩
    · cases x.heard? role moment <;> simp
    · intro heard hnow later hlater
      have hfirst := h.next x moment
      have hsome := Option.mem_toList.mp hnow
      obtain ⟨hnumber, -, -⟩ := hfirst.of_heard heard hsome
      -- the run does not wait then, so that a later answer is one to a later call
      have hidle := hfirst.waits_eq hsome
      rw [hnumber]
      exact (h.le_of_mem_hears (x.next role moment) moments later hlater).2 hidle

/-- The log has the refusals heard, and no other rejection. -/
theorem log_live (h : role.Hears rejected) (x : Session σ) (moments : List Moment) :
    ∃ effects, (x.live role moments).surroundings.effects = x.surroundings.effects ++ effects ∧
      (effects.filterMap Effect.diagnostic?).filter (·.isRejection) =
        (x.hears role moments).filterMap fun heard => heard.2.refusal?.map rejected := by
  induction moments generalizing x with
  | nil => exact ⟨[], (List.append_nil _).symm, rfl⟩
  | cons moment moments ih =>
    obtain ⟨first, hquiet, hfirst⟩ := (h.next x moment).logged
    obtain ⟨later, hlater, hlog⟩ := ih (x.next role moment)
    refine ⟨first ++ ((x.heard? role moment).elim [] (·.2.complaint rejected)) ++ later, ?_, ?_⟩
    · rw [Session.live_cons, hlater, hfirst, List.append_assoc, List.append_assoc,
        List.append_assoc]
    · have hnone : (first.filterMap Effect.diagnostic?).filter (·.isRejection) = [] := by
        rw [List.filter_eq_nil_iff]
        intro diagnostic hmem
        obtain ⟨effect, heffect, hreported⟩ := List.mem_filterMap.mp hmem
        have hsilent := hquiet effect heffect
        cases effect with
        | reported other =>
          rw [← Option.some.inj hreported]
          simpa [Effect.isRejection] using hsilent
        | _ => cases hreported
      rw [Session.hears, List.filterMap_append, List.filterMap_append, List.filter_append,
        List.filter_append, hnone, hlog, List.filterMap_append, List.nil_append]
      congr 1
      rcases x.heard? role moment with _ | ⟨number, _ | reason⟩
      · rfl
      · rfl
      · simp [Answer.complaint, Answer.refusal?, Effect.diagnostic?, h.isRejection_eq]

end Role.Hears

end

end BrokerLoad

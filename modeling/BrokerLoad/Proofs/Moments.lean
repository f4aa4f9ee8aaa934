/-
  BrokerLoad/Proofs/Moments.lean
  ==============================
  Where a session gets to, as a function of what happens to it.

  A `Moment` is the smallest thing that can happen: a stimulus arrives, or the loop takes
  its next step.  `Session.live` follows a list of them.  It reaches what `Role.Run`
  reaches and nothing else (`run_iff_live`), and a resumption is a number of steps
  (`live_steps`).  Since it is a function, two runs can be compared moment by moment.
-/
import BrokerLoad.Proofs.Runs

namespace BrokerLoad

inductive Moment where
  | arrival (stimulus : Stimulus)
  /-- The loop takes its next step, unless it rests. -/
  | step
deriving DecidableEq, Repr

def Moment.stimulus? : Moment → Option Stimulus
  | arrival stimulus => some stimulus
  | step => none

@[simp] theorem Trace.output_append (trace more : Trace) :
    Trace.output (trace ++ more) = trace.output ++ more.output :=
  List.flatMap_append

variable {σ : Type} {role : Role σ} {x y : Session σ} {events : List Stimulus}
  {moments : List Moment}

namespace Session

def next (role : Role σ) (x : Session σ) : Moment → Session σ
  | .arrival stimulus => x.change role stimulus
  | .step =>
    match role.activity.step x.surroundings x.run with
    | some (surroundings, run) => { surroundings, run }
    | none => x

def live (role : Role σ) (x : Session σ) (moments : List Moment) : Session σ :=
  moments.foldl (next role) x

@[simp] theorem live_nil (role : Role σ) (x : Session σ) : x.live role [] = x := rfl

@[simp] theorem live_cons (role : Role σ) (x : Session σ) (moment : Moment)
    (moments : List Moment) :
    x.live role (moment :: moments) = (x.next role moment).live role moments := rfl

@[simp] theorem live_append (role : Role σ) (x : Session σ) (moments more : List Moment) :
    x.live role (moments ++ more) = (x.live role moments).live role more :=
  List.foldl_append

theorem next_of_step {s : Surroundings} {p : σ}
    (h : role.activity.step x.surroundings x.run = some (s, p)) :
    x.next role .step = { surroundings := s, run := p } := by
  simp [next, h]

theorem next_of_rest (h : role.activity.step x.surroundings x.run = none) :
    x.next role .step = x := by
  simp [next, h]

/-! ### The same runs -/

theorem run_next (h : role.Run x events y) (moment : Moment) :
    role.Run x (events ++ moment.stimulus?.toList) (y.next role moment) := by
  cases moment with
  | arrival stimulus => exact h.change stimulus
  | step =>
    rw [Moment.stimulus?, Option.toList_none, List.append_nil]
    rcases hstep : role.activity.step y.surroundings y.run with _ | ⟨s, p⟩
    · rw [next_of_rest hstep]
      exact h
    · rw [next_of_step hstep]
      exact h.step hstep

theorem run_live (role : Role σ) (x : Session σ) (moments : List Moment) :
    role.Run x (moments.filterMap Moment.stimulus?) (x.live role moments) := by
  induction moments generalizing x with
  | nil => exact .start
  | cons moment moments ih =>
    have hrun := (run_next (.start : role.Run x [] x) moment).trans (ih (x.next role moment))
    cases moment <;> exact hrun

/-- Every run is a list of moments with the same arrivals. -/
theorem run_iff_live :
    role.Run x events y ↔
      ∃ moments, moments.filterMap Moment.stimulus? = events ∧ x.live role moments = y := by
  constructor
  · intro h
    induction h with
    | start => exact ⟨[], rfl, rfl⟩
    | change stimulus _ ih =>
      obtain ⟨moments, rfl, rfl⟩ := ih
      refine ⟨moments ++ [.arrival stimulus], ?_, ?_⟩
      · rw [List.filterMap_append]
        rfl
      · rw [live_append]
        rfl
    | step _ hstep ih =>
      obtain ⟨moments, rfl, rfl⟩ := ih
      refine ⟨moments ++ [.step], ?_, ?_⟩
      · rw [List.filterMap_append]
        exact List.append_nil _
      · rw [live_append]
        exact next_of_step hstep
  · rintro ⟨moments, rfl, rfl⟩
    exact run_live role x moments

/-- Enough steps in a row are a resumption. -/
theorem live_steps {n : Nat} (h : role.activity.weight x.surroundings x.run ≤ n) :
    x.live role (List.replicate n .step) = x.resume role := by
  -- a step of the loop and a moment without an arrival are the same
  have hsteps : ∀ (n : Nat) (x : Session σ), x.live role (List.replicate n .step) =
      { surroundings := (role.activity.steps n x.surroundings x.run).1
        run := (role.activity.steps n x.surroundings x.run).2 } := by
    intro n
    induction n with
    | zero => exact fun _ => rfl
    | succ n ih =>
      intro x
      rw [List.replicate_succ, live_cons, ih, Activity.steps]
      rcases hstep : role.activity.step x.surroundings x.run with _ | ⟨s, p⟩
      · rw [next_of_rest hstep, role.activity.steps_of_rest hstep]
      · rw [next_of_step hstep]
  rw [hsteps, resume, Activity.settle, role.activity.steps_congr h (Nat.le_refl _)]

/-! ### What is kept -/

/-- `x.Grew deeds y`: from `x` to `y` the deeds were done, and the writer counted them. -/
structure Grew (x : Session σ) (deeds : Trace) (y : Session σ) : Prop where
  history_eq : y.surroundings.history = x.surroundings.history ++ deeds
  limit_eq : y.surroundings.writer.limit = x.surroundings.writer.limit
  written_eq : y.surroundings.writer.written =
    x.surroundings.writer.written + deeds.output.length
  within : ∀ {limit}, x.surroundings.writer.limit = some limit →
    x.surroundings.writer.written ≤ limit → y.surroundings.writer.written ≤ limit

theorem Grew.trans {z : Session σ} {deeds more : Trace} (h : x.Grew deeds y) (g : y.Grew more z) :
    x.Grew (deeds ++ more) z where
  history_eq := by rw [g.history_eq, h.history_eq, List.append_assoc]
  limit_eq := g.limit_eq.trans h.limit_eq
  written_eq := by
    rw [g.written_eq, h.written_eq, Trace.output_append, List.length_append, Nat.add_assoc]
  within hlimit hroom := g.within (h.limit_eq.trans hlimit) (h.within hlimit hroom)

theorem Grew.effects_eq {deeds : Trace} (h : x.Grew deeds y) :
    y.surroundings.effects = x.surroundings.effects ++ deeds.effects := by
  rw [Surroundings.effects, h.history_eq, Trace.effects, List.map_append]
  rfl

theorem Grew.deedsSince {s : Surroundings} {deeds : Trace} (h : x.Grew deeds y)
    (hs : x.surroundings.history = s.history) : y.deedsSince s = deeds :=
  deedsSince_eq (hs ▸ h.history_eq)

theorem Grew.of_eq (htrace : y.surroundings.trace = x.surroundings.trace)
    (hwriter : y.surroundings.writer = x.surroundings.writer) : x.Grew [] y where
  history_eq := by rw [Surroundings.history, htrace, List.append_nil, Surroundings.history]
  limit_eq := by rw [hwriter]
  written_eq := by rw [hwriter]; rfl
  within _ hroom := by rwa [hwriter]

/-- No stimulus does a deed. -/
theorem grew_change (x : Session σ) (role : Role σ) (stimulus : Stimulus) :
    x.Grew [] (x.change role stimulus) := by
  by_cases hrestart : stimulus = .restart
  · subst hrestart
    exact .of_eq rfl rfl
  · have hchanged : Changed stimulus x (x.change role stimulus) := x.changed_change hrestart
    exact .of_eq hchanged.trace_eq hchanged.writer_eq

end Session

open Session

def Role.after (role : Role σ) (s : Surroundings) (moments : List Moment) : Session σ :=
  (Session.start role s).live role moments

theorem Role.after_append (role : Role σ) (s : Surroundings) (moments more : List Moment) :
    role.after s (moments ++ more) = (role.after s moments).live role more :=
  List.foldl_append

theorem Trace.output_timed (now : Nat) (effects : List Effect) :
    Trace.output (effects.map fun effect => { time := now, effect }) =
      effects.flatMap Effect.written := by
  rw [Trace.output, List.flatMap_map]

theorem Surroundings.Acts.grew {effects : List Effect}
    (h : x.surroundings.Acts effects y.surroundings) :
    x.Grew (effects.map fun effect => { time := x.surroundings.now, effect }) y where
  history_eq := h.history_eq
  limit_eq := h.limit_eq
  written_eq := by rw [h.written_eq, Trace.output_timed]
  within := h.within

theorem Role.Acting.grew_next (hacting : role.Acting) (x : Session σ) (moment : Moment) :
    ∃ deeds, x.Grew deeds (x.next role moment) := by
  cases moment with
  | arrival stimulus => exact ⟨[], x.grew_change role stimulus⟩
  | step =>
    rcases hstep : role.activity.step x.surroundings x.run with _ | ⟨s, p⟩
    · rw [next_of_rest hstep]
      exact ⟨[], .of_eq rfl rfl⟩
    · rw [next_of_step hstep]
      obtain ⟨effects, hacts⟩ := hacting hstep
      exact ⟨_, hacts.grew⟩

theorem Role.Acting.grew_live (hacting : role.Acting) (x : Session σ) (moments : List Moment) :
    ∃ deeds, x.Grew deeds (x.live role moments) := by
  induction moments generalizing x with
  | nil => exact ⟨[], .of_eq rfl rfl⟩
  | cons moment moments ih =>
    obtain ⟨first, hfirst⟩ := hacting.grew_next x moment
    obtain ⟨later, hlater⟩ := ih (x.next role moment)
    exact ⟨first ++ later, hfirst.trans hlater⟩

theorem Role.Acting.grew_after (hacting : role.Acting) (s : Surroundings)
    (moments : List Moment) :
    (Session.start role s).Grew ((role.after s moments).deedsSince s) (role.after s moments) := by
  obtain ⟨deeds, hgrew⟩ := hacting.grew_live (Session.start role s) moments
  have hsince : (role.after s moments).deedsSince s = deeds := hgrew.deedsSince rfl
  rw [hsince]
  exact hgrew

/-- Where the loop rests whatever the surroundings are, only a restart moves the run. -/
theorem Session.live_of_rest (hrest : ∀ s, role.activity.step s x.run = none)
    (hrestart : .arrival .restart ∉ moments) :
    (x.live role moments).run = x.run ∧
      (x.live role moments).surroundings.history = x.surroundings.history := by
  induction moments generalizing x with
  | nil => exact ⟨rfl, rfl⟩
  | cons moment moments ih =>
    simp only [List.mem_cons, not_or] at hrestart
    have hnext : (x.next role moment).run = x.run ∧
        (x.next role moment).surroundings.history = x.surroundings.history := by
      cases moment with
      | arrival stimulus =>
        have hchanged : Changed stimulus x (x.change role stimulus) :=
          x.changed_change fun hsame => hrestart.1 (hsame ▸ rfl)
        exact ⟨hchanged.run_eq, congrArg Array.toList hchanged.trace_eq⟩
      | step => rw [next_of_rest (hrest _)]; exact ⟨rfl, rfl⟩
    have hrest' : ∀ s, role.activity.step s (x.next role moment).run = none := hnext.1 ▸ hrest
    obtain ⟨hrun, hhistory⟩ := ih hrest' hrestart.2
    exact ⟨hrun.trans hnext.1, hhistory.trans hnext.2⟩

end BrokerLoad

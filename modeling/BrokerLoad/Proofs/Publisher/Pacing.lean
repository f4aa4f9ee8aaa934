/-
  BrokerLoad/Proofs/Publisher/Pacing.lean
  =======================================
  The interval of a plan as a limit on the rate of its messages.

  After every answer the run pauses, and the pause is counted from the reading at which
  the answer was taken.  So what comes after a line or a call is due no earlier than a pause
  later (`Kept`), however late the answer came and however far the clock jumped.  A step
  keeps that (`Paced.move`), and the clock only adds to it (`Paced.later`).

  `rate_limited` reads off what this means for an observer: no two lines and no two calls
  are closer than their intervals, no time sees more of them than fit into it, and a
  resumption that comes late makes one call, not all that it missed.
-/
import BrokerLoad.Proofs.Publisher.Completion

namespace BrokerLoad

/-! ### Times -/

def Effect.deeds (effects : List Effect) (now : Nat) : Trace :=
  effects.map fun effect => { time := now, effect }

namespace Trace

def lineTimes (trace : Trace) : List Nat :=
  (trace.filter fun deed => !deed.effect.written.isEmpty).map (·.time)

variable (trace more : Trace)

theorem callTimes_append : callTimes (trace ++ more) = callTimes trace ++ callTimes more := by
  simp [callTimes]

theorem lineTimes_append : lineTimes (trace ++ more) = lineTimes trace ++ lineTimes more := by
  simp [lineTimes]

variable {trace more}

theorem time_of_mem_callTimes {effects : List Effect} {now time : Nat}
    (h : time ∈ callTimes (Effect.deeds effects now)) : time = now := by
  obtain ⟨deed, hdeed, rfl⟩ := List.mem_map.mp h
  obtain ⟨effect, -, rfl⟩ := List.mem_map.mp (List.mem_filter.mp hdeed).1
  rfl

theorem time_of_mem_lineTimes {effects : List Effect} {now time : Nat}
    (h : time ∈ lineTimes (Effect.deeds effects now)) : time = now := by
  obtain ⟨deed, hdeed, rfl⟩ := List.mem_map.mp h
  obtain ⟨effect, -, rfl⟩ := List.mem_map.mp (List.mem_filter.mp hdeed).1
  rfl

theorem length_callTimes (trace : Trace) : trace.callTimes.length = trace.calls.length := by
  induction trace with
  | nil => rfl
  | cons deed trace ih =>
    simp only [callTimes, calls, List.length_map] at ih ⊢
    cases hcall : deed.effect.call? <;> simp [hcall, ih]

end Trace

/-- From each of these readings to a later one there is the gap as often as it takes steps
    to get there. -/
def Spaced (gap : Nat) (times : List Nat) : Prop :=
  ∀ i j (hij : i < j) (hj : j < times.length), times[i] + (j - i) * gap ≤ times[j]

theorem spaced_of_pairwise {gap : Nat} {times : List Nat}
    (h : times.Pairwise fun earlier later => earlier + gap ≤ later) : Spaced gap times := by
  intro i j hij hj
  induction hij with
  | refl =>
    have hnext := List.pairwise_iff_getElem.mp h i (i + 1) (by omega) hj (Nat.lt_succ_self i)
    simpa using hnext
  | @step j hij ih =>
    have hij : i < j := hij
    have hbefore := ih (by omega)
    have hnext := List.pairwise_iff_getElem.mp h j (j + 1) (by omega) hj (Nat.lt_succ_self j)
    have hsteps : j + 1 - i = (j - i) + 1 := by omega
    rw [hsteps, Nat.add_mul, Nat.one_mul]
    simp only [Nat.succ_eq_add_one]
    omega

def within (start length : Nat) (times : List Nat) : List Nat :=
  times.filter fun time => start ≤ time ∧ time ≤ start + length

/-- No time holds more of them than its length allows. -/
theorem length_within_le {gap : Nat} {times : List Nat}
    (h : times.Pairwise fun earlier later => earlier + gap ≤ later) (hgap : 0 < gap)
    (start length : Nat) : (within start length times).length ≤ length / gap + 1 := by
  have hspaced : Spaced gap (within start length times) := spaced_of_pairwise (h.filter _)
  have hinside : ∀ time ∈ within start length times, start ≤ time ∧ time ≤ start + length := by
    intro time htime
    simpa using (List.mem_filter.mp htime).2
  -- of two or more readings the first and the last are the intervals apart, and both inside
  generalize within start length times = inside at hspaced hinside
  by_cases hmany : 1 < inside.length
  · have hlast := hspaced 0 (inside.length - 1) (by omega) (by omega)
    have hfrom := hinside _ (List.getElem_mem (l := inside) (n := 0) (by omega))
    have hto := hinside _ (List.getElem_mem (l := inside) (n := inside.length - 1) (by omega))
    have hfits : (inside.length - 1) * gap ≤ length := by
      rw [Nat.sub_zero] at hlast
      omega
    have hcount := (Nat.le_div_iff_mul_le hgap).mpr hfits
    omega
  · exact Nat.le_trans (Nat.le_of_not_lt hmany) (Nat.le_add_left _ _)

namespace Publisher

variable {plan : Plan} {s t : Surroundings} {p q : Publisher} {x : Session Publisher}
  {events : List Stimulus} {now now' : Nat} {times : List Nat}

/-! ### What is due when -/

/-- Lines or calls were done at these times up to now, each a pause after the one before it,
    and from the reading `due` on there may be another one, if it is said. -/
structure Kept (plan : Plan) (now : Nat) (due : Option Nat) (times : List Nat) : Prop where
  apart : times.Pairwise fun earlier later => earlier + plan.interval ≤ later
  past : ∀ time ∈ times, time ≤ now
  rested : ∀ reading, due = some reading → ∀ time ∈ times, time + plan.interval ≤ reading

theorem Kept.nil {due : Option Nat} : Kept plan now due [] where
  apart := .nil
  past := List.forall_mem_nil _
  rested _ _ := List.forall_mem_nil _

theorem Kept.mono {due due' : Option Nat} (h : Kept plan now due times) (hle : now ≤ now')
    (hdue : ∀ reading', due' = some reading' → ∃ reading, due = some reading ∧
      reading ≤ reading') : Kept plan now' due' times where
  apart := h.apart
  past time htime := Nat.le_trans (h.past time htime) hle
  rested := by
    intro reading' hreading' time htime
    obtain ⟨reading, hreading, hle⟩ := hdue reading' hreading'
    exact Nat.le_trans (h.rested reading hreading time htime) hle

theorem Kept.forget {due : Option Nat} (h : Kept plan now due times) : Kept plan now none times :=
  h.mono (Nat.le_refl _) nofun

/-- What is due now is done. -/
theorem Kept.add (h : Kept plan now (some now) times) :
    Kept plan now none (times ++ [now]) where
  apart := by
    rw [List.pairwise_append]
    refine ⟨h.apart, List.pairwise_singleton _ _, ?_⟩
    intro earlier hearlier later hlater
    obtain rfl := List.mem_singleton.mp hlater
    exact h.rested _ rfl earlier hearlier
  past := by
    intro time htime
    rcases List.mem_append.mp htime with hbefore | hlast
    · exact h.past time hbefore
    · exact Nat.le_of_eq (List.mem_singleton.mp hlast)
  rested := nofun

/-- The pause begins. -/
theorem Kept.pause {due : Option Nat} (h : Kept plan now due times) :
    Kept plan now (some (now + plan.interval)) times where
  apart := h.apart
  past := h.past
  rested := by
    intro reading hreading time htime
    obtain rfl := Option.some.inj hreading
    exact Nat.add_le_add_right (h.past time htime) plan.interval

/-- The reading from which on the run may write its next line, unless one is without an
    answer yet. -/
def Phase.lineDue (now : Nat) : Phase → Option Nat
  | .between => some now
  | .pausing deadline => some deadline
  | _ => none

def Phase.callDue (now : Nat) : Phase → Option Nat
  | .written => some now
  | phase => phase.lineDue now

structure Paced (plan : Plan) (deeds : Trace) (now : Nat) (p : Publisher) : Prop where
  lines : Kept plan now (p.phase.lineDue now) deeds.lineTimes
  calls : Kept plan now (p.phase.callDue now) deeds.callTimes

theorem Paced.later {deeds : Trace} (h : Paced plan deeds now p) (hle : now ≤ now') :
    Paced plan deeds now' p := by
  have hlines := h.lines
  have hcalls := h.calls
  constructor
  · cases hphase : p.phase <;> rw [hphase] at hlines <;> apply hlines.mono hle <;>
      simp [Phase.lineDue, hle]
  · cases hphase : p.phase <;> rw [hphase] at hcalls <;> apply hcalls.mono hle <;>
      simp [Phase.callDue, Phase.lineDue, hle]

theorem lineTimes_complaint (answer : Answer) :
    Trace.lineTimes (Effect.deeds (answer.complaint .publishRejected) now) = [] := by
  cases answer <;> rfl

theorem callTimes_complaint (answer : Answer) :
    Trace.callTimes (Effect.deeds (answer.complaint .publishRejected) now) = [] := by
  cases answer <;> rfl

theorem Paced.append {deeds : Trace} {effects : List Effect} {lines calls : List Nat}
    (hlines : Trace.lineTimes (Effect.deeds effects now) = lines)
    (hcalls : Trace.callTimes (Effect.deeds effects now) = calls)
    (hline : Kept plan now (p.phase.lineDue now) (deeds.lineTimes ++ lines))
    (hcall : Kept plan now (p.phase.callDue now) (deeds.callTimes ++ calls)) :
    Paced plan (deeds ++ Effect.deeds effects now) now p := by
  constructor
  · rwa [Trace.lineTimes_append, hlines]
  · rwa [Trace.callTimes_append, hcalls]

theorem Paced.move {deeds : Trace} (h : Paced plan deeds s.now p) (hmove : Move plan s p t q) :
    ∃ effects, s.Acts effects t ∧ Paced plan (deeds ++ Effect.deeds effects s.now) s.now q := by
  have hlines : Kept plan s.now (p.phase.lineDue s.now) (deeds.lineTimes ++ []) := by
    rw [List.append_nil]
    exact h.lines
  have hcalls : Kept plan s.now (p.phase.callDue s.now) (deeds.callTimes ++ []) := by
    rw [List.append_nil]
    exact h.calls
  cases hmove with
  | interrupt _ _ hacts => exact ⟨_, hacts, .append rfl rfl hlines.forget hcalls.forget⟩
  | announce hphase _ _ hacts =>
    -- between two messages a line is due, whole or cut
    have hline := h.lines
    rw [hphase] at hline hcalls
    have hwritten : Trace.lineTimes
        (Effect.deeds [.wrote (plan.announcement (p.number.toNat + 1))] s.now) = [s.now] := by
      simp [Trace.lineTimes, Effect.deeds, Effect.written, plan.announcement_ne_nil]
    exact ⟨_, hacts, .append hwritten rfl hline.add hcalls⟩
  | cut octets hphase _ _ _ _ _ hacts =>
    have hline := h.lines
    rw [hphase] at hline
    cases octets with
    | nil => exact ⟨_, hacts, .append rfl rfl hlines.forget hcalls.forget⟩
    | cons octet octets => exact ⟨_, hacts, .append rfl rfl hline.add hcalls.forget⟩
  | complete _ _ ht =>
    exact ⟨[], ht ▸ .refl s, .append rfl rfl hlines.forget hcalls.forget⟩
  | await hphase _ _ hacts =>
    have hcall := h.calls
    rw [hphase] at hcall
    exact ⟨_, hacts, .append rfl rfl hlines.forget hcall.add⟩
  | submit answer hphase _ _ hacts =>
    have hcall := h.calls
    rw [hphase] at hcall
    have hwritten := @lineTimes_complaint s.now answer
    have hmade : Trace.callTimes (Effect.deeds (.called (plan.submission p.number.toNat) ::
        answer.complaint .publishRejected) s.now) = [s.now] :=
      congrArg (s.now :: ·) (callTimes_complaint answer)
    exact ⟨_, hacts, .append hwritten hmade hlines.pause hcall.add.pause⟩
  | conclude answer _ _ _ hacts =>
    exact ⟨_, hacts, .append (lineTimes_complaint answer) (callTimes_complaint answer)
      hlines.pause hcalls.pause⟩
  | proceed deadline hphase _ hover ht =>
    -- the deadline is reached, so what was due then is due now
    rw [hphase] at hlines hcalls
    refine ⟨[], ht ▸ .refl s, .append rfl rfl ?_ ?_⟩
    · apply hlines.mono (Nat.le_refl _)
      simp [Phase.lineDue, hover]
    · apply hcalls.mono (Nat.le_refl _)
      simp [Phase.callDue, Phase.lineDue, hover]

/-! ### Whole runs -/

theorem paced_run (h : (role plan).Run (Session.start (role plan) s) events x)
    (hrestart : Stimulus.restart ∉ events) :
    ∃ deeds, x.surroundings.history = s.history ++ deeds ∧
      Paced plan deeds x.surroundings.now x.run := by
  induction h with
  | start => exact ⟨[], (List.append_nil _).symm, .nil, .nil⟩
  | @change events z stimulus _ ih =>
    simp only [List.mem_append, List.mem_singleton, not_or] at hrestart
    obtain ⟨deeds, hhistory, hpaced⟩ := ih hrestart.1
    have hchanged : Session.Changed stimulus z (z.change (role plan) stimulus) :=
      z.changed_change (Ne.symm hrestart.2)
    refine ⟨deeds, ?_, ?_⟩
    · rw [← hhistory, Surroundings.history, hchanged.trace_eq]
      rfl
    · rw [hchanged.run_eq]
      exact hpaced.later (z.now_le_change (role plan) stimulus)
  | @step events z t q _ hstep ih =>
    obtain ⟨deeds, hhistory, hpaced⟩ := ih hrestart
    obtain ⟨effects, hacts, hpaced'⟩ := hpaced.move (move_of_step hstep)
    refine ⟨deeds ++ Effect.deeds effects z.surroundings.now, ?_, ?_⟩
    · rw [hacts.history_eq, hhistory, List.append_assoc]
      rfl
    · rw [hacts.now_eq]
      exact hpaced'

theorem spaced_run (h : (role plan).Run (Session.start (role plan) s) events x)
    (hrestart : Stimulus.restart ∉ events) :
    ((x.deedsSince s).lineTimes.Pairwise fun earlier later => earlier + plan.interval ≤ later) ∧
      (x.deedsSince s).callTimes.Pairwise fun earlier later =>
        earlier + plan.interval ≤ later := by
  obtain ⟨deeds, hhistory, hpaced⟩ := paced_run h hrestart
  rw [Session.deedsSince_eq hhistory]
  exact ⟨hpaced.lines.apart, hpaced.calls.apart⟩

/-! ### Pauses -/

/-- The next step of the run takes this answer to the call of the message in hand. -/
def Takes (s : Surroundings) (p : Publisher) (answer : Answer) : Prop :=
  s.signal.raised = false ∧
    (p.phase = .written ∧ s.link.atOnce (s.link.made + 1) = some answer ∨
      p.phase = .calling ∧ s.link.answer = some answer)

/-- Where a run pauses, all it did since it took the answer to its last call it did at the
    reading of that moment, and the pause counts from there. -/
theorem pause_from_answer (h : (role plan).Run (Session.start (role plan) s) events x)
    (hrestart : Stimulus.restart ∉ events) {deadline : Nat}
    (hphase : x.run.phase = .pausing deadline) :
    ∃ before after z answer, events = before ++ after ∧
      (role plan).Run (Session.start (role plan) s) before z ∧ (role plan).Run z after x ∧
      Takes z.surroundings z.run answer ∧ x.run = z.run.counted plan z.surroundings.now ∧
      ∃ effects, x.surroundings.history =
        z.surroundings.history ++ Effect.deeds effects z.surroundings.now := by
  induction h with
  | start => cases hphase
  | @change events z stimulus _ ih =>
    simp only [List.mem_append, List.mem_singleton, not_or] at hrestart
    have hchanged : Session.Changed stimulus z (z.change (role plan) stimulus) :=
      z.changed_change (Ne.symm hrestart.2)
    have hhistory : (z.change (role plan) stimulus).surroundings.history =
        z.surroundings.history := congrArg Array.toList hchanged.trace_eq
    rw [hchanged.run_eq] at hphase ⊢
    rw [hhistory]
    obtain ⟨before, after, y, answer, rfl, hbefore, hafter, htakes⟩ := ih hrestart.1 hphase
    exact ⟨before, after ++ [stimulus], y, answer, List.append_assoc _ _ _, hbefore,
      hafter.change stimulus, htakes⟩
  | @step events z t q hrun hstep _ =>
    have hlast : (role plan).Run z [] { surroundings := t, run := q } := Role.Run.start.step hstep
    cases move_of_step hstep with
    -- only a step that takes an answer begins a pause
    | submit answer hwritten hdown hatOnce hacts =>
      exact ⟨events, [], z, answer, (List.append_nil _).symm, hrun, hlast,
        ⟨hdown, .inl ⟨hwritten, hatOnce⟩⟩, rfl, _, hacts.history_eq⟩
    | conclude answer hcalling hdown hanswer hacts =>
      exact ⟨events, [], z, answer, (List.append_nil _).symm, hrun, hlast,
        ⟨hdown, .inr ⟨hcalling, hanswer⟩⟩, rfl, _, hacts.history_eq⟩
    | _ => cases hphase

/-- The pause of a run that is in one: it began when the answer to the last call was taken,
    which is no earlier than any call, and it is over an interval after that. -/
structure PauseFromAnswer (plan : Plan) (s : Surroundings) (x z : Session Publisher)
    (deadline : Nat) : Prop where
  takes : ∃ answer, Takes z.surroundings z.run answer
  counted : x.run = z.run.counted plan z.surroundings.now
  called : ∀ time ∈ (x.deedsSince s).callTimes, time ≤ z.surroundings.now
  deadline_eq : deadline = z.surroundings.now + plan.interval

theorem pauseFromAnswer_run (h : (role plan).Run (Session.start (role plan) s) events x)
    (hrestart : Stimulus.restart ∉ events) {deadline : Nat}
    (hphase : x.run.phase = .pausing deadline) :
    ∃ before after z, events = before ++ after ∧
      (role plan).Run (Session.start (role plan) s) before z ∧ (role plan).Run z after x ∧
      PauseFromAnswer plan s x z deadline := by
  obtain ⟨before, after, z, answer, rfl, hbefore, hafter, htakes, hcounted, effects, hhistory⟩ :=
    pause_from_answer h hrestart hphase
  simp only [List.mem_append, not_or] at hrestart
  obtain ⟨deeds, hdeeds, hpaced⟩ := paced_run hbefore hrestart.1
  have hsince : x.deedsSince s = deeds ++ Effect.deeds effects z.surroundings.now := by
    apply Session.deedsSince_eq
    rw [hhistory, hdeeds, List.append_assoc]
  refine ⟨before, after, z, rfl, hbefore, hafter, ⟨answer, htakes⟩, hcounted, ?_, ?_⟩
  · intro time htime
    rw [hsince, Trace.callTimes_append] at htime
    -- the calls up to the answer are past, and what came after it was done at its reading
    rcases List.mem_append.mp htime with hearlier | hthen
    · exact hpaced.calls.past time hearlier
    · exact Nat.le_of_eq (Trace.time_of_mem_callTimes hthen)
  · rw [hcounted] at hphase
    cases hphase
    rfl

/-! ### Bursts -/

/-- Of what is that far apart, one reading of the clock sees one. -/
theorem length_le_of_now {gap : Nat} {added : List Nat} (hgap : 0 < gap)
    (hspaced : (times ++ added).Pairwise fun earlier later => earlier + gap ≤ later)
    (hadded : ∀ time ∈ added, time = now) : (times ++ added).length ≤ times.length + 1 := by
  -- a time of length zero holds all that was added
  have hall : within now 0 added = added := by
    apply List.filter_eq_self.mpr
    intro time htime
    simp [hadded time htime]
  have hcount := length_within_le (List.pairwise_append.mp hspaced).2.1 hgap now 0
  rw [hall, Nat.zero_div] at hcount
  rw [List.length_append]
  omega

theorem burst_run (h : (role plan).Run (Session.start (role plan) s) events x)
    (hrestart : Stimulus.restart ∉ events) (hinterval : 0 < plan.interval) :
    ((x.resume (role plan)).deedsSince s).calls.length ≤ (x.deedsSince s).calls.length + 1 ∧
      ((x.resume (role plan)).deedsSince s).lineTimes.length ≤
        (x.deedsSince s).lineTimes.length + 1 := by
  obtain ⟨effects, hacts⟩ := Role.Acting.resume (acting plan) x
  obtain ⟨deeds, hdeeds, -⟩ := paced_run h hrestart
  -- a resumption does all it does at one reading
  have hsince : (x.resume (role plan)).deedsSince s =
      x.deedsSince s ++ Effect.deeds effects x.surroundings.now := by
    rw [Session.deedsSince_eq hdeeds]
    apply Session.deedsSince_eq
    rw [hacts.history_eq, hdeeds, List.append_assoc]
    rfl
  obtain ⟨hlines, hcalls⟩ := spaced_run h.resume hrestart
  rw [hsince, Trace.callTimes_append] at hcalls
  rw [hsince, Trace.lineTimes_append] at hlines
  constructor
  · have hone := length_le_of_now hinterval hcalls fun _ => Trace.time_of_mem_callTimes
    rw [← Trace.callTimes_append, ← hsince] at hone
    rwa [Trace.length_callTimes, Trace.length_callTimes] at hone
  · have hone := length_le_of_now hinterval hlines fun _ => Trace.time_of_mem_lineTimes
    rwa [← Trace.lineTimes_append, ← hsince] at hone

/-- Let `x` be any state of a run, whatever the answers to its calls and the moves of the
    clock.

    From one call to a later one, and from one line to a later one, there are as many
    intervals as messages.  A pause counts from the reading at which the answer to the last
    call was taken.  If the interval is not zero, no time holds more calls or lines than
    intervals and one, and one resumption adds one call and one line at most. -/
theorem rate_limited (h : (role plan).Run (Session.start (role plan) s) events x)
    (hrestart : Stimulus.restart ∉ events) :
    let calls := (x.deedsSince s).callTimes
    let lines := (x.deedsSince s).lineTimes
    let resumed := (x.resume (role plan)).deedsSince s
    Spaced plan.interval calls ∧ Spaced plan.interval lines ∧
      (∀ deadline, x.run.phase = .pausing deadline → ∃ before after z, events = before ++ after ∧
        (role plan).Run (Session.start (role plan) s) before z ∧ (role plan).Run z after x ∧
        PauseFromAnswer plan s x z deadline) ∧
      (0 < plan.interval →
        (∀ start length, (within start length calls).length ≤ length / plan.interval + 1 ∧
          (within start length lines).length ≤ length / plan.interval + 1) ∧
        resumed.calls.length ≤ (x.deedsSince s).calls.length + 1 ∧
        resumed.lineTimes.length ≤ lines.length + 1) := by
  intro calls lines resumed
  obtain ⟨hlines, hcalls⟩ := spaced_run h hrestart
  refine ⟨spaced_of_pairwise hcalls, spaced_of_pairwise hlines, ?_, ?_⟩
  · intro deadline hphase
    exact pauseFromAnswer_run h hrestart hphase
  · intro hinterval
    refine ⟨?_, burst_run h hrestart hinterval⟩
    intro start length
    exact ⟨length_within_le hcalls hinterval start length,
      length_within_le hlines hinterval start length⟩

/-- The first answer comes a hundred milliseconds late, and the clock jumps over ten
    intervals before the run is resumed: there is one call for it, and not ten. -/
theorem rate_limited_after_jump :
    let plan : Plan := { topic := "t", count := 100, interval := 5, qos := .exactlyOnce }
    let s : Surroundings := { link := .deferred }
    let events : List Stimulus :=
      [.advance 100, .resolve (.refused "full"), .advance 3, .advance 50]
    let x := ((((Session.start (role plan) s).resume (role plan)).react (role plan)
      (.advance 100)).react (role plan) (.resolve (.refused "full"))).change (role plan)
        (.advance 3) |>.change (role plan) (.advance 50)
    let y := x.resume (role plan)
    (role plan).Run (Session.start (role plan) s) events x ∧ Stimulus.restart ∉ events ∧
      x.surroundings.now = 153 ∧ x.run.phase = .pausing 105 ∧
      (∃ before after z, events = before ++ after ∧
        (role plan).Run (Session.start (role plan) s) before z ∧ (role plan).Run z after x ∧
        PauseFromAnswer plan s x z 105) ∧
      (y.deedsSince s).callTimes = [0, 153] ∧ (y.deedsSince s).calls.length ≤ 1 + 1 := by
  intro plan s events x y
  have hrun : (role plan).Run (Session.start (role plan) s) events x :=
    (((Role.Run.start.resume.react _).react _).change _).change _
  have hrestart : Stimulus.restart ∉ events := by decide
  have hnow : x.surroundings.now = 153 := by decide
  have hphase : x.run.phase = .pausing 105 := by decide
  obtain ⟨-, -, hpause, hbursts⟩ := rate_limited hrun hrestart
  obtain ⟨-, hone, -⟩ := hbursts (by decide)
  have hcalls : (x.deedsSince s).calls.length = 1 := by decide
  rw [hcalls] at hone
  exact ⟨hrun, hrestart, hnow, hphase, hpause 105 hphase, by decide, hone⟩

end Publisher

end BrokerLoad

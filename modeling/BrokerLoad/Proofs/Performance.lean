/-
  BrokerLoad/Proofs/Performance.lean
  ==================================
  What the range of a timer does to a session that is performed on it.

  Where the run rests, the clock may skip, and that is all: to perform a script is to play
  another one, in which the skips are written out (`report_of_performAll`).  A script that is
  played stays inside `Role.Run`, and inside `Role.Played` if it has no restart, so what holds
  there holds of every performance.

  Within the range of the timer nothing is skipped.  If the interval of a plan, and a script
  together with one more interval, fit into it, then the script leads a publisher run to the
  session that it leads to without a timer (`performed_eq_played`).
-/
import BrokerLoad.Proofs.Publisher.Completion
import Mathlib.Algebra.GroupWithZero.Nat

namespace BrokerLoad

namespace Session

variable {σ : Type} {role : Role σ}

/-! ### Steps on a timer -/

section Timed

variable {x : Session σ} {shown : Nat}

theorem timedStep_of_step {s : Surroundings} {p : σ}
    (h : role.activity.step x.surroundings x.run = some (s, p)) :
    (timed role).step shown x = some (shown, { surroundings := s, run := p }) := by
  simp only [timed, timedStep, h]

theorem timedStep_of_rests (h : role.Rests x) :
    (timed role).step shown x = if x.excess role shown = 0 then none
      else some (shown, x.change role (.advance (x.excess role shown))) := by
  unfold Role.Rests at h
  simp only [timed, timedStep, h]

/-- A resumption on a timer begins like one without. -/
theorem settle_resume (role : Role σ) (shown : Nat) (x : Session σ) :
    (timed role).settle shown x = (timed role).settle shown (x.resume role) := by
  generalize hweight : role.activity.weight x.surroundings x.run = w
  -- as long as the run does not rest, both take the same steps
  induction w using Nat.strongRecOn generalizing x with
  | ind w ih =>
    rcases hstep : role.activity.step x.surroundings x.run with _ | ⟨s, p⟩
    · rw [resume_of_rests hstep]
    · rw [resume_of_step hstep, (timed role).settle_of_step (timedStep_of_step hstep)]
      exact ih _ (hweight ▸ role.activity.weight_step hstep) _ rfl

/-- Where nothing is to skip, the resumption is over. -/
theorem settle_of_excess_eq_zero (h : (x.resume role).excess role shown = 0) :
    (timed role).settle shown x = (shown, x.resume role) := by
  have hrest : (timed role).step shown (x.resume role) = none := by
    rw [timedStep_of_rests (rests_resume role x), if_pos h]
  rw [settle_resume, (timed role).settle_of_rest hrest]

theorem timedWeight_resume_le (role : Role σ) (shown : Nat) (x : Session σ) :
    (x.resume role).timedWeight role shown ≤ x.timedWeight role shown :=
  role.activity.settle_induction
    (motive := fun s p => timedWeight role shown { surroundings := s, run := p } ≤
      x.timedWeight role shown)
    (fun _ _ _ _ hle hstep =>
      Nat.le_trans (Nat.le_of_lt (timedWeight_step role (timedStep_of_step hstep))) hle)
    (Nat.le_refl _)

end Timed

/-! ### Performances as plays -/

namespace Performance

/-- The session of a performance is where a script leads `x` that brings stimuli of this
    kind. -/
def Follows (role : Role σ) (kind : Stimulus → Prop) (x : Session σ) (y : Performance σ) :
    Prop :=
  ∃ cues : List Cue, (∀ cue ∈ cues, cue.Brings kind) ∧
    y.session = cues.foldl (Session.play role) x

variable {kind : Stimulus → Prop} {x : Session σ} {y z : Performance σ}

theorem Follows.start (role : Role σ) (kind : Stimulus → Prop) (y : Performance σ) :
    Follows role kind y.session y :=
  ⟨[], List.forall_mem_nil _, rfl⟩

theorem Follows.extend (h : Follows role kind x y) (cue : Cue) (hcue : cue.Brings kind)
    (hz : z.session = y.session.play role cue) : Follows role kind x z := by
  obtain ⟨cues, hcues, hy⟩ := h
  refine ⟨cues ++ [cue], ?_, ?_⟩
  · exact List.forall_mem_append.mpr ⟨hcues, List.forall_mem_singleton.mpr hcue⟩
  · rw [hz, hy, List.foldl_append]
    rfl

variable (hadvance : ∀ ms, kind (.advance ms))

include hadvance

theorem Follows.change (h : Follows role kind x y) {stimulus : Stimulus}
    (hkind : kind stimulus) : Follows role kind x (y.change role stimulus) := by
  cases stimulus with
  | advance ms => exact h.extend (.stimulus (.advance _) true) (hadvance _) rfl
  | _ => exact h.extend (.stimulus _ true) hkind rfl

/-- From a session that has been resumed on, every skip is an advance with a resumption. -/
theorem Follows.settle (shown : Nat) {resumed : Session σ} (hrests : role.Rests resumed)
    (h : Follows role kind x { session := resumed, shown }) :
    Follows role kind x
      { session := ((timed role).settle shown resumed).2, shown } := by
  generalize hweight : resumed.timedWeight role shown = w
  -- the weight of the timed loop goes down at each skip, so there are only so many of them
  induction w using Nat.strongRecOn generalizing resumed with
  | ind w ih =>
    by_cases hexcess : resumed.excess role shown = 0
    · have hrest : (timed role).step shown resumed = none := by
        rw [timedStep_of_rests hrests, if_pos hexcess]
      rwa [(timed role).settle_of_rest hrest]
    · let skipped := resumed.change role (.advance (resumed.excess role shown))
      have hskip : (timed role).step shown resumed = some (shown, skipped) := by
        rw [timedStep_of_rests hrests, if_neg hexcess]
      have hlighter : (skipped.resume role).timedWeight role shown < w :=
        Nat.lt_of_le_of_lt (timedWeight_resume_le role shown skipped)
          (hweight ▸ timedWeight_step role hskip)
      rw [(timed role).settle_of_step hskip, settle_resume]
      refine ih _ hlighter (rests_resume role skipped) ?_ rfl
      exact h.extend (.stimulus (.advance _) false) (hadvance _) rfl

theorem Follows.resume (h : Follows role kind x y) : Follows role kind x (y.resume role) := by
  unfold Performance.resume
  rw [settle_resume]
  refine Follows.settle hadvance y.shown (rests_resume role y.session) ?_
  exact h.extend (.run 0) (hadvance 1) rfl

theorem Follows.tick (h : Follows role kind x y) (ms : Nat) :
    Follows role kind x (y.tick role ms) := by
  induction ms generalizing y with
  | zero => exact h
  | succ ms ih =>
    unfold Performance.tick
    split
    · exact h
    · exact ih ((h.change hadvance (hadvance 1)).resume hadvance)

theorem Follows.play (h : Follows role kind x y) {cue : Cue} (hcue : cue.Brings kind) :
    Follows role kind x (y.play role cue) := by
  rcases cue with ⟨stimulus, _ | _⟩ | ms
  · exact (h.change hadvance hcue).resume hadvance
  · exact h.change hadvance hcue
  · exact (h.resume hadvance).tick hadvance ms

theorem report_of_mem {cues : List Cue} (hcues : ∀ cue ∈ cues, cue.Brings kind)
    (h : Follows role kind x y) {report : Report σ} (hreport : report ∈ y.performAll role cues) :
    ∃ z w : Performance σ, Follows role kind x z ∧ Follows role kind z.session w ∧
      report.deeds = w.session.deedsSince z.session.surroundings ∧
      report.run = w.session.run := by
  induction cues generalizing y with
  | nil => exact absurd hreport List.not_mem_nil
  | cons cue cues ih =>
    rcases List.mem_cons.mp hreport with rfl | hlater
    · have hcue := hcues cue List.mem_cons_self
      have hplay := (Follows.start role kind y).play hadvance hcue
      exact ⟨y, y.play role cue, h, hplay, rfl, rfl⟩
    · exact ih (fun later hmem => hcues later (List.mem_cons_of_mem _ hmem))
        (h.play hadvance (hcues cue List.mem_cons_self)) hlater

end Performance

/-- Every report of a script that is performed from `x` on is one of a script that is played
    from `x` on: it tells what the last part of that did, and where the run was then.  The
    script that is played brings what the performed one brings, and advances of the clock. -/
theorem report_of_performAll {kind : Stimulus → Prop} (hadvance : ∀ ms, kind (.advance ms))
    {cues : List Cue} (hcues : ∀ cue ∈ cues, cue.Brings kind) {x : Session σ}
    {report : Report σ} (hreport : report ∈ x.performAll role cues) :
    ∃ earlier last : List Cue, (∀ cue ∈ earlier ++ last, cue.Brings kind) ∧
      let y := earlier.foldl (Session.play role) x
      let z := last.foldl (Session.play role) y
      report.deeds = z.deedsSince y.surroundings ∧ report.run = z.run := by
  obtain ⟨y, z, ⟨earlier, hearlier, hy⟩, ⟨last, hlast, hz⟩, hdeeds, hrun⟩ :=
    Performance.report_of_mem hadvance hcues (Performance.Follows.start role kind _) hreport
  refine ⟨earlier, last, List.forall_mem_append.mpr ⟨hearlier, hlast⟩, ?_⟩
  rw [hz] at hdeeds hrun
  rw [hy] at hdeeds hrun
  exact ⟨hdeeds, hrun⟩

/-! ### Within the range -/

/-- No pause of a run from `x` is longer than this. -/
def PausesAtMost (role : Role σ) (gap : Nat) (x : Session σ) : Prop :=
  ∀ events y, role.Run x events y →
    ∀ deadline, role.deadline? y.run = some deadline → deadline ≤ y.surroundings.now + gap

def Cue.duration : Cue → Nat
  | .stimulus (.advance ms) _ => ms
  | .stimulus _ _ => 0
  | .run ms => ms

namespace Performance

/-- The session of a performance is a state of a run from `x`, whose pauses the timer can
    tell, and the timer has time left for this much more and another pause. -/
structure Ample (role : Role σ) (gap : Nat) (x : Session σ) (left : Nat) (y : Performance σ) :
    Prop where
  pauses : PausesAtMost role gap x
  tells : gap ≤ Timer.longest
  run : ∃ events, role.Run x events y.session
  lasts : y.shown + left + gap ≤ Timer.last

variable {gap left : Nat} {x : Session σ} {y : Performance σ}

theorem Ample.mono (h : Ample role gap x left y) {less : Nat} (hle : less ≤ left) :
    Ample role gap x less y := by
  have hlasts := h.lasts
  exact ⟨h.pauses, h.tells, h.run, by omega⟩

theorem Ample.resume (h : Ample role gap x left y) :
    (y.resume role).session = y.session.resume role ∧ Ample role gap x left (y.resume role) := by
  obtain ⟨events, hrun⟩ := h.run
  have hlasts := h.lasts
  -- no pause is too long for the timer, so there is nothing to skip
  have hnone : (y.session.resume role).excess role y.shown = 0 := by
    unfold excess
    split
    · rename_i deadline hdeadline
      have hpause := h.pauses _ _ hrun.resume deadline hdeadline
      have hreach := Timer.le_reach h.tells (show y.shown + gap ≤ Timer.last by omega)
      omega
    · rfl
  have hsession : (y.resume role).session = y.session.resume role :=
    congrArg Prod.snd (settle_of_excess_eq_zero hnone)
  exact ⟨hsession, h.pauses, h.tells, ⟨events, hsession ▸ hrun.resume⟩, hlasts⟩

theorem Ample.advance {ms : Nat} (h : Ample role gap x (ms + left) y) :
    (y.change role (.advance ms)).session = y.session.change role (.advance ms) ∧
      Ample role gap x left (y.change role (.advance ms)) := by
  obtain ⟨events, hrun⟩ := h.run
  have hlasts := h.lasts
  have hshown : Timer.after y.shown ms = y.shown + ms := Timer.after_eq_add (by omega)
  have hsession : (y.change role (.advance ms)).session =
      y.session.change role (.advance ms) := by
    simp only [Performance.change, hshown, Nat.add_sub_cancel_left]
  refine ⟨hsession, h.pauses, h.tells, ⟨_, hsession ▸ hrun.change (.advance ms)⟩, ?_⟩
  simp only [Performance.change, hshown]
  omega

theorem Ample.change {stimulus : Stimulus} {held : Bool}
    (h : Ample role gap x ((Cue.stimulus stimulus held).duration + left) y) :
    (y.change role stimulus).session = y.session.change role stimulus ∧
      Ample role gap x left (y.change role stimulus) := by
  obtain ⟨events, hrun⟩ := h.run
  -- only an advance moves the timer
  have hsame : ∀ {z : Performance σ}, z.session = y.session.change role stimulus →
      z.shown = y.shown →
      z.session = y.session.change role stimulus ∧ Ample role gap x left z := by
    intro z hsession hshown
    have hrest := h.mono (Nat.le_add_left left _)
    exact ⟨hsession, h.pauses, h.tells, ⟨_, hsession ▸ hrun.change stimulus⟩,
      hshown ▸ hrest.lasts⟩
  cases stimulus with
  | advance ms => exact h.advance
  | _ => exact hsame rfl rfl

theorem Ample.tick {n : Nat} (h : Ample role gap x (n + left) y) :
    (y.tick role n).session = y.session.tick role n ∧ Ample role gap x left (y.tick role n) := by
  induction n generalizing y with
  | zero => exact ⟨rfl, h.mono (Nat.le_add_left left 0)⟩
  | succ n ih =>
    by_cases hover : role.isOver y.session.run = true
    · simp only [Performance.tick, Session.tick, hover, if_true, true_and]
      exact h.mono (Nat.le_add_left left _)
    · -- each tick is an advance by one and a resumption, and both are as without a timer
      have hnext : Ample role gap x (1 + (n + left)) y := h.mono (by omega)
      obtain ⟨hchange, hchanged⟩ := hnext.advance
      obtain ⟨hresume, hresumed⟩ := hchanged.resume
      obtain ⟨htick, hticked⟩ := ih hresumed
      simp only [Performance.tick, Session.tick, hover, if_false, Bool.false_eq_true]
      refine ⟨htick.trans ?_, hticked⟩
      rw [hresume, hchange]
      rfl

theorem Ample.play {cue : Cue} (h : Ample role gap x (cue.duration + left) y) :
    (y.play role cue).session = y.session.play role cue ∧
      Ample role gap x left (y.play role cue) := by
  rcases cue with ⟨stimulus, _ | _⟩ | ms
  · obtain ⟨hchange, hchanged⟩ := h.change
    obtain ⟨hresume, hresumed⟩ := hchanged.resume
    refine ⟨hresume.trans ?_, hresumed⟩
    rw [hchange]
    rfl
  · exact h.change
  · obtain ⟨hresume, hresumed⟩ := h.resume
    obtain ⟨htick, hticked⟩ := hresumed.tick
    refine ⟨htick.trans ?_, hticked⟩
    rw [hresume]
    rfl

theorem Ample.foldl_play {cues : List Cue}
    (h : Ample role gap x ((cues.map Cue.duration).sum + left) y) :
    (cues.foldl (Performance.play role) y).session =
      cues.foldl (Session.play role) y.session := by
  induction cues generalizing y with
  | nil => rfl
  | cons cue cues ih =>
    rw [List.map_cons, List.sum_cons, Nat.add_assoc] at h
    obtain ⟨hplay, hplayed⟩ := h.play
    rw [List.foldl_cons, List.foldl_cons, ih hplayed, hplay]

end Performance

end Session

namespace Publisher

/-- No pause of a publisher run is longer than the interval of its plan. -/
theorem pausesAtMost_interval (plan : Plan) (s : Surroundings) :
    Session.PausesAtMost (role plan) plan.interval (Session.start (role plan) s) := by
  intro events y hrun deadline hdeadline
  apply deadline_le_add hrun
  cases hphase : y.run.phase <;> simp only [role, hphase] at hdeadline <;> cases hdeadline
  rfl

/-- A timer changes nothing for a plan whose interval it can tell, as long as it does not
    stand still. -/
theorem performed_eq_played {plan : Plan} (htells : plan.interval ≤ Timer.longest)
    {cues : List Session.Cue}
    (hlasts : (cues.map Session.Cue.duration).sum + plan.interval ≤ Timer.last)
    (s : Surroundings) :
    (cues.foldl (Session.Performance.play (role plan))
        { session := Session.start (role plan) s }).session =
      cues.foldl (Session.play (role plan)) (Session.start (role plan) s) := by
  have hstart : Session.Performance.Ample (role plan) plan.interval (Session.start (role plan) s)
      ((cues.map Session.Cue.duration).sum + 0) { session := Session.start (role plan) s } :=
    ⟨pausesAtMost_interval plan s, htells, ⟨[], .start⟩, by simpa using hlasts⟩
  exact hstart.foldl_play

end Publisher

end BrokerLoad

/-
  BrokerLoad/Proofs/Runs.lean
  ===========================
  The states that a session can get to, in two grains.

  `Role.Run` is the fine grain: the surroundings may change before every single
  step of the loop, also in the middle of a resumption, and the changes are listed.
  What holds along every `Run` holds under every interleaving.

  `Role.Played` is the coarse grain of a script: changes of the surroundings and
  whole resumptions.  Only the run itself (its octets, its calls) raises the signal
  in the middle of a resumption.  `Played.play` says that every script without a
  restart stays inside it, and `Played.run` that it is a special case of `Run`.
-/
import BrokerLoad.Proofs.Deeds
import BrokerLoad.Session

namespace BrokerLoad

variable {σ : Type} {role : Role σ}

/-! ### Arrivals -/

def Stimulus.arrival? : Stimulus → Option Notice
  | .notice arrived => some arrived
  | .event happened => Notice.ofEvent? happened
  | _ => none

/-- The notices that arrive before the inbox is closed, in order. -/
def Stimulus.arrivals (events : List Stimulus) : List Notice :=
  (events.takeWhile (· ≠ .close)).filterMap Stimulus.arrival?

theorem Stimulus.arrivals_append_singleton (events : List Stimulus) (stimulus : Stimulus) :
    Stimulus.arrivals (events ++ [stimulus]) =
      Stimulus.arrivals events ++ if .close ∈ events then [] else stimulus.arrival?.toList := by
  induction events with
  | nil =>
    by_cases hclose : stimulus = .close
    · simp [hclose, Stimulus.arrivals, Stimulus.arrival?]
    · cases harrival : stimulus.arrival? <;> simp [hclose, harrival, Stimulus.arrivals]
  | cons first events ih =>
    by_cases hclose : first = .close
    · simp [hclose, Stimulus.arrivals]
    · simp only [Stimulus.arrivals, ne_eq, decide_not] at ih
      cases harrival : first.arrival? <;>
        simp [Stimulus.arrivals, hclose, harrival, ih, Ne.symm hclose]

/-- As long as the inbox is not closed, every notice arrives. -/
theorem Stimulus.arrivals_eq_filterMap {events : List Stimulus} (h : .close ∉ events) :
    Stimulus.arrivals events = events.filterMap Stimulus.arrival? := by
  induction events with
  | nil => rfl
  | cons stimulus events ih =>
    simp only [List.mem_cons, not_or] at h
    have hlater := ih h.2
    simp only [Stimulus.arrivals] at hlater ⊢
    rw [List.takeWhile_cons_of_pos (by simpa using Ne.symm h.1), List.filterMap_cons,
      List.filterMap_cons, hlater]

/-- Stimuli that bring no notice add nothing to the arrivals. -/
theorem Stimulus.arrivals_append_of_silent (events : List Stimulus) {more : List Stimulus}
    (h : ∀ stimulus ∈ more, stimulus.arrival? = none) :
    Stimulus.arrivals (events ++ more) = Stimulus.arrivals events := by
  induction more generalizing events with
  | nil => rw [List.append_nil]
  | cons stimulus more ih =>
    -- one stimulus after the other, whether the inbox is closed by then or not
    have hsilent := h stimulus List.mem_cons_self
    rw [List.append_cons, ih _ fun later hlater => h later (List.mem_cons_of_mem _ hlater),
      Stimulus.arrivals_append_singleton, hsilent]
    simp

namespace Inbox

def after (inbox : Inbox) : Stimulus → Inbox
  | .notice notice => inbox.put notice
  | .event event => (Notice.ofEvent? event).elim inbox inbox.put
  | .close => inbox.close
  | _ => inbox

/-- What an inbox has to hand out in all: what is unread, and what arrives while it is
    open. -/
def received (inbox : Inbox) (events : List Stimulus) : List Notice :=
  inbox.unread ++ if inbox.isOpen then Stimulus.arrivals events else []

theorem unread_after (inbox : Inbox) (stimulus : Stimulus) :
    (inbox.after stimulus).unread =
      inbox.unread ++ if inbox.isOpen then stimulus.arrival?.toList else [] := by
  cases stimulus with
  | notice notice =>
    simp only [after, put, Stimulus.arrival?]
    split <;> simp
  | event event =>
    cases hevent : Notice.ofEvent? event with
    | none => simp [after, Stimulus.arrival?, hevent]
    | some notice =>
      simp only [after, put, Stimulus.arrival?, hevent, Option.elim_some]
      split <;> simp
  | _ => simp [after, close, Stimulus.arrival?]

theorem isOpen_after (inbox : Inbox) (stimulus : Stimulus) :
    (inbox.after stimulus).isOpen = (inbox.isOpen && decide (stimulus ≠ .close)) := by
  cases stimulus with
  | notice notice =>
    simp only [after, put]
    split <;> simp
  | event event =>
    cases hevent : Notice.ofEvent? event with
    | none => simp [after, hevent]
    | some notice =>
      simp only [after, put, hevent, Option.elim_some]
      split <;> simp
  | _ => simp [after, close]

end Inbox

/-! ### Changes of the surroundings -/

namespace Session

theorem inbox_change (x : Session σ) (role : Role σ) (stimulus : Stimulus) :
    (x.change role stimulus).surroundings.inbox = x.surroundings.inbox.after stimulus := by
  cases stimulus with
  | resolve answer =>
    simp only [change]
    split <;> rfl
  | event event =>
    simp only [change, Inbox.after]
    cases Notice.ofEvent? event <;> rfl
  | _ => rfl

theorem effects_change (x : Session σ) (stimulus : Stimulus) :
    (x.change role stimulus).surroundings.effects = x.surroundings.effects := by
  cases stimulus with
  | resolve answer =>
    simp only [change]
    split <;> rfl
  | event event =>
    simp only [change]
    cases Notice.ofEvent? event <;> rfl
  | _ => rfl

/-- What a stimulus other than a restart cannot touch: the run itself, its deeds, its
    writer, what the signal is set to and what the link answers at once.  Only a
    shutdown raises the signal, and nothing lowers it.  The inbox takes what arrives. -/
structure Changed (stimulus : Stimulus) (x y : Session σ) : Prop where
  run_eq : y.run = x.run
  trace_eq : y.surroundings.trace = x.surroundings.trace
  writer_eq : y.surroundings.writer = x.surroundings.writer
  onOctets_eq : y.surroundings.signal.onOctets = x.surroundings.signal.onOctets
  onCall_eq : y.surroundings.signal.onCall = x.surroundings.signal.onCall
  atOnce_eq : y.surroundings.link.atOnce = x.surroundings.link.atOnce
  raised : x.surroundings.signal.raised = true → y.surroundings.signal.raised = true
  raised_eq : stimulus ≠ .shutdown →
    y.surroundings.signal.raised = x.surroundings.signal.raised
  inbox_eq : y.surroundings.inbox = x.surroundings.inbox.after stimulus

theorem changed_change (x : Session σ) {stimulus : Stimulus} (h : stimulus ≠ .restart) :
    Changed stimulus x (x.change role stimulus) := by
  have hinbox := x.inbox_change role stimulus
  cases stimulus with
  | restart => exact absurd rfl h
  | shutdown =>
    exact ⟨rfl, rfl, rfl, rfl, rfl, rfl, fun _ => rfl, fun hne => absurd rfl hne, hinbox⟩
  | resolve answer =>
    refine ⟨?_, ?_, ?_, ?_, ?_, ?_, ?_, ?_, hinbox⟩ <;> simp only [change] <;> split <;> simp
  | event event =>
    refine ⟨?_, ?_, ?_, ?_, ?_, ?_, ?_, ?_, hinbox⟩ <;> simp only [change] <;> split <;> simp
  | _ => exact ⟨rfl, rfl, rfl, rfl, rfl, rfl, id, fun _ => rfl, hinbox⟩

theorem Changed.effects_eq {stimulus : Stimulus} {x y : Session σ} (h : Changed stimulus x y) :
    y.surroundings.effects = x.surroundings.effects := by
  rw [Surroundings.effects, Surroundings.history, h.trace_eq]
  rfl

theorem Changed.calm {stimulus : Stimulus} {x y : Session σ} (h : Changed stimulus x y)
    (hne : stimulus ≠ .shutdown) (hcalm : x.surroundings.Calm) : y.surroundings.Calm where
  down := (h.raised_eq hne).trans hcalm.down
  onOctets_eq := h.onOctets_eq.trans hcalm.onOctets_eq
  onCall_eq := h.onCall_eq.trans hcalm.onCall_eq
  limit_eq := h.writer_eq ▸ hcalm.limit_eq
  failingFlush_eq := h.writer_eq ▸ hcalm.failingFlush_eq

def deedsSince (s : Surroundings) (x : Session σ) : Trace :=
  x.surroundings.history.drop s.trace.size

theorem deedsSince_eq {s : Surroundings} {x : Session σ} {deeds : Trace}
    (h : x.surroundings.history = s.history ++ deeds) : x.deedsSince s = deeds := by
  have hlength : s.history.length = s.trace.size := Array.length_toList
  rw [deedsSince, h, ← hlength, List.drop_left]

/-- The deeds since then have the effects that came in addition. -/
theorem effects_deedsSince {s : Surroundings} {x : Session σ} {effects : List Effect}
    (h : x.surroundings.effects = s.effects ++ effects) :
    (x.deedsSince s).effects = effects := by
  have hlength : s.effects.length = s.trace.size := by
    simp [Surroundings.effects, Surroundings.history, Trace.effects]
  calc (x.deedsSince s).effects = x.surroundings.effects.drop s.trace.size := List.map_drop
    _ = effects := by rw [h, ← hlength, List.drop_left]

theorem effects_deedsSince_append {s : Surroundings} {x y : Session σ}
    {effects more : List Effect} (hx : x.surroundings.effects = s.effects ++ effects)
    (hy : y.surroundings.effects = x.surroundings.effects ++ more) :
    (y.deedsSince s).effects = (x.deedsSince s).effects ++ more := by
  rw [effects_deedsSince hx]
  exact effects_deedsSince (by rw [hy, hx, List.append_assoc])

end Session

/-! ### The fine grain -/

/-- `role.Run x events y`: from `x` the session gets to `y` while these stimuli
    arrive, in this order, each before any step of the loop. -/
inductive Role.Run (role : Role σ) (x : Session σ) : List Stimulus → Session σ → Prop where
  | start : Run role x [] x
  | change {events : List Stimulus} {y : Session σ} (stimulus : Stimulus) :
    Run role x events y → Run role x (events ++ [stimulus]) (y.change role stimulus)
  | step {events : List Stimulus} {y : Session σ} {s : Surroundings} {p : σ} :
    Run role x events y → role.activity.step y.surroundings y.run = some (s, p) →
      Run role x events { surroundings := s, run := p }

namespace Role.Run

theorem trans {x y z : Session σ} {events more : List Stimulus}
    (h : role.Run x events y) (g : role.Run y more z) : role.Run x (events ++ more) z := by
  induction g with
  | start => simpa using h
  | change stimulus _ ih => simpa using ih.change stimulus
  | step _ hstep ih => exact ih.step hstep

/-- A resumption is a number of steps in a row. -/
theorem resume {x y : Session σ} {events : List Stimulus} (h : role.Run x events y) :
    role.Run x events (y.resume role) :=
  role.activity.settle_induction
    (fun _ _ _ _ hrun hstep => Role.Run.step hrun hstep) h

theorem react {x y : Session σ} {events : List Stimulus} (h : role.Run x events y)
    (stimulus : Stimulus) : role.Run x (events ++ [stimulus]) (y.react role stimulus) :=
  (h.change stimulus).resume

theorem foldl_react {x y : Session σ} {events : List Stimulus} (h : role.Run x events y)
    (more : List Stimulus) : role.Run x (events ++ more) (more.foldl (Session.react role) y) := by
  induction more generalizing events y with
  | nil => simpa using h
  | cons stimulus more ih => simpa using ih (h.react stimulus)

theorem foldl_change {x y : Session σ} {events : List Stimulus} (h : role.Run x events y)
    (more : List Stimulus) : role.Run x (events ++ more) (more.foldl (Session.change role) y) := by
  induction more generalizing events y with
  | nil => simpa using h
  | cons stimulus more ih => simpa using ih (h.change stimulus)

/-- What holds at the beginning, and is kept by every change that arrives and by every
    step of the loop, holds along every run that is not abandoned. -/
theorem invariant {x y : Session σ} {events : List Stimulus} {P : Session σ → Prop}
    (h : role.Run x events y) (hrestart : Stimulus.restart ∉ events) (start : P x)
    (change : ∀ z w, ∀ stimulus ∈ events, P z → Session.Changed stimulus z w → P w)
    (step : ∀ z s p, P z → role.activity.step z.surroundings z.run = some (s, p) →
      P { surroundings := s, run := p }) : P y := by
  induction h with
  | start => exact start
  | @change events z stimulus _ ih =>
    simp only [List.mem_append, List.mem_singleton, not_or] at hrestart
    have hz : P z := ih hrestart.1 fun z w earlier hmem =>
      change z w earlier (List.mem_append_left _ hmem)
    exact change z _ stimulus (List.mem_append_right _ (List.mem_singleton_self _)) hz
      (z.changed_change (Ne.symm hrestart.2))
  | step _ hstep ih => exact step _ _ _ (ih hrestart change) hstep

/-- An account of what was done, kept by every step, holds along every run that is not
    abandoned. -/
theorem account {x y : Session σ} {events : List Stimulus} {A : σ → List Effect → Prop}
    (h : role.Run x events y) (hrestart : Stimulus.restart ∉ events) (start : A x.run [])
    (step : ∀ {s t p q effects}, A p effects → role.activity.step s p = some (t, q) →
      ∃ more, s.Acts more t ∧ A q (effects ++ more)) :
    ∃ effects, y.surroundings.effects = x.surroundings.effects ++ effects ∧ A y.run effects := by
  refine h.invariant hrestart (P := fun y => ∃ effects,
      y.surroundings.effects = x.surroundings.effects ++ effects ∧ A y.run effects)
    ⟨[], by simp, start⟩ ?_ ?_
  · rintro z w stimulus - ⟨effects, heffects, haccount⟩ hchanged
    rw [hchanged.effects_eq, hchanged.run_eq]
    exact ⟨effects, heffects, haccount⟩
  · rintro z t q ⟨effects, heffects, haccount⟩ hstep
    obtain ⟨more, hacts, haccount'⟩ := step haccount hstep
    refine ⟨effects ++ more, ?_, haccount'⟩
    rw [hacts.effects_eq, heffects, List.append_assoc]

/-- If a loop gets to some place only with its inbox closed and drained, then the inbox is so
    as long as the run is there. -/
theorem drained {x y : Session σ} {events : List Stimulus} {P : σ → Prop}
    (h : role.Run x events y) (hrestart : Stimulus.restart ∉ events) (hstart : ¬ P x.run)
    (step : ∀ {s t p q}, role.activity.step s p = some (t, q) → P q →
      t.inbox.unread = [] ∧ t.inbox.isOpen = false) (hthere : P y.run) :
    y.surroundings.inbox.unread = [] ∧ y.surroundings.inbox.isOpen = false := by
  refine h.invariant hrestart (P := fun y => P y.run →
    y.surroundings.inbox.unread = [] ∧ y.surroundings.inbox.isOpen = false)
    (fun habsurd => absurd habsurd hstart) ?_ ?_ hthere
  · intro z w stimulus _ hz hchanged hthere
    obtain ⟨hunread, hclosed⟩ := hz (hchanged.run_eq ▸ hthere)
    rw [hchanged.inbox_eq, Inbox.unread_after, Inbox.isOpen_after, hunread, hclosed]
    exact ⟨rfl, rfl⟩
  · intro z t q _ hstep hthere
    exact step hstep hthere

/-- Where the loop rests whatever the surroundings are, the run stays as it is. -/
theorem rests {x y : Session σ} {events : List Stimulus}
    (hrest : ∀ s, role.activity.step s x.run = none) (h : role.Run x events y)
    (hrestart : Stimulus.restart ∉ events) :
    y.run = x.run ∧ y.surroundings.effects = x.surroundings.effects := by
  refine h.invariant hrestart (P := fun y => y.run = x.run ∧
    y.surroundings.effects = x.surroundings.effects) ⟨rfl, rfl⟩ ?_ ?_
  · rintro z w stimulus - ⟨hrun, heffects⟩ hchanged
    exact ⟨hchanged.run_eq.trans hrun, hchanged.effects_eq.trans heffects⟩
  · rintro z t q ⟨hrun, -⟩ hstep
    have hnone : role.activity.step z.surroundings z.run = none := by
      rw [hrun]
      exact hrest _
    exact absurd (hnone.symm.trans hstep) (by simp)

end Role.Run

/-! ### Loops made of acts -/

/-- Every step of the loop is made of acts. -/
def Role.Acting (role : Role σ) : Prop :=
  ∀ {s t : Surroundings} {p q : σ}, role.activity.step s p = some (t, q) →
    ∃ effects, s.Acts effects t

/-- All that a resumption does is done at one reading of the clock. -/
theorem Role.Acting.resume (hacting : role.Acting) (x : Session σ) :
    ∃ effects, x.surroundings.Acts effects (x.resume role).surroundings := by
  refine role.activity.settle_induction
    (motive := fun t _ => ∃ effects, x.surroundings.Acts effects t) ?_ ⟨[], .refl _⟩
  rintro t p u q ⟨effects, hacts⟩ hstep
  obtain ⟨more, hmore⟩ := hacting hstep
  exact ⟨effects ++ more, hacts.trans hmore⟩

/-- As long as nobody raises the signal, calm surroundings stay calm. -/
theorem Role.Run.calm {x y : Session σ} {events : List Stimulus} (hacting : role.Acting)
    (h : role.Run x events y) (hrestart : Stimulus.restart ∉ events)
    (hshutdown : Stimulus.shutdown ∉ events) (hcalm : x.surroundings.Calm) :
    y.surroundings.Calm := by
  refine h.invariant hrestart (P := fun y => y.surroundings.Calm) hcalm ?_ ?_
  · intro z w stimulus hmem hz hchanged
    exact hchanged.calm (fun hraise => hshutdown (hraise ▸ hmem)) hz
  · intro z t q hz hstep
    obtain ⟨effects, hacts⟩ := hacting hstep
    exact hacts.calm hz

/-- No notice is lost, made up or overtaken: the notices taken, and after them those
    that are unread, are the ones received.  This holds across restarts. -/
theorem Role.Run.conserves {x y : Session σ} {events : List Stimulus} (hacting : role.Acting)
    (h : role.Run x events y) :
    ∃ effects, y.surroundings.effects = x.surroundings.effects ++ effects ∧
      effects.filterMap Effect.notice? ++ y.surroundings.inbox.unread =
        x.surroundings.inbox.received events ∧
      y.surroundings.inbox.isOpen =
        (x.surroundings.inbox.isOpen && decide (.close ∉ events)) := by
  induction h with
  | start => exact ⟨[], by simp, by simp [Inbox.received, Stimulus.arrivals], by simp⟩
  | @change events z stimulus _ ih =>
    obtain ⟨effects, heffects, hunread, hopen⟩ := ih
    refine ⟨effects, by rw [Session.effects_change, heffects], ?_, ?_⟩
    · rw [Session.inbox_change, Inbox.unread_after, ← List.append_assoc, hunread, hopen,
        Inbox.received, Inbox.received, Stimulus.arrivals_append_singleton]
      -- a notice is received only while the inbox is open, and no notice closes it
      cases x.surroundings.inbox.isOpen <;> by_cases hclose : Stimulus.close ∈ events <;>
        simp [hclose]
    · rw [Session.inbox_change, Inbox.isOpen_after, hopen]
      simp [Bool.and_assoc, eq_comm]
  | @step events z s p _ hstep ih =>
    obtain ⟨effects, heffects, hunread, hopen⟩ := ih
    obtain ⟨more, hacts⟩ := hacting hstep
    refine ⟨effects ++ more, ?_, ?_, hacts.isOpen_eq.trans hopen⟩
    · rw [hacts.effects_eq, heffects, List.append_assoc]
    · rw [← hunread, hacts.unread_eq, List.filterMap_append, List.append_assoc]

theorem Role.Run.taken_append_unread {x y : Session σ} {events : List Stimulus}
    (hacting : role.Acting) (h : role.Run x events y) :
    (y.deedsSince x.surroundings).taken ++ y.surroundings.inbox.unread =
      x.surroundings.inbox.received events := by
  obtain ⟨effects, heffects, hreceived, -⟩ := h.conserves hacting
  rw [Trace.taken_eq_filterMap, Session.effects_deedsSince heffects]
  exact hreceived

/-! ### Resumptions -/

/-- The loop has no next step. -/
def Role.Rests (role : Role σ) (x : Session σ) : Prop :=
  role.activity.step x.surroundings x.run = none

namespace Session

variable {x : Session σ}

theorem resume_of_step {s : Surroundings} {p : σ}
    (h : role.activity.step x.surroundings x.run = some (s, p)) :
    x.resume role = resume role { surroundings := s, run := p } := by
  have hsame := role.activity.settle_of_step h
  exact congrArg (fun settled => Session.mk settled.1 settled.2) hsame

theorem resume_of_rests (h : role.Rests x) : x.resume role = x := by
  have hsame := role.activity.settle_of_rest h
  exact congrArg (fun settled => Session.mk settled.1 settled.2) hsame

theorem rests_resume (role : Role σ) (x : Session σ) : role.Rests (x.resume role) :=
  role.activity.step_settle x.surroundings x.run

end Session

/-! ### The coarse grain -/

/-- `role.Played x y`: changes other than restarts, and whole resumptions, lead from
    `x` to `y`. -/
inductive Role.Played (role : Role σ) (x : Session σ) : Session σ → Prop where
  | start : Played role x x
  | change {y : Session σ} {stimulus : Stimulus} : stimulus ≠ .restart →
    Played role x y → Played role x (y.change role stimulus)
  | resume {y : Session σ} : Played role x y → Played role x (y.resume role)

/-- A cue that does not abandon the run. -/
def Session.Cue.Continues : Session.Cue → Prop
  | .stimulus change _ => change ≠ .restart
  | .run _ => True

namespace Role.Played

theorem run {x y : Session σ} (h : role.Played x y) :
    ∃ events, Stimulus.restart ∉ events ∧ role.Run x events y := by
  induction h with
  | start => exact ⟨[], by simp, .start⟩
  | @change _ stimulus hne _ ih =>
    obtain ⟨events, hrestart, hrun⟩ := ih
    refine ⟨events ++ [stimulus], ?_, hrun.change stimulus⟩
    simp only [List.mem_append, List.mem_singleton, not_or]
    exact ⟨hrestart, Ne.symm hne⟩
  | resume _ ih =>
    obtain ⟨events, hrestart, hrun⟩ := ih
    exact ⟨events, hrestart, hrun.resume⟩

theorem tick {x y : Session σ} (h : role.Played x y) (ms : Nat) :
    role.Played x (y.tick role ms) := by
  induction ms generalizing y with
  | zero => exact h
  | succ ms ih =>
    unfold Session.tick
    -- the clock goes on by milliseconds, and the run is resumed at each of them
    split
    · exact h
    · exact ih (.resume (.change (by simp) h))

/-- A script without restarts plays. -/
theorem play {x y : Session σ} (h : role.Played x y) {cues : List Session.Cue}
    (hcues : ∀ cue ∈ cues, cue.Continues) : role.Played x (cues.foldl (Session.play role) y) := by
  induction cues generalizing y with
  | nil => exact h
  | cons cue cues ih =>
    refine ih ?_ fun cue hcue => hcues cue (List.mem_cons_of_mem _ hcue)
    have hcue := hcues cue List.mem_cons_self
    rcases cue with ⟨stimulus, _ | _⟩ | ms
    · exact .resume (.change hcue h)
    · exact .change hcue h
    · exact h.resume.tick ms

end Role.Played

end BrokerLoad

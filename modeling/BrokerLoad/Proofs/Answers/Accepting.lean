/-
  BrokerLoad/Proofs/Answers/Accepting.lean
  ========================================
  A run with every answer read as an acceptance.

  `accepting` takes the reasons of refusals out of a session: the link accepts each call
  that it answers, at the moment at which it answers it, and the reports of rejections are
  left out of the trace.  It commutes with every step of a loop (`Role.Deaf`) and so with
  whole runs (`accepting_live`).  So what a run does besides these reports is a function of
  surroundings and moments in which no answer can be told from another.
-/
import BrokerLoad.Proofs.Moments
import BrokerLoad.Proofs.Publisher.Moves

namespace BrokerLoad

/-! ### Rejections -/

def Diagnostic.isRejection : Diagnostic → Bool
  | publishRejected _ => true
  | subscribeRejected _ => true
  | _ => false

def Effect.isRejection : Effect → Bool
  | reported diagnostic => diagnostic.isRejection
  | _ => false

namespace Trace

def unrejected (trace : Trace) : Trace := trace.filter (!·.effect.isRejection)

@[simp] theorem unrejected_append (trace more : Trace) :
    unrejected (trace ++ more) = trace.unrejected ++ more.unrejected :=
  List.filter_append _ _

theorem unreported_unrejected (trace : Trace) :
    Effect.unreported trace.unrejected.effects = Effect.unreported trace.effects := by
  induction trace with
  | nil => rfl
  | cons deed trace ih =>
    rcases deed with ⟨time, effect⟩
    cases effect with
    | reported diagnostic => cases diagnostic <;> exact ih
    | _ => exact congrArg (_ :: ·) ih

theorem diagnostics_unrejected (trace : Trace) :
    trace.unrejected.diagnostics = trace.diagnostics.filter (!·.isRejection) := by
  induction trace with
  | nil => rfl
  | cons deed trace ih =>
    rcases deed with ⟨time, effect⟩
    cases effect with
    | reported diagnostic =>
      cases diagnostic with
      | publishRejected reason => exact ih
      | subscribeRejected reason => exact ih
      | _ => exact congrArg (_ :: ·) ih
    | _ => exact ih

end Trace

/-! ### Surroundings -/

def Link.accepting (link : Link) : Link where
  atOnce n := (link.atOnce n).map fun _ => .accepted
  made := link.made
  answer := link.answer.map fun _ => .accepted

namespace Surroundings

/-- The surroundings with every answer an acceptance, and without the reports of
    rejections. -/
def accepting (s : Surroundings) : Surroundings :=
  { s with link := s.link.accepting, trace := s.trace.filter (!·.effect.isRejection) }

theorem history_accepting (s : Surroundings) : s.accepting.history = s.history.unrejected :=
  Array.toList_filter

theorem record_accepting (s : Surroundings) (effect : Effect) (h : effect.isRejection = false) :
    s.accepting.record effect = (s.record effect).accepting := by
  simp [record, accepting, h]

theorem record_rejection (s : Surroundings) (effect : Effect) (h : effect.isRejection = true) :
    (s.record effect).accepting = s.accepting := by
  simp [record, accepting, h]

theorem write_accepting (s : Surroundings) (octets : Octets) :
    s.accepting.write octets = ((s.write octets).1.accepting, (s.write octets).2) := by
  have hfitting : s.accepting.writer.fitting octets = s.writer.fitting octets := rfl
  unfold write
  simp only [hfitting]
  split
  · rfl
  · have hrecord := record_accepting
      { s with writer.written := s.writer.written + (s.writer.fitting octets).length }
      (.wrote (s.writer.fitting octets)) rfl
    simp only [Prod.mk.injEq, and_true]
    exact congrArg (raiseIf · _) hrecord

theorem flush_accepting (s : Surroundings) :
    s.accepting.flush = (s.flush.1.accepting, s.flush.2) := by
  have hrecord := record_accepting { s with writer.flushes := s.writer.flushes + 1 }
    .flushed rfl
  exact Prod.ext hrecord rfl

theorem call_accepting (s : Surroundings) (call : Call) :
    s.accepting.call call =
      ((s.call call).1.accepting, (s.call call).2.map fun _ => .accepted) := by
  have hrecord := record_accepting
    { s with link.made := s.link.made + 1, link.answer := none } (.called call) rfl
  exact Prod.ext (congrArg (raiseIf · _) hrecord) rfl

theorem take?_accepting (s : Surroundings) :
    s.accepting.take? = s.take?.map fun taken => (taken.1, taken.2.accepting) := by
  have hinbox : s.accepting.inbox = s.inbox := rfl
  unfold take?
  rw [hinbox]
  split
  · rfl
  · rename_i notice rest _
    have hrecord := record_accepting { s with inbox.unread := rest } (.took notice) rfl
    exact congrArg (fun t => some (notice, t)) hrecord

end Surroundings

/-! ### Single steps -/

/-- A part of a step that does not tell one answer from another. -/
def Deaf {σ : Type} (act : Surroundings → Surroundings × σ) : Prop :=
  ∀ s, act s.accepting = ((act s).1.accepting, (act s).2)

def afterAccepting {σ : Type} (after : Option (Surroundings × σ)) : Option (Surroundings × σ) :=
  after.map fun next => (next.1.accepting, next.2)

def Role.Deaf {σ : Type} (role : Role σ) : Prop :=
  ∀ s p, role.activity.step s.accepting p = afterAccepting (role.activity.step s p)

section

variable {σ : Type} {s : Surroundings}

theorem Deaf.write {next : Surroundings × Option WriterError → Surroundings × σ}
    (h : ∀ error, Deaf fun s => next (s, error)) (octets : Octets) :
    Deaf fun s => next (s.write octets) := by
  intro s
  dsimp only
  rw [s.write_accepting]
  exact h _ _

theorem Deaf.flush {next : Surroundings × Option WriterError → Surroundings × σ}
    (h : ∀ error, Deaf fun s => next (s, error)) : Deaf fun s => next s.flush := by
  intro s
  dsimp only
  rw [s.flush_accepting]
  exact h _ _

/-- A call is made, and its answer is taken if there is one at once. -/
theorem Deaf.call {next : Surroundings × Option Answer → Surroundings × σ}
    (hnone : Deaf fun s => next (s, none))
    (hsome : ∀ s answer, next (s.accepting, some .accepted) =
      ((next (s, some answer)).1.accepting, (next (s, some answer)).2)) (call : Call) :
    Deaf fun s => next (s.call call) := by
  intro s
  dsimp only
  rw [s.call_accepting]
  rcases hcall : s.call call with ⟨t, _ | answer⟩
  · exact hnone t
  · exact hsome t answer

theorem Deaf.afterAccepting {act : Surroundings → Surroundings × σ} (h : Deaf act)
    (s : Surroundings) : some (act s.accepting) = afterAccepting (some (act s)) :=
  congrArg some (h s)

theorem ite_afterAccepting {condition : Prop} [Decidable condition]
    {a b a' b' : Option (Surroundings × σ)} (ha : a' = afterAccepting a)
    (hb : b' = afterAccepting b) :
    (if condition then a' else b') = afterAccepting (if condition then a else b) := by
  split
  · exact ha
  · exact hb

/-- The answer that there may be is taken. -/
theorem answered_accepting {conclude : Surroundings → Answer → Surroundings × σ}
    (h : ∀ s answer, conclude s.accepting .accepted =
      ((conclude s answer).1.accepting, (conclude s answer).2)) (s : Surroundings) :
    s.accepting.link.answer.map (conclude s.accepting) =
      afterAccepting (s.link.answer.map (conclude s)) := by
  have hanswer : s.accepting.link.answer = s.link.answer.map fun _ => .accepted := rfl
  rw [hanswer]
  cases s.link.answer with
  | none => rfl
  | some answer => exact congrArg some (h s answer)

end

namespace Publisher

theorem deaf_interrupt (p : Publisher) : Deaf p.interrupt := by
  intro s
  have hreport := s.record_accepting (.reported (.publisherInterrupted p.submitted)) rfl
  exact Prod.ext hreport rfl

theorem conclude_accepting (plan : Plan) (p : Publisher) (s : Surroundings) (answer : Answer) :
    p.conclude plan s.accepting .accepted =
      ((p.conclude plan s answer).1.accepting, (p.conclude plan s answer).2) := by
  cases answer with
  | accepted => rfl
  | refused reason =>
    have hreport := Surroundings.record_rejection { s with link.answer := none }
      (.reported (.publishRejected reason)) rfl
    exact Prod.ext hreport.symm rfl

theorem deaf_begin (plan : Plan) (p : Publisher) : Deaf (p.begin plan) := by
  have hwrite : Deaf fun s =>
      p.afterAttempt (s.write (line plan.topic (Payload.numbered (p.number + 1).toNat))) :=
    .write (fun _ _ => rfl) _
  exact hwrite

theorem deaf_submit (plan : Plan) (p : Publisher) : Deaf (p.submit plan) := by
  have hcall : Deaf fun s => p.afterCall plan (s.call (plan.submission p.number.toNat)) :=
    .call (fun _ => rfl) (p.conclude_accepting plan) _
  exact hcall

theorem deaf (plan : Plan) : (role plan).Deaf := by
  intro s p
  change p.step plan s.accepting = afterAccepting (p.step plan s)
  -- the signal is looked at first, and it is the same on both sides
  have hinterrupt := p.deaf_interrupt.afterAccepting s
  unfold step
  cases p.phase with
  | between =>
    have hbegin := (deaf_begin plan p).afterAccepting s
    exact ite_afterAccepting (ite_afterAccepting hinterrupt hbegin) rfl
  | written => exact ite_afterAccepting hinterrupt ((deaf_submit plan p).afterAccepting s)
  | calling =>
    exact ite_afterAccepting hinterrupt (answered_accepting (p.conclude_accepting plan) s)
  | pausing deadline => exact ite_afterAccepting hinterrupt (ite_afterAccepting rfl rfl)
  | ended result => rfl

end Publisher

namespace Subscriber

theorem conclude_accepting (s : Surroundings) (answer : Answer) :
    conclude s.accepting .accepted = ((conclude s answer).1.accepting, (conclude s answer).2) := by
  cases answer with
  | accepted => rfl
  | refused reason =>
    have hreport := Surroundings.record_rejection { s with link.answer := none }
      (.reported (.subscribeRejected reason)) rfl
    exact Prod.ext hreport.symm rfl

theorem deaf_afterText (topic : String) (notice : Notice) (error : Option WriterError) :
    Deaf fun s => afterText topic notice (s, error) := by
  intro s
  cases error with
  | some error => rfl
  | none =>
    simp only [afterText]
    split
    · have hcall : Deaf fun s => afterCall (s.call (.subscribe topic .atMostOnce)) :=
        .call (fun _ => rfl) conclude_accepting _
      exact hcall s
    · rfl

theorem deaf_flush : Deaf fun s => afterFlush s.flush := by
  refine Deaf.flush ?_
  intro error s
  cases error <;> rfl

theorem deaf (topic : String) : (role topic).Deaf := by
  intro s p
  change step topic s.accepting p = afterAccepting (step topic s p)
  cases p with
  | listening =>
    have hreport := s.record_accepting (.reported .subscriberInterrupted) rfl
    refine ite_afterAccepting (congrArg (fun t => some (t, _)) hreport) ?_
    rw [s.take?_accepting]
    rcases htake : s.take? with _ | ⟨notice, taken⟩
    · exact ite_afterAccepting rfl rfl
    · have hwrite : Deaf fun s => afterText topic notice (s.write (text topic notice)) :=
        .write (deaf_afterText topic notice) _
      exact hwrite.afterAccepting taken
  | subscribing => exact answered_accepting conclude_accepting s
  | flushing => exact deaf_flush.afterAccepting s
  | ended result => rfl

end Subscriber

/-! ### Whole runs -/

def Moment.accepting : Moment → Moment
  | arrival (.resolve _) => arrival (.resolve .accepted)
  | moment => moment

section

variable {σ : Type} {role : Role σ}

def Session.accepting (x : Session σ) : Session σ :=
  { x with surroundings := x.surroundings.accepting }

theorem Role.Deaf.next_accepting (h : role.Deaf) (x : Session σ) (moment : Moment) :
    x.accepting.next role moment.accepting = (x.next role moment).accepting := by
  cases moment with
  | arrival stimulus =>
    cases stimulus with
    | resolve answer =>
      -- the answer is kept only by a run that waits for one
      cases hwaits : role.waits x.run with
      | true => simp [Moment.accepting, Session.next, Session.change, Session.accepting,
          Surroundings.accepting, Link.accepting, hwaits]
      | false => simp [Moment.accepting, Session.next, Session.change, Session.accepting, hwaits]
    | event event =>
      simp only [Moment.accepting, Session.next, Session.change]
      split <;> rfl
    | _ => rfl
  | step =>
    have hstep : role.activity.step x.accepting.surroundings x.accepting.run =
        afterAccepting (role.activity.step x.surroundings x.run) := h x.surroundings x.run
    have hmoment : Moment.step.accepting = .step := rfl
    rw [hmoment]
    rcases hnext : role.activity.step x.surroundings x.run with _ | ⟨s, p⟩
    · rw [hnext] at hstep
      rw [Session.next_of_rest hnext, Session.next_of_rest hstep]
    · rw [hnext] at hstep
      rw [Session.next_of_step hnext, Session.next_of_step hstep]
      rfl

theorem Role.Deaf.live_accepting (h : role.Deaf) (x : Session σ) (moments : List Moment) :
    x.accepting.live role (moments.map Moment.accepting) = (x.live role moments).accepting := by
  induction moments generalizing x with
  | nil => rfl
  | cons moment moments ih =>
    rw [List.map_cons, Session.live_cons, h.next_accepting, ih, Session.live_cons]

/-- A run, with every answer read as an acceptance, is the run in which every answer is. -/
theorem Role.Deaf.after_accepting (h : role.Deaf) (s : Surroundings) (moments : List Moment) :
    role.after s.accepting (moments.map Moment.accepting) = (role.after s moments).accepting :=
  h.live_accepting (Session.start role s) moments

end

end BrokerLoad

/-
  BrokerLoad/Proofs/Subscriber/Transcript.lean
  ============================================
  The transcript of a subscriber run: what it has done for the notices it has taken.

  `handling` is everything done for one notice, in order, the report of a refusal
  aside.  A run does exactly that for one notice after the other, and between two steps
  it owes at most the flush of the notice in hand (`Account`, `account_run`).  With the
  conservation of notices this gives `transcript_complete`: in calm surroundings the
  transcript is a function of the notices received, whatever their batches and whatever
  the answers of the link, and it is complete once the inbox is closed and the calls
  are answered.
-/
import BrokerLoad.Proofs.Subscriber.Moves

namespace BrokerLoad

namespace Subscriber

variable {topic : String} {s t : Surroundings} {p q : Subscriber}

/-! ### Everything done for a notice -/

/-- What is done for a notice, the report of a refusal aside: it is taken, its lines are
    written, its call is made, a flush is asked for. -/
def handling (topic : String) (notice : Notice) : List Effect :=
  opening topic notice ++ (request? topic notice).toList.map .called ++ [.flushed]

def owed : Subscriber → List Effect
  | .subscribing => [.flushed]
  | .flushing => [.flushed]
  | _ => []

section Views

variable (topic : String) (notices : List Notice)

@[simp] theorem unreported_opening (notice : Notice) :
    Effect.unreported (opening topic notice) = opening topic notice := by
  have hwriting := Effect.unreported_writing (text topic notice)
  exact congrArg (Effect.took notice :: ·) hwriting

theorem written_handling :
    (notices.flatMap (handling topic)).flatMap Effect.written = notices.flatMap (text topic) := by
  have hone : ∀ notice, (handling topic notice).flatMap Effect.written = text topic notice := by
    intro notice
    cases hrequest : request? topic notice <;>
      simp [handling, opening, hrequest, Effect.written]
  rw [List.flatMap_assoc]
  exact congrArg (notices.flatMap ·) (funext hone)

theorem calls_handling :
    (notices.flatMap (handling topic)).filterMap Effect.call? =
      notices.filterMap (request? topic) := by
  induction notices with
  | nil => rfl
  | cons notice notices ih =>
    cases hrequest : request? topic notice <;>
      simp [handling, opening, hrequest, List.filterMap_cons, Effect.call?, ih]

theorem taken_handling :
    (notices.flatMap (handling topic)).filterMap Effect.notice? = notices := by
  induction notices with
  | nil => rfl
  | cons notice notices ih =>
    cases hrequest : request? topic notice <;>
      simp [handling, opening, hrequest, List.filterMap_cons, Effect.notice?, ih]

theorem flushes_handling :
    (notices.flatMap (handling topic)).count .flushed = notices.length := by
  induction notices with
  | nil => rfl
  | cons notice notices ih =>
    cases hrequest : request? topic notice <;>
      simp [handling, opening, hrequest, ih]

end Views

/-! ### The account -/

/-- The account of a run that took these notices and did this.  Each notice is handled
    in full before the next one, but for the flush that the run may owe; a full writer
    leaves the last notice with a part of its lines. -/
def Account (topic : String) (p : Subscriber) (effects : List Effect) (notices : List Notice) :
    Prop :=
  match p with
  | .ended (.failed .full) => ∃ before notice octets, notices = before ++ [notice] ∧
      octets <+: text topic notice ∧ octets.length < (text topic notice).length ∧
      Effect.unreported effects =
        before.flatMap (handling topic) ++ .took notice :: Effect.writing octets
  | p => Effect.unreported effects ++ p.owed = notices.flatMap (handling topic)

variable {effects : List Effect} {notices : List Notice}

theorem Account.move (h : Account topic p effects notices) (hmove : Move topic s p t q) :
    ∃ more notices', s.Acts more t ∧ Account topic q (effects ++ more) notices' := by
  -- the one step that leaves a notice unfinished is the one that the writer cuts
  cases hmove with
  | interrupt _ hacts =>
    refine ⟨_, notices, hacts, ?_⟩
    simp only [Account, owed, List.append_nil] at h ⊢
    rw [Effect.unreported_append, h]
    exact List.append_nil _
  | exhaust _ _ _ =>
    refine ⟨[], notices, .refl s, ?_⟩
    rwa [List.append_nil]
  | handle notice _ hrequest hacts =>
    refine ⟨_, notices ++ [notice], hacts, ?_⟩
    simp only [Account, owed, List.append_nil] at h ⊢
    simp [h, handling, hrequest]
  | cut notice octets _ _ hinitial hlength hacts =>
    refine ⟨_, notices ++ [notice], hacts, notices, notice, octets, rfl, hinitial, hlength, ?_⟩
    simp only [Account, owed, List.append_nil] at h
    have hcut : Effect.unreported (.took notice :: Effect.writing octets) =
        .took notice :: Effect.writing octets :=
      congrArg (Effect.took notice :: ·) (Effect.unreported_writing octets)
    rw [Effect.unreported_append, h, hcut]
  | await notice call _ hrequest _ hacts =>
    refine ⟨_, notices ++ [notice], hacts, ?_⟩
    simp only [Account, owed, List.append_nil] at h ⊢
    have hcalled : Effect.unreported [.called call] = [.called call] := rfl
    simp [h, handling, hrequest, hcalled]
  | subscribe notice call answer _ hrequest _ hacts =>
    refine ⟨_, notices ++ [notice], hacts, ?_⟩
    simp only [Account, owed, List.append_nil] at h ⊢
    have hcalled : Effect.unreported (.called call :: answer.complaint .subscribeRejected) =
        [.called call] :=
      congrArg (Effect.called call :: ·) (Effect.unreported_complaint _ answer)
    simp [h, handling, hrequest, hcalled]
  | conclude answer _ hacts =>
    refine ⟨_, notices, hacts, ?_⟩
    simp only [Account, owed] at h ⊢
    rw [Effect.unreported_append, Effect.unreported_complaint, List.append_nil]
    exact h
  | flush hacts =>
    refine ⟨_, notices, hacts, ?_⟩
    simp only [Account, owed, List.append_nil] at h ⊢
    rw [Effect.unreported_append]
    exact h
  | lose _ hacts =>
    refine ⟨_, notices, hacts, ?_⟩
    simp only [Account, owed, List.append_nil] at h ⊢
    rw [Effect.unreported_append]
    exact h

/-- The notices of the account are the notices taken. -/
theorem Account.taken_eq (h : Account topic p effects notices) :
    effects.filterMap Effect.notice? = notices := by
  rw [← Effect.filterMap_notice?_unreported]
  unfold Account at h
  split at h
  · obtain ⟨before, notice, octets, rfl, -, -, heffects⟩ := h
    rw [heffects, List.filterMap_append, taken_handling]
    simp [Effect.notice?]
  · have hview := congrArg (List.filterMap Effect.notice?) h
    rw [List.filterMap_append, taken_handling] at hview
    rw [← hview]
    cases p <;> simp [owed, Effect.notice?]

/-! ### Calls still to be answered -/

/-- How many subscribe calls are still to be answered: those that the unread notices
    ask for, and the one that waits. -/
def pending (topic : String) (s : Surroundings) (p : Subscriber) : Nat :=
  (s.inbox.unread.filterMap (request? topic)).length + if p = .subscribing then 1 else 0

/-- No step adds to the calls that are still to be answered. -/
theorem pending_move (h : Move topic s p t q) : pending topic t q ≤ pending topic s p := by
  have hle : (t.inbox.unread.filterMap (request? topic)).length ≤
      (s.inbox.unread.filterMap (request? topic)).length := by
    obtain ⟨effects, hacts⟩ := h.acts
    rw [hacts.unread_eq, List.filterMap_append, List.length_append]
    exact Nat.le_add_left _ _
  cases h with
  | await notice call _ hrequest _ hacts =>
    -- the call that the notice asked for becomes the one that waits
    have hunread : s.inbox.unread = notice :: t.inbox.unread := by
      simpa [opening, List.filterMap_cons, Effect.notice?] using hacts.unread_eq
    simp [pending, hunread, hrequest]
  | conclude _ _ _ => exact Nat.le_succ_of_le hle
  | _ => exact hle

/-! ### Whole runs -/

section Run

variable {x y : Session Subscriber} {events : List Stimulus}

theorem account_run (h : (role topic).Run (Session.start (role topic) s) events x)
    (hrestart : Stimulus.restart ∉ events) :
    ∃ effects notices, x.surroundings.effects = s.effects ++ effects ∧
      Account topic x.run effects notices := by
  have hkept : ∃ effects, x.surroundings.effects = s.effects ++ effects ∧
      ∃ notices, Account topic x.run effects notices := by
    refine h.account hrestart (A := fun p effects => ∃ notices, Account topic p effects notices)
      ⟨[], rfl⟩ ?_
    rintro _ _ _ _ _ ⟨_, hbefore⟩ hstep
    obtain ⟨more, notices, hacts, hafter⟩ := hbefore.move (move_of_step hstep)
    exact ⟨more, hacts, notices, hafter⟩
  obtain ⟨effects, heffects, notices, haccount⟩ := hkept
  exact ⟨effects, notices, heffects, haccount⟩

/-- A run finds its link closed only if its inbox is closed and empty, and then the inbox
    stays so. -/
theorem closed_of_linkClosed (h : (role topic).Run (Session.start (role topic) s) events x)
    (hrestart : Stimulus.restart ∉ events) (hend : x.run = .ended (.finished .linkClosed)) :
    x.surroundings.inbox.unread = [] ∧ x.surroundings.inbox.isOpen = false := by
  -- of all steps only the exhausting one ends so, and it finds the inbox drained
  refine h.drained hrestart (P := fun p => p = .ended (.finished .linkClosed)) nofun ?_ hend
  rintro u t p _ hstep rfl
  cases move_of_step hstep with
  | exhaust _ hunread hclosed => exact ⟨hunread, hclosed⟩

/-- In calm surroundings a run ends in one way: its inbox is closed and empty. -/
theorem ended_of_calm (h : (role topic).Run (Session.start (role topic) s) events x)
    (hrestart : Stimulus.restart ∉ events) (hshutdown : Stimulus.shutdown ∉ events)
    (hcalm : s.Calm) {result : Ending Exit} (hend : x.run = .ended result) :
    result = .finished .linkClosed ∧ x.surroundings.inbox.unread = [] ∧
      x.surroundings.inbox.isOpen = false := by
  have hkept := h.invariant hrestart (P := fun y => y.surroundings.Calm ∧ ∀ result,
      y.run = .ended result → result = .finished .linkClosed) ⟨hcalm, nofun⟩ ?_ ?_
  · obtain rfl := hkept.2 result hend
    exact ⟨rfl, closed_of_linkClosed h hrestart hend⟩
  · rintro z w stimulus hmem ⟨hz, hends⟩ hchanged
    rw [hchanged.run_eq]
    exact ⟨hchanged.calm (fun heq => hshutdown (heq ▸ hmem)) hz, hends⟩
  · rintro ⟨u, p⟩ t q ⟨hz, -⟩ hstep
    have hmove := move_of_step hstep
    obtain ⟨_, hacts⟩ := hmove.acts
    refine ⟨hacts.calm hz, fun result hended => ?_⟩
    -- a signal that is up, a limit or a failing flush would end it otherwise
    cases hmove with
    | interrupt hraised _ => exact absurd (hz.down.symm.trans hraised) (by simp)
    | exhaust _ _ _ => exact (Subscriber.ended.inj hended).symm
    | cut _ _ _ hlimit => exact absurd hz.limit_eq hlimit
    | lose hfailing => exact absurd hz.failingFlush_eq hfailing
    | _ => cases hended

/-- What can be seen of a run that has taken these notices: their texts, their calls
    and a flush for each, but for the flush that is still owed. -/
structure Transcript (topic : String) (s : Surroundings) (x : Session Subscriber)
    (notices : List Notice) : Prop where
  taken : (x.deedsSince s).taken = notices
  output : (x.deedsSince s).output = notices.flatMap (text topic)
  calls : (x.deedsSince s).calls = notices.filterMap (request? topic)
  flushes : (x.deedsSince s).flushes + x.run.owed.length = notices.length
  conduct : Effect.unreported (x.deedsSince s).effects ++ x.run.owed =
    notices.flatMap (handling topic)

theorem transcript_of_account {effects : List Effect} {notices : List Notice}
    (heffects : x.surroundings.effects = s.effects ++ effects)
    (haccount : Account topic x.run effects notices) (hwhole : x.run ≠ .ended (.failed .full)) :
    Transcript topic s x notices := by
  have hsince := Session.effects_deedsSince heffects
  have hconduct : Effect.unreported effects ++ x.run.owed = notices.flatMap (handling topic) := by
    unfold Account at haccount
    split at haccount
    · exact absurd ‹_› hwhole
    · exact haccount
  -- each part is one view of the conduct; what is still owed shows in the flushes only
  refine ⟨?_, ?_, ?_, ?_, ?_⟩
  · rw [Trace.taken_eq_filterMap, hsince, haccount.taken_eq]
  · have hview := congrArg (List.flatMap Effect.written) hconduct
    rw [List.flatMap_append, Effect.flatMap_written_unreported, written_handling] at hview
    rw [Trace.output_eq_flatMap, hsince, ← hview]
    cases x.run <;> simp [owed, Effect.written]
  · have hview := congrArg (List.filterMap Effect.call?) hconduct
    rw [List.filterMap_append, Effect.filterMap_call?_unreported, calls_handling] at hview
    rw [Trace.calls_eq_filterMap, hsince, ← hview]
    cases x.run <;> simp [owed, Effect.call?]
  · have hview := congrArg (List.count .flushed) hconduct
    rw [List.count_append, Effect.count_flushed_unreported, flushes_handling] at hview
    rw [Trace.flushes_eq_count, hsince, ← hview]
    cases x.run <;> simp [owed]
  · rw [hsince, hconduct]

/-- Unless its writer was full, a run has the transcript of the notices it has taken. -/
theorem transcript_of_whole (h : (role topic).Run (Session.start (role topic) s) events x)
    (hrestart : Stimulus.restart ∉ events) (hwhole : x.run ≠ .ended (.failed .full)) :
    Transcript topic s x (x.deedsSince s).taken := by
  obtain ⟨effects, notices, heffects, haccount⟩ := account_run h hrestart
  have htranscript := transcript_of_account heffects haccount hwhole
  rw [htranscript.taken]
  exact htranscript

/-- The transcript of a run in calm surroundings is that of the notices it has taken,
    and these are the first of those received. -/
theorem transcript_run (h : (role topic).Run (Session.start (role topic) s) events x)
    (hrestart : Stimulus.restart ∉ events) (hshutdown : Stimulus.shutdown ∉ events)
    (hcalm : s.Calm) :
    ∃ notices, Transcript topic s x notices ∧
      notices ++ x.surroundings.inbox.unread = s.inbox.received events := by
  refine ⟨_, transcript_of_whole h hrestart ?_, h.taken_append_unread (acting topic)⟩
  intro hfailed
  -- calm surroundings have no writer that is full
  obtain ⟨hresult, -⟩ := ended_of_calm h hrestart hshutdown hcalm hfailed
  cases hresult

/-- A run that has ended has taken all notices received. -/
theorem transcript_of_ended (h : (role topic).Run (Session.start (role topic) s) events x)
    (hrestart : Stimulus.restart ∉ events) (hshutdown : Stimulus.shutdown ∉ events)
    (hcalm : s.Calm) {result : Ending Exit} (hend : x.run = .ended result) :
    Transcript topic s x (s.inbox.received events) := by
  obtain ⟨notices, htranscript, hreceived⟩ := transcript_run h hrestart hshutdown hcalm
  obtain ⟨-, hunread, -⟩ := ended_of_calm h hrestart hshutdown hcalm hend
  rw [hunread, List.append_nil] at hreceived
  exact hreceived ▸ htranscript

/-! ### The end of a run -/

/-- A run that rests with its inbox closed has ended, or its call waits. -/
theorem waits_or_ended (h : (role topic).Run (Session.start (role topic) s) events x)
    (hrestart : Stimulus.restart ∉ events) (hshutdown : Stimulus.shutdown ∉ events)
    (hcalm : s.Calm) (hclosed : x.surroundings.inbox.isOpen = false)
    (hrest : step topic x.surroundings x.run = none) :
    (x.run = .subscribing ∧ x.surroundings.link.answer = none) ∨
      x.run = .ended (.finished .linkClosed) := by
  rcases rest_cases hrest with ⟨-, -, -, hopen⟩ | hwaits | ⟨result, hend⟩
  · exact absurd (hclosed.symm.trans hopen) (by simp)
  · exact .inl hwaits
  · obtain ⟨rfl, -, -⟩ := ended_of_calm h hrestart hshutdown hcalm hend
    exact .inr hend

theorem pending_resume (y : Session Subscriber) :
    pending topic (y.resume (role topic)).surroundings (y.resume (role topic)).run ≤
      pending topic y.surroundings y.run :=
  (role topic).activity.settle_induction
    (motive := fun t q => pending topic t q ≤ pending topic y.surroundings y.run)
    (fun _ _ _ _ hle hstep => Nat.le_trans (pending_move (move_of_step hstep)) hle) (Nat.le_refl _)

/-- The answer to the waiting call leaves one call less to be answered. -/
theorem pending_resolve (topic : String) (hwaits : y.run = .subscribing) (answer : Answer) :
    pending topic (y.react (role topic) (.resolve answer)).surroundings
        (y.react (role topic) (.resolve answer)).run <
      pending topic y.surroundings y.run := by
  obtain ⟨t, p⟩ := y
  subst hwaits
  let u : Surroundings := { t with link.answer := some answer }
  have hstep : (role topic).activity.step u .subscribing =
      some ((conclude u answer).1, (conclude u answer).2) := rfl
  have hreact : Session.react (role topic) ⟨t, .subscribing⟩ (.resolve answer) =
      Session.resume (role topic) ⟨(conclude u answer).1, (conclude u answer).2⟩ :=
    Session.resume_of_step hstep
  rw [hreact]
  refine Nat.lt_of_le_of_lt (pending_resume _) ?_
  have hinbox : (conclude u answer).1.inbox = t.inbox := by
    cases answer <;> rfl
  simp [pending, hinbox, conclude_snd]

/-- With as many answers as are still to come, a run whose inbox is closed ends. -/
theorem ended_of_answers (answers : List Answer)
    (h : (role topic).Run (Session.start (role topic) s) events y)
    (hrestart : Stimulus.restart ∉ events) (hshutdown : Stimulus.shutdown ∉ events)
    (hcalm : s.Calm) (hclosed : y.surroundings.inbox.isOpen = false)
    (hrest : step topic y.surroundings y.run = none)
    (hpending : pending topic y.surroundings y.run ≤ answers.length) :
    ((answers.map Stimulus.resolve).foldl (Session.react (role topic)) y).run =
      .ended (.finished .linkClosed) := by
  -- every answer either ends the wait of a call or comes after the end of the run
  induction answers generalizing events y with
  | nil =>
    rcases waits_or_ended h hrestart hshutdown hcalm hclosed hrest with ⟨hwaits, -⟩ | hend
    · simp [pending, hwaits] at hpending
    · exact hend
  | cons answer answers ih =>
    have hone : (role topic).Run y [.resolve answer] (y.react (role topic) (.resolve answer)) :=
      Role.Run.start.react _
    obtain ⟨-, -, -, hopen⟩ := hone.conserves (acting topic)
    refine ih (h.react (.resolve answer)) (by simpa using hrestart) (by simpa using hshutdown)
      (hopen.trans (by simp [hclosed])) ((role topic).activity.step_settle _ _) ?_
    rw [List.length_cons] at hpending
    rcases waits_or_ended h hrestart hshutdown hcalm hclosed hrest with ⟨hwaits, -⟩ | hend
    · have hless := pending_resolve topic hwaits answer
      omega
    · obtain ⟨-, hunread, -⟩ := ended_of_calm h hrestart hshutdown hcalm hend
      have hwaits : (role topic).waits y.run = false := by
        rw [hend]
        rfl
      have hsame : y.change (role topic) (.resolve answer) = y := by
        simp [Session.change, hwaits]
      rw [Session.react, hsame]
      refine Nat.le_trans (pending_resume y) ?_
      simp [pending, hunread, hend]

/-- Let `x` be any state of a run in calm surroundings.

    Its transcript is that of the notices it has taken, and these, with the unread ones
    after them, are the notices received.  It has ended only if it has taken them all.

    If the inbox is closed and the run is resumed, it has ended unless its call waits.
    With as many answers as are still to come, whatever they are, it ends, and its
    transcript is that of all notices received. -/
theorem transcript_complete (h : (role topic).Run (Session.start (role topic) s) events x)
    (hrestart : Stimulus.restart ∉ events) (hshutdown : Stimulus.shutdown ∉ events)
    (hcalm : s.Calm) :
    (∃ notices, Transcript topic s x notices ∧
        notices ++ x.surroundings.inbox.unread = s.inbox.received events) ∧
      (∀ result, x.run = .ended result → result = .finished .linkClosed ∧
        x.surroundings.inbox.isOpen = false ∧ Transcript topic s x (s.inbox.received events)) ∧
      (x.surroundings.inbox.isOpen = false →
        (((x.resume (role topic)).run = .subscribing ∧
            (x.resume (role topic)).surroundings.link.answer = none) ∨
          (x.resume (role topic)).run = .ended (.finished .linkClosed)) ∧
        ∀ answers : List Answer, pending topic x.surroundings x.run ≤ answers.length →
          let y := (answers.map .resolve).foldl (Session.react (role topic)) (x.resume (role topic))
          y.run = .ended (.finished .linkClosed) ∧
            Transcript topic s y (s.inbox.received events)) := by
  refine ⟨transcript_run h hrestart hshutdown hcalm, ?_, ?_⟩
  · intro result hend
    obtain ⟨hresult, -, hclosed⟩ := ended_of_calm h hrestart hshutdown hcalm hend
    exact ⟨hresult, hclosed, transcript_of_ended h hrestart hshutdown hcalm hend⟩
  · intro hclosed
    have hresumed := h.resume
    obtain ⟨-, -, -, hopen⟩ := (Role.Run.start (x := x)).resume.conserves (acting topic)
    have hclosed' : (x.resume (role topic)).surroundings.inbox.isOpen = false :=
      hopen.trans (by simp [hclosed])
    have hrest := (role topic).activity.step_settle x.surroundings x.run
    refine ⟨waits_or_ended hresumed hrestart hshutdown hcalm hclosed' hrest, ?_⟩
    intro answers hpending y
    have hend : y.run = .ended (.finished .linkClosed) :=
      ended_of_answers answers hresumed hrestart hshutdown hcalm hclosed' hrest
        (Nat.le_trans (pending_resume x) hpending)
    refine ⟨hend, ?_⟩
    have hreceived : s.inbox.received (events ++ answers.map .resolve) =
        s.inbox.received events := by
      rw [Inbox.received, Stimulus.arrivals_append_of_silent events, Inbox.received]
      intro stimulus hmem
      obtain ⟨answer, -, rfl⟩ := List.mem_map.mp hmem
      rfl
    rw [← hreceived]
    exact transcript_of_ended (hresumed.foldl_react _) (by simpa using hrestart)
      (by simpa using hshutdown) hcalm hend

/-- A message comes before any connect, the first call is refused late and the second
    one at once, and the rest of the notices are queued, with the close, while the first
    call waits. -/
theorem transcript_complete_reconnect :
    let s : Surroundings :=
      { link := { atOnce := fun n => if n = 2 then some (.refused "full") else none } }
    let notices : List Notice :=
      [.received "a" [104, 10], .connected .success, .delivered 7, .connected .success]
    let events : List Stimulus := notices.map .notice ++ [.close]
    let waiting := ((Session.start (role "t") s).change (role "t")
      (.notice (.received "a" [104, 10]))).react (role "t") (.notice (.connected .success))
    let x := [.notice (.delivered 7), .notice (.connected .success), .close].foldl
      (Session.change (role "t")) waiting
    let y := ([Answer.refused "late", .accepted].map .resolve).foldl (Session.react (role "t"))
      (x.resume (role "t"))
    (role "t").Run (Session.start (role "t") s) events x ∧ Stimulus.restart ∉ events ∧
      Stimulus.shutdown ∉ events ∧ s.Calm ∧ x.run = .subscribing ∧
      y.run = .ended (.finished .linkClosed) ∧
      (y.deedsSince s).output = notices.flatMap (text "t") ∧
      (y.deedsSince s).calls =
        [.subscribe "t" .atMostOnce, .subscribe "t" .atMostOnce] ∧
      (y.deedsSince s).flushes = notices.length := by
  intro s notices events waiting x y
  have hrun : (role "t").Run (Session.start (role "t") s) events x :=
    ((((Role.Run.start.change _).react _).change _).change _).change _
  have hrestart : Stimulus.restart ∉ events := by decide
  have hshutdown : Stimulus.shutdown ∉ events := by decide
  have hcalm : s.Calm := ⟨rfl, rfl, rfl, rfl, rfl⟩
  have hpending : pending "t" x.surroundings x.run ≤ 2 := by decide
  obtain ⟨-, -, hclose⟩ := transcript_complete hrun hrestart hshutdown hcalm
  obtain ⟨-, hanswers⟩ := hclose (by decide)
  obtain ⟨hend, htranscript⟩ := hanswers [.refused "late", .accepted] hpending
  have hreceived : s.inbox.received events = notices := by decide
  rw [hreceived] at htranscript
  have hcalls : notices.filterMap (request? "t") =
      [.subscribe "t" .atMostOnce, .subscribe "t" .atMostOnce] := by decide
  have howed : y.run.owed.length = 0 := by
    rw [hend]
    rfl
  have hflushes := htranscript.flushes
  rw [howed, Nat.add_zero] at hflushes
  exact ⟨hrun, hrestart, hshutdown, hcalm, by decide, hend, htranscript.output,
    htranscript.calls.trans hcalls, hflushes⟩

end Run

end Subscriber

end BrokerLoad

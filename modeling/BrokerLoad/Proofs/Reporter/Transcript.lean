/-
  BrokerLoad/Proofs/Reporter/Transcript.lean
  ==========================================
  What a reporter does for the notices that it takes.

  `Move` lists the steps of its loop, and `handling` is everything done for one notice.
  A run does exactly that for one notice after the other, and between two steps it owes
  at most a flush (`Account`, `account_run`).  So what a reporter has done is a function of
  the notices that it has taken, however they came (`transcript_of_whole`), and the others
  that reached it are still in its inbox (`output_run`).
-/
import BrokerLoad.Proofs.Runs

namespace BrokerLoad

namespace Reporter

variable {s t : Surroundings} {p q : Reporter}

/-! ### Moves -/

/-- `Move s p t q`: in the surroundings `s`, the run `p` goes on as `q` in the
    surroundings `t`. -/
inductive Move (s : Surroundings) : Reporter → Surroundings → Reporter → Prop where
  /-- A notice is taken, and its line, if it has one, is written. -/
  | print {t : Surroundings} (notice : Notice) :
    s.Acts (.took notice :: Effect.writing (text notice)) t → Move s .listening t .flushing
  /-- A notice is taken, and its line is cut by the writer. -/
  | cut {t : Surroundings} (notice : Notice) (octets : Octets) : s.writer.limit ≠ none →
    octets <+: text notice → octets.length < (text notice).length →
    s.Acts (.took notice :: Effect.writing octets) t →
    Move s .listening t (.ended (.failed .full))
  /-- No notice is left, and none can come. -/
  | finish : s.inbox.unread = [] → s.inbox.isOpen = false →
    Move s .listening s (.ended (.finished ()))
  | flush {t : Surroundings} : s.Acts [.flushed] t → Move s .flushing t .listening
  /-- The flush fails. -/
  | lose {t : Surroundings} : s.writer.failingFlush ≠ none → s.Acts [.flushed] t →
    Move s .flushing t (.ended (.failed .flushFailed))

theorem Move.acts (h : Move s p t q) : ∃ effects, s.Acts effects t := by
  cases h with
  | print _ hacts => exact ⟨_, hacts⟩
  | cut _ _ _ _ _ hacts => exact ⟨_, hacts⟩
  | finish _ _ => exact ⟨[], .refl s⟩
  | flush hacts => exact ⟨_, hacts⟩
  | lose _ hacts => exact ⟨_, hacts⟩

theorem move_take {notice : Notice} (htake : s.take? = some (notice, t)) :
    Move s .listening (unlessFailed .flushing (t.write (text notice))).1
      (unlessFailed .flushing (t.write (text notice))).2 := by
  have htook := Surroundings.acts_take? htake
  rcases t.write_cases (text notice) with
    ⟨hnone, hacts⟩ | ⟨hfull, hlimit, octets, hinitial, hlength, hacts⟩
  · have hwrite : t.write (text notice) = ((t.write (text notice)).1, none) := Prod.ext rfl hnone
    rw [hwrite]
    exact .print notice (htook.trans hacts)
  · have hwrite : t.write (text notice) = ((t.write (text notice)).1, some .full) :=
      Prod.ext rfl hfull
    rw [hwrite]
    have hlimit' : s.writer.limit ≠ none := htook.limit_eq ▸ hlimit
    exact .cut notice octets hlimit' hinitial hlength (htook.trans hacts)

theorem move_of_step (h : step s p = some (t, q)) : Move s p t q := by
  unfold step at h
  split at h
  · split at h
    · rename_i notice u htake
      have hmove := move_take htake
      rwa [Option.some.inj h] at hmove
    · rename_i htake
      split at h
      · cases h
      · rename_i hclosed
        cases h
        exact .finish (Surroundings.unread_of_take? htake) (Bool.eq_false_iff.mpr hclosed)
  · have hacts := s.acts_flush
    have herror : s.flush.2 =
        if s.writer.failingFlush = some (s.writer.flushes + 1) then some .flushFailed else none :=
      rfl
    rcases hflush : s.flush with ⟨u, _ | error⟩ <;> rw [hflush] at h hacts herror <;> cases h
    · exact .flush hacts
    · split at herror
      · rename_i hfailing
        cases herror
        exact .lose (by simp [hfailing]) hacts
      · cases herror
  · cases h

theorem acting : role.Acting := fun hstep => (move_of_step hstep).acts

/-- A reporter rests at its end, or with an inbox that is empty and open. -/
theorem rest_cases (h : step s p = none) :
    (p = .listening ∧ s.inbox.unread = [] ∧ s.inbox.isOpen = true) ∨
      ∃ result, p = .ended result := by
  unfold step at h
  split at h
  · split at h
    · cases h
    · rename_i htake
      split at h
      · rename_i hopen
        exact .inl ⟨rfl, Surroundings.unread_of_take? htake, hopen⟩
      · cases h
  · cases h
  · exact .inr ⟨_, rfl⟩

/-! ### The account -/

def handling (notice : Notice) : List Effect :=
  .took notice :: Effect.writing (text notice) ++ [.flushed]

def owed : Reporter → List Effect
  | .flushing => [.flushed]
  | _ => []

/-- The account of a reporter that took these notices and did this.  A full writer leaves
    the last notice with a part of its line. -/
def Account (p : Reporter) (effects : List Effect) (notices : List Notice) : Prop :=
  match p with
  | .ended (.failed .full) => ∃ before notice octets, notices = before ++ [notice] ∧
      octets <+: text notice ∧ octets.length < (text notice).length ∧
      effects = before.flatMap handling ++ .took notice :: Effect.writing octets
  | p => effects ++ p.owed = notices.flatMap handling

variable {effects : List Effect} {notices : List Notice}

theorem Account.move (h : Account p effects notices) (hmove : Move s p t q) :
    ∃ more notices', s.Acts more t ∧ Account q (effects ++ more) notices' := by
  cases hmove with
  | print notice hacts =>
    refine ⟨_, notices ++ [notice], hacts, ?_⟩
    simp only [Account, owed, List.append_nil] at h ⊢
    simp [h, handling]
  | cut notice octets _ hinitial hlength hacts =>
    refine ⟨_, notices ++ [notice], hacts, notices, notice, octets, rfl, hinitial, hlength, ?_⟩
    simp only [Account, owed, List.append_nil] at h
    rw [h]
  | finish _ _ =>
    refine ⟨[], notices, .refl s, ?_⟩
    rwa [List.append_nil]
  | flush hacts =>
    refine ⟨_, notices, hacts, ?_⟩
    simp only [Account, owed, List.append_nil] at h ⊢
    exact h
  | lose _ hacts =>
    refine ⟨_, notices, hacts, ?_⟩
    simp only [Account, owed, List.append_nil] at h ⊢
    exact h

section Views

variable (notices : List Notice)

theorem written_handling :
    (notices.flatMap handling).flatMap Effect.written = notices.flatMap text := by
  have hone : ∀ notice, (handling notice).flatMap Effect.written = text notice := by
    intro notice
    simp [handling, Effect.written]
  rw [List.flatMap_assoc]
  exact congrArg (notices.flatMap ·) (funext hone)

theorem taken_handling : (notices.flatMap handling).filterMap Effect.notice? = notices := by
  induction notices with
  | nil => rfl
  | cons notice notices ih => simp [handling, List.filterMap_cons, Effect.notice?, ih]

theorem flushes_handling : (notices.flatMap handling).count .flushed = notices.length := by
  induction notices with
  | nil => rfl
  | cons notice notices ih => simp [handling, ih]

end Views

theorem Account.taken_eq (h : Account p effects notices) :
    effects.filterMap Effect.notice? = notices := by
  unfold Account at h
  split at h
  · obtain ⟨before, notice, octets, rfl, -, -, rfl⟩ := h
    rw [List.filterMap_append, taken_handling]
    simp [Effect.notice?]
  · have howed : p.owed.filterMap Effect.notice? = [] := by
      cases p <;> rfl
    rw [← taken_handling notices, ← h, List.filterMap_append, howed, List.append_nil]

/-- An account without a cut line says what is in print. -/
theorem Account.written_eq (h : Account p effects notices) (hwhole : p ≠ .ended (.failed .full)) :
    effects.flatMap Effect.written = notices.flatMap text := by
  unfold Account at h
  split at h
  · exact absurd rfl hwhole
  · have howed : p.owed.flatMap Effect.written = [] := by
      cases p <;> rfl
    rw [← written_handling notices, ← h, List.flatMap_append, howed, List.append_nil]

/-! ### Whole runs -/

section Run

variable {x : Session Reporter} {events : List Stimulus}

theorem account_run (h : role.Run (Session.start role s) events x)
    (hrestart : Stimulus.restart ∉ events) :
    ∃ effects notices, x.surroundings.effects = s.effects ++ effects ∧
      Account x.run effects notices := by
  have hkept : ∃ effects, x.surroundings.effects = s.effects ++ effects ∧
      ∃ notices, Account x.run effects notices := by
    refine h.account hrestart (A := fun p effects => ∃ notices, Account p effects notices)
      ⟨[], rfl⟩ ?_
    rintro _ _ _ _ _ ⟨_, hbefore⟩ hstep
    obtain ⟨more, notices, hacts, hafter⟩ := hbefore.move (move_of_step hstep)
    exact ⟨more, hacts, notices, hafter⟩
  obtain ⟨effects, heffects, notices, haccount⟩ := hkept
  exact ⟨effects, notices, heffects, haccount⟩

/-- What can be seen of a reporter that has taken these notices: their texts and a flush for
    each, but for the flush that is still owed. -/
structure Transcript (s : Surroundings) (x : Session Reporter) (notices : List Notice) : Prop where
  taken : (x.deedsSince s).taken = notices
  output : (x.deedsSince s).output = notices.flatMap text
  flushes : (x.deedsSince s).flushes + x.run.owed.length = notices.length
  conduct : (x.deedsSince s).effects ++ x.run.owed = notices.flatMap handling

theorem transcript_of_account {effects : List Effect} {notices : List Notice}
    (heffects : x.surroundings.effects = s.effects ++ effects)
    (haccount : Account x.run effects notices) (hwhole : x.run ≠ .ended (.failed .full)) :
    Transcript s x notices := by
  have hsince := Session.effects_deedsSince heffects
  have hconduct : effects ++ x.run.owed = notices.flatMap handling := by
    unfold Account at haccount
    split at haccount
    · exact absurd ‹_› hwhole
    · exact haccount
  refine ⟨?_, ?_, ?_, ?_⟩
  · rw [Trace.taken_eq_filterMap, hsince, haccount.taken_eq]
  · rw [Trace.output_eq_flatMap, hsince, haccount.written_eq hwhole]
  · have hview := congrArg (List.count .flushed) hconduct
    rw [List.count_append, flushes_handling] at hview
    rw [Trace.flushes_eq_count, hsince, ← hview]
    cases x.run <;> simp [owed]
  · rw [hsince, hconduct]

/-- Unless its writer was full, a reporter has the transcript of the notices it has taken. -/
theorem transcript_of_whole (h : role.Run (Session.start role s) events x)
    (hrestart : Stimulus.restart ∉ events) (hwhole : x.run ≠ .ended (.failed .full)) :
    Transcript s x (x.deedsSince s).taken := by
  obtain ⟨effects, notices, heffects, haccount⟩ := account_run h hrestart
  have htranscript := transcript_of_account heffects haccount hwhole
  rw [htranscript.taken]
  exact htranscript

/-- A writer without a limit and without a failing flush does not stop a reporter. -/
theorem result_of_ended (h : role.Run (Session.start role s) events x)
    (hrestart : Stimulus.restart ∉ events) (hlimit : s.writer.limit = none)
    (hflush : s.writer.failingFlush = none) {result : Ending Unit}
    (hend : x.run = .ended result) : result = .finished () := by
  have hkept := h.invariant hrestart (P := fun y => y.surroundings.writer.limit = none ∧
      y.surroundings.writer.failingFlush = none ∧
      ∀ result, y.run = .ended result → result = .finished ())
    ⟨hlimit, hflush, nofun⟩ ?_ ?_
  · exact hkept.2.2 result hend
  · intro z w stimulus _ hz hchanged
    rw [hchanged.writer_eq, hchanged.run_eq]
    exact hz
  · rintro ⟨u, p⟩ t q hz hstep
    have hmove := move_of_step hstep
    obtain ⟨effects, hacts⟩ := hmove.acts
    refine ⟨hacts.limit_eq.trans hz.1, hacts.failingFlush_eq.trans hz.2.1, ?_⟩
    intro result hended
    -- a cut line takes a limit, a lost flush a failing one
    cases hmove with
    | cut _ _ hne _ _ _ => exact absurd hz.1 hne
    | lose hne _ => exact absurd hz.2.1 hne
    | finish _ _ =>
      cases hended
      rfl
    | _ => cases hended

/-- A reporter ends of itself only when its inbox is closed and drained. -/
theorem drained_of_finished (h : role.Run (Session.start role s) events x)
    (hrestart : Stimulus.restart ∉ events) (hend : x.run = .ended (.finished ())) :
    x.surroundings.inbox.unread = [] ∧ x.surroundings.inbox.isOpen = false := by
  refine h.drained hrestart (P := fun p => p = .ended (.finished ())) nofun ?_ hend
  rintro u t p _ hstep rfl
  cases move_of_step hstep with
  | finish hunread hclosed => exact ⟨hunread, hclosed⟩

/-- What a reporter whose writer does not fail has printed, and what is left for it. -/
theorem output_run (h : role.Run (Session.start role s) events x)
    (hrestart : Stimulus.restart ∉ events) (hlimit : s.writer.limit = none)
    (hflush : s.writer.failingFlush = none) :
    ∃ notices, notices ++ x.surroundings.inbox.unread = s.inbox.received events ∧
      (x.deedsSince s).output = notices.flatMap text := by
  have hwhole : x.run ≠ .ended (.failed .full) := by
    intro hfailed
    cases result_of_ended h hrestart hlimit hflush hfailed
  have htranscript := transcript_of_whole h hrestart hwhole
  exact ⟨_, h.taken_append_unread acting, htranscript.output⟩

end Run

end Reporter

end BrokerLoad

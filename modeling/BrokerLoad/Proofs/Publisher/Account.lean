/-
  BrokerLoad/Proofs/Publisher/Account.lean
  ========================================
  The account of a publisher run: what it has done at every moment.

  Line, call and count of a message change at different moments.  `Standing` is how
  far the message after the counted ones has come, and `Account` ties the deeds of a
  run to the answers it took, to that standing and to the phase it is in.  A step
  keeps it (`Account.move`), so it holds along every run (`account_run`), under any
  writer, any link and any signal.

  `run_accounts` reads off what an observer can count: the lines in print, the calls
  made, and the number of submitted messages, for every state a run can get to.
-/
import BrokerLoad.Proofs.Publisher.Moves
import Mathlib.Data.List.Induction

namespace BrokerLoad

namespace Plan

def announcements (plan : Plan) (n : Nat) : Octets := (List.range' 1 n).flatMap plan.announcement

def submissions (plan : Plan) (n : Nat) : List Call := (List.range' 1 n).map plan.submission

/-- Line and call of each of the first `n` messages, in turn. -/
def dialogue (plan : Plan) (n : Nat) : List Effect :=
  (List.range' 1 n).flatMap fun number =>
    [.wrote (plan.announcement number), .called (plan.submission number)]

variable (plan : Plan) (n : Nat)

theorem announcements_succ :
    plan.announcements (n + 1) = plan.announcements n ++ plan.announcement (n + 1) := by
  simp [announcements, List.range'_1_concat, Nat.add_comm]

theorem announcements_succ_ne : plan.announcements (n + 1) ≠ plan.announcements n := by
  intro h
  rw [announcements_succ, List.append_right_eq_self] at h
  exact plan.announcement_ne_nil _ h

theorem submissions_succ :
    plan.submissions (n + 1) = plan.submissions n ++ [plan.submission (n + 1)] := by
  simp [submissions, List.range'_1_concat, Nat.add_comm]

theorem dialogue_succ :
    plan.dialogue (n + 1) = plan.dialogue n ++
      [.wrote (plan.announcement (n + 1)), .called (plan.submission (n + 1))] := by
  simp [dialogue, List.range'_1_concat, Nat.add_comm]

end Plan

def Effect.isOutward : Effect → Bool
  | wrote _ => true
  | called _ => true
  | _ => false

def Trace.outward (trace : Trace) : List Effect := trace.effects.filter Effect.isOutward

def Outcome.submitted : Outcome → UInt32
  | .completed submitted => submitted
  | .interrupted submitted => submitted

namespace Publisher

variable {plan : Plan}

/-! ### Answered messages -/

/-- What is done for an answered message: its line, its call and the complaint about
    its answer. -/
def exchange (plan : Plan) (number : Nat) (answer : Answer) : List Effect :=
  .wrote (plan.announcement number) :: .called (plan.submission number) ::
    answer.complaint .publishRejected

/-- What is done for the first messages, given their answers. -/
def exchanges (plan : Plan) (answers : List Answer) : List Effect :=
  (answers.zipIdx 1).flatMap fun (answer, number) => exchange plan number answer

theorem exchanges_append (answers : List Answer) (answer : Answer) :
    exchanges plan (answers ++ [answer]) =
      exchanges plan answers ++ exchange plan (answers.length + 1) answer := by
  simp [exchanges, List.zipIdx_append, Nat.add_comm]

section Views

variable (plan : Plan) (answers : List Answer)

theorem written_exchanges :
    (exchanges plan answers).flatMap Effect.written = plan.announcements answers.length := by
  induction answers using List.reverseRecOn with
  | nil => rfl
  | append_singleton answers answer ih =>
    rw [exchanges_append, List.flatMap_append, ih, List.length_append, List.length_singleton,
      plan.announcements_succ]
    cases answer <;> simp [exchange, Answer.complaint, Effect.written]

theorem calls_exchanges :
    (exchanges plan answers).filterMap Effect.call? = plan.submissions answers.length := by
  induction answers using List.reverseRecOn with
  | nil => rfl
  | append_singleton answers answer ih =>
    rw [exchanges_append, List.filterMap_append, ih, List.length_append, List.length_singleton,
      plan.submissions_succ]
    cases answer <;> rfl

theorem outward_exchanges :
    (exchanges plan answers).filter Effect.isOutward = plan.dialogue answers.length := by
  induction answers using List.reverseRecOn with
  | nil => rfl
  | append_singleton answers answer ih =>
    rw [exchanges_append, List.filter_append, ih, List.length_append, List.length_singleton,
      plan.dialogue_succ]
    cases answer <;> rfl

end Views

/-! ### The message in hand -/

/-- How far the message after the answered ones has come. -/
inductive Standing where
  | untouched
  | announced
  | called
  /-- Its line was cut after these octets. -/
  | cut (octets : Octets)

namespace Standing

def lines : Standing → Nat
  | untouched => 0
  | announced => 1
  | called => 1
  | cut _ => 0

def calls : Standing → Nat
  | called => 1
  | _ => 0

def begun : Standing → Nat
  | untouched => 0
  | _ => 1

def effects (plan : Plan) (number : Nat) : Standing → List Effect
  | untouched => []
  | announced => [.wrote (plan.announcement number)]
  | called => [.wrote (plan.announcement number), .called (plan.submission number)]
  | cut octets => Effect.writing octets

def IsWhole : Standing → Prop
  | cut _ => False
  | _ => True

end Standing

/-! ### The account -/

/-- How the message in hand stands in each phase, and what an ended run carries. -/
def Stands (plan : Plan) (p : Publisher) (standing : Standing) : Prop :=
  match p.phase with
  | .between => standing = .untouched
  | .written => standing = .announced
  | .calling => standing = .called
  | .pausing _ => standing = .untouched ∧ 0 < p.submitted.toNat
  | .ended (.finished (.completed submitted)) =>
    submitted = p.submitted ∧ standing = .untouched ∧ p.number = plan.count
  | .ended (.finished (.interrupted submitted)) => submitted = p.submitted ∧ standing.IsWhole
  | .ended (.failed error) =>
    error = .full ∧ ∃ octets, standing = .cut octets ∧
      octets <+: plan.announcement p.number.toNat ∧
      octets.length < (plan.announcement p.number.toNat).length

def epilogue (p : Publisher) : List Effect :=
  match p.phase with
  | .ended (.finished (.interrupted submitted)) => [.reported (.publisherInterrupted submitted)]
  | _ => []

/-- The account of a run `p` that took these answers and did this: line, call and
    complaint of every answered message, then what there is of the next one. -/
structure Account (plan : Plan) (p : Publisher) (effects : List Effect) (answers : List Answer)
    (standing : Standing) : Prop where
  submitted : p.submitted.toNat = answers.length
  number : p.number.toNat = answers.length + standing.begun
  number_le : p.number.toNat ≤ plan.count.toNat
  stands : p.Stands plan standing
  effects_eq : effects =
    exchanges plan answers ++ standing.effects plan (answers.length + 1) ++ p.epilogue

namespace Account

variable {p q : Publisher} {s t : Surroundings} {effects : List Effect} {answers : List Answer}
  {standing : Standing}

theorem start (plan : Plan) : Account plan {} [] [] .untouched where
  submitted := rfl
  number := rfl
  number_le := Nat.zero_le _
  stands := rfl
  effects_eq := rfl

theorem toNat_submitted_succ (h : Account plan p effects answers standing)
    (hbegun : standing.begun = 1) : (p.submitted + 1).toNat = answers.length + 1 := by
  have hcount := plan.count.toNat_lt
  have hnumber := h.number
  have hle := h.number_le
  rw [UInt32.toNat_add, h.submitted, UInt32.toNat_one]
  -- the message in hand is one of the plan's, so the count does not wrap
  exact Nat.mod_eq_of_lt (by omega)

/-- An answer moves the message in hand to the answered ones. -/
theorem answered (h : Account plan p effects answers standing) (answer : Answer)
    {more : List Effect} (hbegun : standing.begun = 1) (hepilogue : p.epilogue = [])
    (hmore : standing.effects plan (answers.length + 1) ++ more =
      exchange plan (answers.length + 1) answer) (now : Nat) :
    Account plan (p.counted plan now) (effects ++ more) (answers ++ [answer]) .untouched where
  submitted := by simpa [counted] using h.toNat_submitted_succ hbegun
  number := by
    have hnumber := h.number
    rw [hbegun] at hnumber
    simpa [counted, Standing.begun] using hnumber
  number_le := h.number_le
  stands := by
    refine ⟨rfl, ?_⟩
    simp only [counted, h.toNat_submitted_succ hbegun]
    exact Nat.succ_pos _
  effects_eq := by
    rw [h.effects_eq, hepilogue, exchanges_append, ← hmore]
    simp [Standing.effects, epilogue, counted]

theorem epilogue_eq_nil {p : Publisher} (h : ∀ result, p.phase ≠ .ended result) :
    p.epilogue = [] := by
  unfold epilogue
  split
  · exact absurd ‹_› (h _)
  · rfl

/-- A run that its writer has not stopped has cut no line. -/
theorem isWhole (h : Account plan p effects answers standing)
    (hgoing : ∀ error, p.phase ≠ .ended (.failed error)) : standing.IsWhole := by
  have hstands := h.stands
  unfold Stands at hstands
  split at hstands
  · exact hstands ▸ trivial
  · exact hstands ▸ trivial
  · exact hstands ▸ trivial
  · exact hstands.1 ▸ trivial
  · exact hstands.2.1 ▸ trivial
  · exact hstands.2
  · exact absurd ‹_› (hgoing _)

/-- Between two messages, the next one has the number after the answered ones. -/
theorem next (h : Account plan p effects answers standing) (hphase : p.phase = .between)
    (hlt : p.number < plan.count) :
    standing = .untouched ∧ p.number.toNat = answers.length ∧
      (p.number + 1).toNat = answers.length + 1 ∧ answers.length + 1 ≤ plan.count.toNat := by
  have hstands := h.stands
  have hnumber := h.number
  have hlt' := UInt32.lt_iff_toNat_lt.mp hlt
  have hsucc := toNat_number_succ hlt
  simp only [Stands, hphase] at hstands
  subst hstands
  simp only [Standing.begun, Nat.add_zero] at hnumber
  exact ⟨rfl, hnumber, by omega, by omega⟩

theorem move (h : Account plan p effects answers standing) (hmove : Move plan s p t q) :
    ∃ more answers' standing', s.Acts more t ∧
      Account plan q (effects ++ more) answers' standing' := by
  have hstands := h.stands
  have hnumber := h.number
  have heffects := h.effects_eq
  cases hmove with
  | interrupt hlooks _ hacts =>
    -- the message in hand stays where it is, and the report is the epilogue
    have hwhole := h.isWhole fun error => hlooks.going (.failed error)
    refine ⟨_, answers, standing, hacts, h.submitted, h.number, h.number_le, ⟨rfl, hwhole⟩, ?_⟩
    rw [heffects, epilogue_eq_nil hlooks.going, List.append_nil]
    rfl
  | announce hphase hlt _ hacts =>
    obtain ⟨rfl, hin, hsucc, hle⟩ := h.next hphase hlt
    refine ⟨_, answers, .announced, hacts, h.submitted, hsucc, ?_, rfl, ?_⟩
    · rwa [hsucc]
    · rw [heffects, hin]
      simp [Standing.effects, epilogue, hphase]
  | cut octets hphase hlt _ _ hinitial hlength hacts =>
    obtain ⟨rfl, hin, hsucc, hle⟩ := h.next hphase hlt
    rw [hin] at hinitial hlength
    refine ⟨_, answers, .cut octets, hacts, h.submitted, hsucc, ?_, ⟨rfl, octets, rfl, ?_⟩, ?_⟩
    · rwa [hsucc]
    · rw [hsucc]
      exact ⟨hinitial, hlength⟩
    · rw [heffects]
      simp [Standing.effects, epilogue, hphase]
  | complete hphase hle ht =>
    subst ht
    simp only [Stands, hphase] at hstands
    -- the number never passes the count, so with none left it has reached it
    have hcount : p.number = plan.count :=
      UInt32.le_antisymm (UInt32.le_iff_toNat_le.mpr h.number_le) hle
    refine ⟨[], answers, standing, .refl _, h.submitted, h.number, h.number_le,
      ⟨rfl, hstands, hcount⟩, ?_⟩
    rw [heffects]
    simp [epilogue, hphase]
  | await hphase _ _ hacts =>
    simp only [Stands, hphase] at hstands
    subst hstands
    have hin : p.number.toNat = answers.length + 1 := hnumber
    refine ⟨_, answers, .called, hacts, h.submitted, h.number, h.number_le, rfl, ?_⟩
    rw [heffects, hin]
    simp [Standing.effects, epilogue, hphase]
  | submit answer hphase _ _ hacts =>
    simp only [Stands, hphase] at hstands
    subst hstands
    have hin : p.number.toNat = answers.length + 1 := hnumber
    refine ⟨_, _, _, hacts, h.answered answer rfl (by simp [epilogue, hphase]) ?_ s.now⟩
    rw [hin]
    rfl
  | conclude answer hphase _ _ hacts =>
    simp only [Stands, hphase] at hstands
    subst hstands
    exact ⟨_, _, _, hacts, h.answered answer rfl (by simp [epilogue, hphase]) rfl s.now⟩
  | proceed deadline hphase _ _ ht =>
    -- the end of a pause leaves the books as they are
    subst ht
    simp only [Stands, hphase] at hstands
    refine ⟨[], answers, standing, .refl _, h.submitted, h.number, h.number_le, hstands.1, ?_⟩
    rw [heffects]
    simp [epilogue, hphase]

/-! ### What an observer counts -/

theorem written (h : Account plan p effects answers standing) (hwhole : standing.IsWhole) :
    effects.flatMap Effect.written = plan.announcements (answers.length + standing.lines) := by
  have hepilogue : p.epilogue.flatMap Effect.written = [] := by
    unfold epilogue
    split <;> rfl
  rw [h.effects_eq, List.flatMap_append, List.flatMap_append, written_exchanges, hepilogue]
  cases standing with
  | untouched => simp [Standing.effects, Standing.lines]
  | announced => simp [Standing.effects, Standing.lines, Effect.written, plan.announcements_succ]
  | called => simp [Standing.effects, Standing.lines, Effect.written, plan.announcements_succ]
  | cut octets => exact hwhole.elim

theorem calls (h : Account plan p effects answers standing) :
    effects.filterMap Effect.call? = plan.submissions (answers.length + standing.calls) := by
  have hepilogue : p.epilogue.filterMap Effect.call? = [] := by
    unfold epilogue
    split <;> rfl
  rw [h.effects_eq, List.filterMap_append, List.filterMap_append, calls_exchanges, hepilogue,
    List.append_nil]
  cases standing with
  | untouched => exact List.append_nil _
  | announced => exact List.append_nil _
  | called => exact (plan.submissions_succ _).symm
  | cut octets => simp [Standing.effects, Standing.calls]

theorem outward (h : Account plan p effects answers standing) (hwhole : standing.IsWhole) :
    effects.filter Effect.isOutward =
      plan.dialogue (answers.length + standing.calls) ++
        if standing.calls < standing.lines then [.wrote (plan.announcement (answers.length + 1))]
        else [] := by
  have hepilogue : p.epilogue.filter Effect.isOutward = [] := by
    unfold epilogue
    split <;> rfl
  rw [h.effects_eq, List.filter_append, List.filter_append, outward_exchanges, hepilogue,
    List.append_nil]
  cases standing with
  | untouched => rfl
  -- a line without its call is the one write that no call follows
  | announced => rfl
  | called => exact (plan.dialogue_succ _).symm.trans (List.append_nil _).symm
  | cut octets => exact hwhole.elim

end Account

/-! ### Whole runs -/

section Run

variable {s : Surroundings} {x : Session Publisher} {events : List Stimulus}

theorem account_run (h : (role plan).Run (Session.start (role plan) s) events x)
    (hrestart : Stimulus.restart ∉ events) :
    ∃ effects answers standing, x.surroundings.effects = s.effects ++ effects ∧
      Account plan x.run effects answers standing := by
  have hkept : ∃ effects, x.surroundings.effects = s.effects ++ effects ∧
      ∃ answers standing, Account plan x.run effects answers standing := by
    refine h.account hrestart
      (A := fun p effects => ∃ answers standing, Account plan p effects answers standing)
      ⟨[], .untouched, .start plan⟩ ?_
    rintro _ _ _ _ _ ⟨_, _, hbefore⟩ hstep
    obtain ⟨more, answers, standing, hacts, hafter⟩ := hbefore.move (move_of_step hstep)
    exact ⟨more, hacts, answers, standing, hafter⟩
  obtain ⟨effects, heffects, answers, standing, haccount⟩ := hkept
  exact ⟨effects, answers, standing, heffects, haccount⟩

/-- A writer without a limit does not stop a run. -/
theorem unlimited_run (h : (role plan).Run (Session.start (role plan) s) events x)
    (hrestart : Stimulus.restart ∉ events) (hlimit : s.writer.limit = none) :
    x.surroundings.writer.limit = none ∧ ∀ error, x.run.phase ≠ .ended (.failed error) := by
  refine h.invariant hrestart (P := fun y => y.surroundings.writer.limit = none ∧
      ∀ error, y.run.phase ≠ .ended (.failed error))
    ⟨hlimit, fun error hphase => by cases hphase⟩ ?_ ?_
  · rintro z w stimulus - ⟨hz, hgoing⟩ hchanged
    rw [hchanged.writer_eq, hchanged.run_eq]
    exact ⟨hz, hgoing⟩
  · rintro z t q ⟨hz, hgoing⟩ hstep
    have hmove := move_of_step hstep
    obtain ⟨more, hacts⟩ := hmove.acts
    refine ⟨hacts.limit_eq.trans hz, fun error hphase => ?_⟩
    -- only a line that is cut ends a run by its writer
    cases hmove with
    | cut _ _ _ _ hne => exact hne hz
    | _ => cases hphase

/-- At every moment of a run that its writer has not stopped, the output is the lines
    of the first `L` messages, the calls are those of the first `C` messages, each
    made after its own line and before the next one, and `S` counts all calls but
    the one that waits, or waited when the run looked at the signal: no message is
    skipped, repeated, reordered or submitted before its line, and at most one line
    is ahead of the count.  A writer without a limit never stops a run. -/
theorem run_accounts (h : (role plan).Run (Session.start (role plan) s) events x)
    (hrestart : Stimulus.restart ∉ events) :
    (s.writer.limit = none → ∀ error, x.run.phase ≠ .ended (.failed error)) ∧
      ((∀ error, x.run.phase ≠ .ended (.failed error)) →
        ∃ L C S, S = x.run.submitted.toNat ∧
          (x.deedsSince s).output = plan.announcements L ∧
          (x.deedsSince s).calls = plan.submissions C ∧
          (x.deedsSince s).outward = plan.dialogue C ++
            (if C < L then [.wrote (plan.announcement L)] else []) ∧
          S ≤ C ∧ C ≤ L ∧ L ≤ S + 1 ∧ L ≤ plan.count.toNat ∧
          (x.run.phase = .calling → L = S + 1 ∧ C = S + 1) ∧
          (∀ deadline, x.run.phase = .pausing deadline → L = S ∧ C = S ∧ 1 ≤ S) ∧
          (∀ outcome, x.run.phase = .ended (.finished outcome) →
            outcome.submitted = x.run.submitted)) := by
  refine ⟨fun hlimit => (unlimited_run h hrestart hlimit).2, fun hgoing => ?_⟩
  obtain ⟨effects, answers, standing, heffects, haccount⟩ := account_run h hrestart
  have hwhole := haccount.isWhole hgoing
  have hsince := Session.effects_deedsSince heffects
  have hnumber := haccount.number
  have hle := haccount.number_le
  have hstands := haccount.stands
  -- the answered messages, and of the one in hand what there is of it
  refine ⟨answers.length + standing.lines, answers.length + standing.calls, answers.length,
    haccount.submitted.symm, ?_, ?_, ?_, ?_, ?_, ?_, ?_, ?_, ?_, ?_⟩
  · rw [Trace.output_eq_flatMap, hsince, haccount.written hwhole]
  · rw [Trace.calls_eq_filterMap, hsince, haccount.calls]
  · rw [Trace.outward, hsince, haccount.outward hwhole]
    cases standing <;> simp [Standing.calls, Standing.lines]
  · exact Nat.le_add_right _ _
  · cases standing <;> simp [Standing.calls, Standing.lines]
  · cases standing <;> simp [Standing.lines]
  · -- a line that is ahead is the line of a message of the plan
    have hlines : standing.lines ≤ standing.begun := by
      cases standing <;> simp [Standing.lines, Standing.begun]
    omega
  · intro hphase
    simp only [Stands, hphase] at hstands
    subst hstands
    exact ⟨rfl, rfl⟩
  · intro deadline hphase
    simp only [Stands, hphase] at hstands
    obtain ⟨rfl, hpos⟩ := hstands
    exact ⟨rfl, rfl, haccount.submitted ▸ hpos⟩
  · intro outcome hphase
    cases outcome <;> simp only [Stands, hphase] at hstands <;> exact hstands.1

/-- The first call was refused late, the second one waits. -/
theorem run_accounts_deferred :
    let plan : Plan := { topic := "t", count := 3, interval := 5, qos := .exactlyOnce }
    let s : Surroundings := { link := .deferred }
    let events : List Stimulus := [.resolve (.refused "full"), .advance 5]
    let x := events.foldl (Session.react (role plan))
      ((Session.start (role plan) s).resume (role plan))
    (role plan).Run (Session.start (role plan) s) events x ∧ Stimulus.restart ∉ events ∧
      (∀ error, x.run.phase ≠ .ended (.failed error)) ∧ x.run.phase = .calling ∧
      (x.deedsSince s).output = plan.announcements 2 ∧
      (x.deedsSince s).calls = plan.submissions 2 := by
  intro plan s events x
  have hrun : (role plan).Run (Session.start (role plan) s) events x :=
    (Role.Run.start.resume.react _).react _
  have hrestart : Stimulus.restart ∉ events := by decide
  have hphase : x.run.phase = .calling := by decide
  have hgoing : ∀ error, x.run.phase ≠ .ended (.failed error) := by
    intro error
    rw [hphase]
    exact nofun
  obtain ⟨L, C, S, hS, houtput, hcalls, -, -, -, -, -, hcalling, -⟩ :=
    (run_accounts hrun hrestart).2 hgoing
  have hsubmitted : S = 1 := hS.trans (by decide)
  obtain ⟨hL, hC⟩ := hcalling hphase
  rw [hL, hsubmitted] at houtput
  rw [hC, hsubmitted] at hcalls
  exact ⟨hrun, hrestart, hgoing, hphase, houtput, hcalls⟩

end Run

end Publisher

end BrokerLoad

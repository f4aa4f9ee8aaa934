/-
  BrokerLoad/Proofs/Subscriber/Succession.lean
  ============================================
  Subscriber runs that follow one another on the same inbox.

  A run can be abandoned anywhere, also while its subscribe call waits, and the next one
  goes on with the inbox as it is.  Nothing is lost between them and nothing is handled
  twice: a notice leaves the inbox in one stint, and with the signal up none leaves it
  at all, so what arrives together with the signal is there for the next run.

  `notices_taken_once` says so for every run with restarts, by its stints.
-/
import BrokerLoad.Proofs.Relay
import BrokerLoad.Proofs.Subscriber.Interruption
import Mathlib.Data.List.Basic

namespace BrokerLoad

namespace Subscriber

variable {topic : String} {s : Surroundings} {x y z : Session Subscriber}
  {events : List Stimulus} {earlier : List (Stint Subscriber)} {stint : Stint Subscriber}

/-! ### Stints that no full writer ended -/

def IsWhole (stint : Stint Subscriber) : Prop := stint.after.run ≠ .ended (.failed .full)

theorem unlimited_run (h : (role topic).Run x events y) (hrestart : Stimulus.restart ∉ events)
    (hlimit : x.surroundings.writer.limit = none) (hstart : x.run ≠ .ended (.failed .full)) :
    y.surroundings.writer.limit = none ∧ y.run ≠ .ended (.failed .full) := by
  refine h.invariant hrestart (P := fun y => y.surroundings.writer.limit = none ∧
    y.run ≠ .ended (.failed .full)) ⟨hlimit, hstart⟩ ?_ ?_
  · rintro z w stimulus - hz hchanged
    rw [hchanged.writer_eq, hchanged.run_eq]
    exact hz
  · rintro ⟨u, p⟩ t q ⟨hlimit, -⟩ hstep
    have hmove := move_of_step hstep
    obtain ⟨_, hacts⟩ := hmove.acts
    refine ⟨hacts.limit_eq.trans hlimit, ?_⟩
    cases hmove with
    | cut _ _ _ hlimited => exact absurd hlimit hlimited
    | _ => simp

theorem whole_of_unlimited (h : (role topic).Relay s events earlier stint)
    (hlimit : s.writer.limit = none) : ∀ each ∈ earlier ++ [stint], IsWhole each := by
  have hall : stint.after.surroundings.writer.limit = none ∧
      ∀ each ∈ earlier ++ [stint], IsWhole each := by
    -- a restart keeps the writer, so the limit is carried from stint to stint
    induction h with
    | first hrestart hrun =>
      obtain ⟨hlimit', hwhole⟩ := unlimited_run hrun hrestart hlimit nofun
      refine ⟨hlimit', fun each hmem => ?_⟩
      obtain rfl := List.mem_singleton.mp hmem
      exact hwhole
    | next _ hrestart hrun ih =>
      obtain ⟨hlimit', hwhole⟩ := unlimited_run hrun hrestart ih.1 nofun
      refine ⟨hlimit', fun each hmem => ?_⟩
      rcases List.mem_append.mp hmem with hbefore | hlast
      · exact ih.2 each hbefore
      · obtain rfl := List.mem_singleton.mp hlast
        exact hwhole
  exact hall.2

/-! ### All stints together -/

theorem taken_of_relay (h : (role topic).Relay s events earlier stint) :
    (stint.after.deedsSince s).taken = (earlier ++ [stint]).flatMap (·.deeds.taken) := by
  simp only [Trace.taken_eq_filterMap]
  rw [h.deedsSince_eq (acting topic), List.filterMap_flatMap]

/-- What was written and called in all is what the notices taken in all call for. -/
theorem transcript_of_relay (h : (role topic).Relay s events earlier stint)
    (hwhole : ∀ each ∈ earlier ++ [stint], IsWhole each) :
    (stint.after.deedsSince s).output =
        ((earlier ++ [stint]).flatMap (·.deeds.taken)).flatMap (text topic) ∧
      (stint.after.deedsSince s).calls =
        ((earlier ++ [stint]).flatMap (·.deeds.taken)).filterMap (request? topic) := by
  have htranscript : ∀ each ∈ earlier ++ [stint], IsWhole each →
      Transcript topic each.before each.after each.deeds.taken :=
    h.forall_stint fun hrestart hrun => transcript_of_whole hrun hrestart
  have hsince := h.deedsSince_eq (acting topic)
  -- both views of the whole are the views of the stints, put one after the other
  constructor
  · rw [Trace.output_eq_flatMap, hsince, List.flatMap_assoc, List.flatMap_assoc]
    apply List.flatMap_congr
    intro each hmem
    rw [← Trace.output_eq_flatMap]
    exact (htranscript each hmem (hwhole each hmem)).output
  · rw [Trace.calls_eq_filterMap, hsince, List.filterMap_flatMap, List.filterMap_flatMap]
    apply List.flatMap_congr
    intro each hmem
    rw [← Trace.calls_eq_filterMap]
    exact (htranscript each hmem (hwhole each hmem)).calls

/-! ### What is left for the next run -/

/-- Once the signal is up, what is unread stays so, and what arrives is added to it. -/
theorem unread_of_raised (hup : y.surroundings.signal.raised = true)
    (h : (role topic).Run y events z) (hrestart : Stimulus.restart ∉ events) :
    z.surroundings.inbox.unread = y.surroundings.inbox.received events := by
  obtain ⟨-, effects, heffects, hnone⟩ := untaken_run hup h hrestart
  have hreceived := h.taken_append_unread (acting topic)
  rw [Trace.taken_eq_filterMap, Session.effects_deedsSince heffects, hnone,
    List.nil_append] at hreceived
  exact hreceived

/-- Let `x` be any state of a run with restarts.  It is a relay, and of its stints the
    following holds.

    The notices taken in them, one stint after the other, and then the unread ones, are
    the notices received.

    Unless a full writer ended one of them, all that was written is the texts of these
    notices, and there is one call for each that asks for one.

    If the signal is up in `x`, the stint takes nothing more as long as it lasts, and
    the run that comes next finds unread what is unread in `x` and what arrives until
    then. -/
theorem notices_taken_once (h : (role topic).Run (Session.start (role topic) s) events x) :
    (∃ earlier stint, stint.after = x ∧ (role topic).Relay s events earlier stint) ∧
      ∀ earlier stint, stint.after = x → (role topic).Relay s events earlier stint →
        let taken := (earlier ++ [stint]).flatMap (·.deeds.taken)
        taken ++ x.surroundings.inbox.unread = s.inbox.received events ∧
          ((∀ each ∈ earlier ++ [stint], IsWhole each) →
            (x.deedsSince s).output = taken.flatMap (text topic) ∧
              (x.deedsSince s).calls = taken.filterMap (request? topic)) ∧
          (s.writer.limit = none → ∀ each ∈ earlier ++ [stint], IsWhole each) ∧
          (x.surroundings.signal.raised = true → ∀ {more z}, Stimulus.restart ∉ more →
            (role topic).Run x more z →
              (Stint.mk stint.before z).deeds.taken = stint.deeds.taken ∧
                (z.change (role topic) .restart).surroundings.inbox.unread =
                  x.surroundings.inbox.received more) := by
  refine ⟨h.relay, ?_⟩
  rintro earlier stint rfl hrelay taken
  refine ⟨?_, transcript_of_relay hrelay, whole_of_unlimited hrelay, ?_⟩
  · -- nothing is lost or taken twice in a run, restarts included
    obtain ⟨effects, heffects, hreceived, -⟩ := h.conserves (acting topic)
    have htaken : taken = effects.filterMap Effect.notice? := by
      rw [← Session.effects_deedsSince heffects, ← Trace.taken_eq_filterMap]
      exact (taken_of_relay hrelay).symm
    rw [htaken]
    exact hreceived
  · intro hup more z hmore hrun
    have hstint : ∀ each ∈ earlier ++ [stint], each.after.surroundings.effects =
        each.before.effects ++ each.deeds.effects :=
      hrelay.forall_stint fun _ hrun => Stint.effects_eq (acting topic) hrun
    have hlast := hstint stint (List.mem_append_right _ (List.mem_singleton_self _))
    -- a restart leaves the inbox as it is
    have hunread : z.surroundings.inbox.unread = _ := unread_of_raised hup hrun hmore
    exact ⟨taken_of_raised hup hrun hmore hlast, hunread⟩

/-- The first run is abandoned while its call waits; a message has arrived together with
    the signal, and the second run handles it. -/
theorem notices_taken_once_after_abandoned_call :
    let s : Surroundings := { link := .deferred }
    let message : Notice := .received "a" [104, 105]
    let before : List Stimulus := [.notice (.connected .success), .shutdown, .notice message]
    let x := (((Session.start (role "t") s).react (role "t")
      (.notice (.connected .success))).change (role "t") .shutdown).change (role "t")
        (.notice message)
    let y := x.react (role "t") .restart
    let first : Stint Subscriber := ⟨s, x⟩
    let second : Stint Subscriber := ⟨x.surroundings.renewed, y⟩
    (role "t").Run (Session.start (role "t") s) (before ++ [.restart]) y ∧
      (role "t").Relay s (before ++ [.restart]) [first] second ∧ x.run = .subscribing ∧
      x.surroundings.signal.raised = true ∧ first.deeds.taken = [.connected .success] ∧
      second.deeds.taken = [message] ∧ y.surroundings.inbox.unread = [] ∧
      (y.deedsSince s).output = [.connected .success, message].flatMap (text "t") ∧
      (y.deedsSince s).calls = [.subscribe "t" .atMostOnce] := by
  intro s message before x y first second
  have hfirst : (role "t").Run (Session.start (role "t") s) before x :=
    ((Role.Run.start.react _).change _).change _
  have hrelay : (role "t").Relay s (before ++ [.restart]) [first] second :=
    .next (.first (by decide) hfirst) List.not_mem_nil Role.Run.start.resume
  obtain ⟨-, hstints⟩ := notices_taken_once (hfirst.react .restart)
  obtain ⟨-, hwhole, hunlimited, -⟩ := hstints [first] second rfl hrelay
  obtain ⟨houtput, hcalls⟩ := hwhole (hunlimited rfl)
  have htaken : ([first] ++ [second]).flatMap (·.deeds.taken) = [.connected .success, message] := by
    decide
  rw [htaken] at houtput hcalls
  exact ⟨hfirst.react .restart, hrelay, by decide, by decide, by decide, by decide, by decide,
    houtput, hcalls⟩

end Subscriber

end BrokerLoad

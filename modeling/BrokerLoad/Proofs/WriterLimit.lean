/-
  BrokerLoad/Proofs/WriterLimit.lean
  ==================================
  What a writer that fills up does to a run.

  Two runs are compared moment by moment: one on a writer that takes everything, and the
  same run on a writer that takes so many octets in all.  They are the same until the free
  one writes an octet more (`Role.Stops.live_limited`).  The step that writes it ends the
  limited run in the middle of a line (`CutShort`), and nothing comes after it.  Since
  every call comes directly after its complete lines, the call of that line is never made.
-/
import BrokerLoad.Proofs.Announcements
import BrokerLoad.Proofs.WriterLimit.Steps

namespace BrokerLoad

variable {σ : Type} {role : Role σ} {full : σ → Prop} {due : σ → Option Call} {limit : Nat}
  {s : Surroundings} {x : Session σ}

def Session.limited (x : Session σ) (limit : Nat) : Session σ :=
  { x with surroundings := x.surroundings.limited limit }

theorem Session.change_limited (x : Session σ) (stimulus : Stimulus) :
    (x.limited limit).change role stimulus = (x.change role stimulus).limited limit := by
  cases stimulus with
  | resolve answer =>
    cases hwaits : role.waits x.run <;> simp [change, limited, Surroundings.limited, hwaits]
  | event event =>
    simp only [change]
    split <;> rfl
  | _ => rfl

namespace Role.Stops

/-- A moment that goes beyond the limit is a step, and it ends the run. -/
theorem next_limited (h : role.Stops full) (hlimit : x.surroundings.writer.limit = none)
    (hroom : x.surroundings.writer.written ≤ limit) (moment : Moment) :
    ((x.next role moment).surroundings.writer.written ≤ limit ∧
        (x.limited limit).next role moment = (x.next role moment).limited limit) ∨
      (moment = .step ∧ full ((x.limited limit).next role .step).run ∧
        x.surroundings.CutAt limit (x.next role .step).surroundings
          ((x.limited limit).next role .step).surroundings) := by
  cases moment with
  | arrival stimulus =>
    refine .inl ⟨?_, x.change_limited stimulus⟩
    rw [Session.next, (x.grew_change role stimulus).written_eq]
    exact hroom
  | step =>
    have hstep := h.step hlimit hroom x.run
    unfold Session.next Session.limited
    dsimp only
    generalize role.activity.step x.surroundings x.run = r at hstep
    generalize role.activity.step (x.surroundings.limited limit) x.run = r' at hstep
    cases hstep with
    | rest => exact .inl ⟨hroom, rfl⟩
    | same hwithin => exact .inl ⟨hwithin, rfl⟩
    | cut hcut hfull => exact .inr ⟨rfl, hfull, hcut⟩

/-- Either the limit is never met, or there is a step that meets it. -/
theorem live_limited (h : role.Stops full) (hlimit : x.surroundings.writer.limit = none)
    (hroom : x.surroundings.writer.written ≤ limit) (moments : List Moment) :
    ((x.live role moments).surroundings.writer.written ≤ limit ∧
        (x.limited limit).live role moments = (x.live role moments).limited limit) ∨
      ∃ before after, moments = before ++ .step :: after ∧
        (x.limited limit).live role before = (x.live role before).limited limit ∧
        full ((x.limited limit).live role (before ++ [.step])).run ∧
        (x.live role before).surroundings.CutAt limit
          (x.live role (before ++ [.step])).surroundings
          ((x.limited limit).live role (before ++ [.step])).surroundings := by
  induction moments generalizing x with
  | nil => exact .inl ⟨hroom, rfl⟩
  | cons moment moments ih =>
    -- the runs are the same moment by moment until the first octet that does not fit
    rcases h.next_limited hlimit hroom moment with ⟨hwithin, hsame⟩ | ⟨rfl, hfull, hcut⟩
    · obtain ⟨_, hgrew⟩ := Role.Acting.grew_next h.acting x moment
      rcases ih (hgrew.limit_eq.trans hlimit) hwithin with hall | ⟨before, after, rfl, hlater⟩
      · left
        rw [Session.live_cons, Session.live_cons, hsame]
        exact hall
      · refine .inr ⟨moment :: before, after, rfl, ?_⟩
        simp only [List.cons_append, Session.live_cons, hsame]
        exact hlater
    · exact .inr ⟨[], moments, rfl, rfl, hfull, hcut⟩

/-- A writer that is full stays full, and no call is made without its lines: after the
    end of the run there is no more output and no more call, also after a restart. -/
theorem mute (h : role.Stops full) (hannounces : role.Announces due)
    (hdue : ∀ {p}, full p → due p = none) (hfull : full x.run)
    (hlimit : x.surroundings.writer.limit = some limit)
    (hspent : x.surroundings.writer.written = limit) (moments : List Moment) :
    ∃ deeds, x.Grew deeds (x.live role moments) ∧ deeds.output = [] ∧ deeds.calls = [] := by
  obtain ⟨deeds, hgrew⟩ := Role.Acting.grew_live h.acting x moments
  -- the writer has taken as many octets as it will ever take
  have houtput : deeds.output = [] := by
    have hwithin := hgrew.within hlimit (Nat.le_of_eq hspent)
    rw [hgrew.written_eq, hspent] at hwithin
    exact List.eq_nil_of_length_eq_zero (by omega)
  refine ⟨deeds, hgrew, houtput, ?_⟩
  obtain ⟨effects, heffects, hannounced⟩ :=
    hannounces.announced_run (hdue hfull) (Session.run_live role x moments)
  obtain rfl : deeds.effects = effects := by
    have hhistory := hgrew.effects_eq
    rw [heffects] at hhistory
    exact (List.append_cancel_left hhistory).symm
  rw [Trace.output_eq_flatMap, List.flatMap_eq_nil_iff] at houtput
  rw [Trace.calls_eq_filterMap, List.filterMap_eq_nil_iff]
  intro effect heffect
  -- a call would come after its lines, and these are not empty
  cases effect with
  | called call =>
    obtain ⟨earlier, later, hsplit⟩ := List.append_of_mem heffect
    obtain ⟨start, rfl⟩ := hannounced.lines_before earlier call later hsplit
    have hlines : call.lines = [] := houtput (.wrote call.lines) (by simp [hsplit])
    exact absurd hlines call.lines_ne_nil
  | _ => rfl

end Role.Stops

/-! ### Side by side -/

/-- `CutShort role full s limit before after`: after the moments `before`, the next step
    goes beyond the limit, and the run on the limited writer ends there. -/
structure CutShort (role : Role σ) (full : σ → Prop) (s : Surroundings) (limit : Nat)
    (before after : List Moment) : Prop where
  /-- Up to there, the runs are the same in everything. -/
  agree : role.after (s.limited limit) before = (role.after s before).limited limit
  /-- The step on one writer and on the other. -/
  cut : (role.after s before).surroundings.CutAt limit
    (role.after s (before ++ [.step])).surroundings
    (role.after (s.limited limit) (before ++ [.step])).surroundings
  ended : full (role.after (s.limited limit) (before ++ [.step])).run
  deeds_eq : (role.after (s.limited limit) (before ++ [.step])).deedsSince s =
    ((role.after s (before ++ [.step])).deedsSince s).cutAfter (limit - s.writer.written)
  /-- The end is the end, unless the run is abandoned for a new one. -/
  rest : .arrival .restart ∉ after →
    (role.after (s.limited limit) (before ++ .step :: after)).run =
        (role.after (s.limited limit) (before ++ [.step])).run ∧
      (role.after (s.limited limit) (before ++ .step :: after)).surroundings.history =
        (role.after (s.limited limit) (before ++ [.step])).surroundings.history
  /-- In any case no octet comes after it, and the call of the cut line is never made. -/
  mute : ∃ deeds, (role.after (s.limited limit) (before ++ [.step])).Grew deeds
      (role.after (s.limited limit) (before ++ .step :: after)) ∧ deeds.output = []
  uncalled : (role.after (s.limited limit) (before ++ .step :: after)).surroundings.history.calls =
    (role.after s before).surroundings.history.calls

/-- What a run on a writer that takes so many octets in all has to do with the same run on
    a writer that takes everything. -/
structure StopsAt (role : Role σ) (full : σ → Prop) (s : Surroundings) (limit : Nat)
    (moments : List Moment) : Prop where
  same : (role.after s moments).surroundings.writer.written ≤ limit →
    role.after (s.limited limit) moments = (role.after s moments).limited limit
  cut : limit < (role.after s moments).surroundings.writer.written →
    ∃ before after, moments = before ++ .step :: after ∧ CutShort role full s limit before after
  output_eq : ((role.after (s.limited limit) moments).deedsSince s).output =
    ((role.after s moments).deedsSince s).output.take (limit - s.writer.written)
  /-- Every call comes directly after its complete lines. -/
  announced : ∀ earlier call later,
    ((role.after (s.limited limit) moments).deedsSince s).effects =
      earlier ++ .called call :: later →
    ∃ start, earlier = start ++ [.wrote call.lines]

theorem Role.Stops.cutShort (h : role.Stops full) (hannounces : role.Announces due)
    (hdue : ∀ {p}, full p → due p = none) {before : List Moment} (after : List Moment)
    (hagree : role.after (s.limited limit) before = (role.after s before).limited limit)
    (hfull : full (role.after (s.limited limit) (before ++ [.step])).run)
    (hcut : (role.after s before).surroundings.CutAt limit
      (role.after s (before ++ [.step])).surroundings
      (role.after (s.limited limit) (before ++ [.step])).surroundings) :
    CutShort role full s limit before after := by
  have hafter : role.after (s.limited limit) (before ++ .step :: after) =
      (role.after (s.limited limit) (before ++ [.step])).live role after := by
    rw [List.append_cons, Role.after_append]
  have hmute : ∃ deeds, (role.after (s.limited limit) (before ++ [.step])).Grew deeds
      (role.after (s.limited limit) (before ++ .step :: after)) ∧ deeds.output = [] ∧
      deeds.calls = [] := by
    rw [hafter]
    apply h.mute hannounces hdue hfull
    · rw [hcut.writer_eq]
    · rw [hcut.writer_eq]
  obtain ⟨deeds, hgrew, houtput, hcalls⟩ := hmute
  refine ⟨hagree, hcut, hfull, ?_, ?_, ⟨deeds, hgrew, houtput⟩, ?_⟩
  · have hfirst := Role.Acting.grew_after h.acting s before
    obtain ⟨deeds, hfree, -, hbound⟩ := hcut.deeds_eq
    have hstill := hcut.still
    rw [hfirst.history_eq, List.append_assoc] at hfree hbound
    rw [hfirst.written_eq] at hbound hstill
    simp only [Session.start] at hfree hbound hstill
    rw [Session.deedsSince_eq hfree, Session.deedsSince_eq hbound,
      Trace.cutAfter_append (by omega), Nat.sub_sub]
  · intro hrestart
    rw [hafter]
    exact Session.live_of_rest (h.rests hfull) hrestart
  · rw [hgrew.history_eq, Trace.calls, List.filterMap_append]
    rw [Trace.calls] at hcalls
    rw [hcalls, List.append_nil]
    exact hcut.quiet.1

/-- After a cut, the limited run has the first octets of the free one, and no more. -/
theorem CutShort.output_eq (hacting : role.Acting) {before after : List Moment}
    (h : CutShort role full s limit before after) :
    ((role.after (s.limited limit) (before ++ .step :: after)).deedsSince s).output =
      ((role.after s (before ++ .step :: after)).deedsSince s).output.take
        (limit - s.writer.written) := by
  have hmet := hacting.grew_after s (before ++ [.step])
  obtain ⟨later, hlater⟩ := hacting.grew_live (role.after s (before ++ [.step])) after
  rw [← Role.after_append, ← List.append_cons] at hlater
  have hended := hacting.grew_after (s.limited limit) (before ++ [.step])
  obtain ⟨rest, hrest, hsilent⟩ := h.mute
  have hfree := (hmet.trans hlater).deedsSince (s := s) rfl
  have hbound := (hended.trans hrest).deedsSince (s := s) rfl
  have hsame : (role.after (s.limited limit) (before ++ [.step])).deedsSince (s.limited limit) =
    (role.after (s.limited limit) (before ++ [.step])).deedsSince s := rfl
  -- the octets that fit are all from before the cut
  have hlong : limit - s.writer.written ≤
      ((role.after s (before ++ [.step])).deedsSince s).output.length := by
    have hbeyond := h.cut.beyond
    rw [hmet.written_eq] at hbeyond
    simp only [Session.start] at hbeyond
    omega
  rw [hfree, hbound, hsame, h.deeds_eq, Trace.output_append, Trace.output_append, hsilent,
    List.append_nil, Trace.output_cutAfter, List.take_append_of_le_length hlong]

theorem Role.Stops.stopsAt (h : role.Stops full) (hannounces : role.Announces due)
    (hdue : ∀ {p}, full p → due p = none) (hlimit : s.writer.limit = none)
    (hroom : s.writer.written ≤ limit) (moments : List Moment) :
    StopsAt role full s limit moments := by
  have hannounced : ∀ earlier call later,
      ((role.after (s.limited limit) moments).deedsSince s).effects =
        earlier ++ .called call :: later →
      ∃ start, earlier = start ++ [.wrote call.lines] := by
    have hrun := Session.run_live role (Session.start role (s.limited limit)) moments
    obtain ⟨effects, heffects, hannounced⟩ := hannounces.announced_run hannounces.start hrun
    have hsince : ((role.after (s.limited limit) moments).deedsSince s).effects = effects :=
      Session.effects_deedsSince heffects
    rw [hsince]
    exact hannounced.lines_before
  -- either everything fits, or there is a first step that does not
  rcases h.live_limited (x := Session.start role s) hlimit hroom moments with
    ⟨hwithin, hsame⟩ | ⟨before, after, rfl, hagree, hfull, hcut⟩
  · have hsame' : role.after (s.limited limit) moments = (role.after s moments).limited limit :=
      hsame
    refine ⟨fun _ => hsame, fun hbeyond => absurd hwithin (Nat.not_le.mpr hbeyond), ?_, hannounced⟩
    have hdeeds : ((role.after s moments).limited limit).deedsSince s =
      (role.after s moments).deedsSince s := rfl
    have hgrew := Role.Acting.grew_after h.acting s moments
    have htotal : s.writer.written + ((role.after s moments).deedsSince s).output.length ≤ limit :=
      hgrew.written_eq ▸ hwithin
    rw [hsame', hdeeds, List.take_of_length_le (by omega)]
  · have hshort : CutShort role full s limit before after :=
      h.cutShort hannounces hdue after hagree hfull hcut
    obtain ⟨later, hlater⟩ :=
      Role.Acting.grew_live h.acting (role.after s (before ++ [.step])) after
    rw [← Role.after_append, ← List.append_cons] at hlater
    have hbeyond := hshort.cut.beyond
    have htotal := hlater.written_eq
    refine ⟨fun hwithin => ?_, fun _ => ⟨before, after, rfl, hshort⟩,
      hshort.output_eq h.acting, hannounced⟩
    omega

/-! ### The three runs -/

/-- On a writer that takes `limit` octets in all, every run is the run on a writer that
    takes everything, up to the octet where the latter writes one more. -/
theorem stops_at_limit (s : Surroundings) (limit : Nat) (moments : List Moment)
    (hlimit : s.writer.limit = none) (hroom : s.writer.written ≤ limit) :
    (∀ plan, StopsAt (Publisher.role plan) Publisher.Full s limit moments) ∧
      (∀ topic, StopsAt (Subscriber.role topic) Subscriber.Full s limit moments) ∧
      StopsAt Reporter.role Reporter.Full s limit moments := by
  refine ⟨fun plan => ?_, fun topic => ?_, ?_⟩
  · refine (Publisher.stops plan).stopsAt (Publisher.announces plan) ?_ hlimit hroom moments
    intro p hfull
    have hphase : p.phase = .ended (.failed .full) := hfull
    simp [Publisher.due, hphase]
  · exact (Subscriber.stops topic).stopsAt (Subscriber.announces topic) (fun _ => rfl) hlimit
      hroom moments
  · exact Reporter.stops.stopsAt Reporter.announces (fun _ => rfl) hlimit hroom moments

/-- The limit falls into the second line.  The run ends with ten octets of it in print, and
    with one call made. -/
theorem stops_at_limit_in_second_line :
    let plan : Plan := { topic := "t", count := 2, interval := 0, qos := .exactlyOnce }
    let s : Surroundings := { link := .immediate fun _ => .accepted }
    let moments := List.replicate 8 Moment.step
    s.writer.limit = none ∧ s.writer.written ≤ 50 ∧
      ((Publisher.role plan).after s moments).surroundings.writer.written = 80 ∧
      ((Publisher.role plan).after (s.limited 50) moments).run.Full ∧
      (((Publisher.role plan).after (s.limited 50) moments).deedsSince s).output =
        (plan.announcement 1 ++ plan.announcement 2).take 50 ∧
      (((Publisher.role plan).after (s.limited 50) moments).deedsSince s).calls =
        [plan.submission 1] := by
  intro plan s moments
  have hroom : s.writer.written ≤ 50 := by decide
  obtain ⟨hpublisher, -, -⟩ := stops_at_limit s 50 moments rfl hroom
  have houtput := (hpublisher plan).output_eq
  have hfree : (((Publisher.role plan).after s moments).deedsSince s).output =
    plan.announcement 1 ++ plan.announcement 2 := by decide
  have hended : ((Publisher.role plan).after (s.limited 50) moments).run.phase =
    .ended (.failed .full) := by decide
  rw [hfree] at houtput
  exact ⟨rfl, hroom, by decide, hended, houtput, by decide⟩

end BrokerLoad

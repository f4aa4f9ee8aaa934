/-
  BrokerLoad/Proofs/WriterLimit/Steps.lean
  ========================================
  One step on a writer that takes everything, and the same step on one that does not.

  A step that writes no more than its writer takes is the same on both writers.  A step
  that writes more is cut at the octet (`Surroundings.CutAt`) and ends the run.  There is
  no third way (`StepLimited`), and it is so for all three loops (`Role.Stops`).  A step is
  put together from parts that write nothing (`Unwriting`) and at most one line
  (`StepLimited.write`).
-/
import BrokerLoad.Proofs.Moments
import BrokerLoad.Proofs.Publisher.Moves
import BrokerLoad.Proofs.Reporter.Transcript
import BrokerLoad.Proofs.Subscriber.Moves

namespace BrokerLoad

/-! ### Traces cut short -/

namespace Trace

/-- A trace up to its first `room` octets.  The deed that writes beyond them is cut short,
    and it is the last. -/
def cutAfter (room : Nat) : Trace → Trace
  | [] => []
  | deed :: later =>
    if deed.effect.written.length ≤ room then
      deed :: cutAfter (room - deed.effect.written.length) later
    else
      (Effect.writing (deed.effect.written.take room)).map fun effect => { deed with effect }

variable {trace more : Trace} {room : Nat}

@[simp] theorem output_cons (deed : Deed Effect) (trace : Trace) :
    output (deed :: trace) = deed.effect.written ++ trace.output := rfl

theorem cutAfter_singleton {deed : Deed Effect} (h : room < deed.effect.written.length) :
    cutAfter room [deed] =
      (Effect.writing (deed.effect.written.take room)).map fun effect => { deed with effect } :=
  if_neg (Nat.not_le.mpr h)

theorem output_cutAfter (room : Nat) (trace : Trace) :
    (trace.cutAfter room).output = trace.output.take room := by
  induction trace generalizing room with
  | nil => exact List.take_nil.symm
  | cons deed later ih =>
    rw [cutAfter, output_cons, List.take_append]
    -- a deed that fits is kept whole, and the first that does not is cut
    split
    · rename_i hfits
      rw [output_cons, ih, List.take_of_length_le hfits]
    · rename_i hfits
      rw [Nat.sub_eq_zero_of_le (Nat.le_of_not_le hfits), List.take_zero, List.append_nil, output,
        List.flatMap_map]
      exact Effect.flatMap_written_writing _

theorem cutAfter_append (h : trace.output.length ≤ room) (more : Trace) :
    (trace ++ more).cutAfter room = trace ++ more.cutAfter (room - trace.output.length) := by
  induction trace generalizing room with
  | nil => rfl
  | cons deed later ih =>
    rw [output_cons, List.length_append] at h
    rw [List.cons_append, cutAfter, if_pos (by omega), ih (by omega), output_cons,
      List.length_append, Nat.sub_sub]
    rfl

theorem cutAfter_append_of_lt (h : room < trace.output.length) (more : Trace) :
    (trace ++ more).cutAfter room = trace.cutAfter room := by
  induction trace generalizing room with
  | nil => exact absurd h (Nat.not_lt_zero room)
  | cons deed later ih =>
    rw [output_cons, List.length_append] at h
    rw [List.cons_append, cutAfter, cutAfter]
    split
    · rw [ih (by omega)]
    · rfl

end Trace

/-! ### Writers with a limit -/

@[simp] theorem Effect.filterMap_diagnostic?_writing (octets : Octets) :
    (Effect.writing octets).filterMap Effect.diagnostic? = [] := by
  cases octets <;> rfl

namespace Surroundings

def limited (s : Surroundings) (limit : Nat) : Surroundings :=
  { s with writer.limit := some limit }

variable {s t u : Surroundings} {limit : Nat} {octets : Octets}

@[simp] theorem link_limited : (s.limited limit).link = s.link := rfl

@[simp] theorem inbox_limited : (s.limited limit).inbox = s.inbox := rfl

theorem take?_limited :
    (s.limited limit).take? = s.take?.map fun taken => (taken.1, taken.2.limited limit) := by
  unfold take?
  rw [inbox_limited]
  cases s.inbox.unread <;> rfl

/-- `s.CutAt limit t u`: a step from `s` goes beyond the limit.  On a writer that takes
    everything it leads to `t`.  On a writer that takes so many octets in all it leads to
    `u`: the deeds are cut after the last of these octets, the signal goes up only if that
    octet raises it, the notice that was taken is taken, and nothing else has happened. -/
structure CutAt (s : Surroundings) (limit : Nat) (t u : Surroundings) : Prop where
  still : s.writer.written ≤ limit
  beyond : limit < t.writer.written
  deeds_eq : ∃ deeds, t.history = s.history ++ deeds ∧
    t.writer.written = s.writer.written + deeds.output.length ∧
    u.history = s.history ++ deeds.cutAfter (limit - s.writer.written)
  quiet : u.history.calls = s.history.calls ∧ u.history.flushes = s.history.flushes ∧
    u.history.diagnostics = s.history.diagnostics
  writer_eq : u.writer = { s.writer with limit := some limit, written := limit }
  signal_eq : u.signal = { s.signal with
    raised := s.signal.raised ||
      decide (s.writer.written < limit) && s.signal.onOctets.any (· ≤ limit) }
  link_eq : u.link = s.link
  inbox_eq : u.inbox = t.inbox
  now_eq : u.now = s.now

/-- Effects without calls, flushes and reports do not show in these views. -/
theorem views_of_effects {more : List Effect} (h : u.effects = s.effects ++ more)
    (hcalls : more.filterMap Effect.call? = []) (hflushes : more.count .flushed = 0)
    (hdiagnostics : more.filterMap Effect.diagnostic? = []) :
    u.history.calls = s.history.calls ∧ u.history.flushes = s.history.flushes ∧
      u.history.diagnostics = s.history.diagnostics := by
  have heffects : u.history.effects = s.history.effects ++ more := h
  simp only [Trace.calls_eq_filterMap, Trace.flushes_eq_count, Trace.diagnostics_eq_filterMap,
    heffects, List.filterMap_append, List.count_append, hcalls, hflushes, hdiagnostics,
    List.append_nil, Nat.add_zero, and_self]

/-! ### Writing on both writers -/

theorem write_unlimited (hlimit : s.writer.limit = none) (octets : Octets) :
    (s.write octets).2 = none ∧
      (s.write octets).1.writer.written = s.writer.written + octets.length := by
  have hfitting : s.writer.fitting octets = octets := by simp [Writer.fitting, hlimit]
  have hacts := s.acts_write octets
  rw [hfitting] at hacts
  rw [error_write, hfitting, hacts.written_eq, Effect.flatMap_written_writing]
  exact ⟨if_neg (Nat.lt_irrefl _), rfl⟩

theorem write_limited_of_le (hlimit : s.writer.limit = none)
    (hfits : s.writer.written + octets.length ≤ limit) :
    (s.limited limit).write octets = ((s.write octets).1.limited limit, none) := by
  have hall : (s.limited limit).writer.fitting octets = octets :=
    List.take_of_length_le (by simp only [limited]; omega)
  have hfree : s.writer.fitting octets = octets := by simp [Writer.fitting, hlimit]
  unfold write
  rw [hall, hfree]
  dsimp only
  rw [if_neg (Nat.lt_irrefl _)]
  split <;> rfl

/-- What the writer takes of a line that is too long for it. -/
theorem write_limited_of_lt (hroom : s.writer.written ≤ limit)
    (hbeyond : limit < s.writer.written + octets.length) :
    ((s.limited limit).write octets).2 = some .full ∧
      ((s.limited limit).write octets).1.writer =
        { s.writer with limit := some limit, written := limit } ∧
      ((s.limited limit).write octets).1.signal = { s.signal with
        raised := s.signal.raised ||
          decide (s.writer.written < limit) && s.signal.onOctets.any (· ≤ limit) } := by
  have hfitting : (s.limited limit).writer.fitting octets =
      octets.take (limit - s.writer.written) := rfl
  have htaken : (octets.take (limit - s.writer.written)).length = limit - s.writer.written := by
    rw [List.length_take]
    omega
  have hless : limit - s.writer.written < octets.length := by omega
  unfold write
  simp only [hfitting, htaken, if_pos hless]
  -- with no room left nothing is written, and then nothing raises the signal
  by_cases hfull : s.writer.written = limit
  · simp [hfull, limited]
  · have hsome : (octets.take (limit - s.writer.written)).isEmpty = false := by
      rw [List.isEmpty_eq_false_iff, ← List.length_pos_iff, htaken]
      omega
    have hreached : s.writer.written + (limit - s.writer.written) = limit := by omega
    have hbefore : s.writer.written < limit := by omega
    simp [hsome, limited, raiseIf, record, hreached, hbefore]

theorem cutAt_write (hlimit : s.writer.limit = none) (hroom : s.writer.written ≤ limit)
    (hbeyond : limit < s.writer.written + octets.length) :
    s.CutAt limit (s.write octets).1 ((s.limited limit).write octets).1 := by
  obtain ⟨-, hwriter, hsignal⟩ := write_limited_of_lt hroom hbeyond
  have hfree : s.writer.fitting octets = octets := by simp [Writer.fitting, hlimit]
  have hne : octets ≠ [] := by
    rintro rfl
    exact absurd hbeyond (Nat.not_lt.mpr hroom)
  have hacts := s.acts_write octets
  rw [hfree, Effect.writing_of_ne_nil hne] at hacts
  have hbound : (s.limited limit).Acts (Effect.writing (octets.take (limit - s.writer.written)))
      ((s.limited limit).write octets).1 := acts_write _ octets
  have hquiet := views_of_effects hbound.effects_eq (Effect.filterMap_call?_writing _)
    (Effect.count_flushed_writing _) (Effect.filterMap_diagnostic?_writing _)
  refine ⟨hroom, ?_, ⟨_, hacts.history_eq, ?_, ?_⟩, hquiet, hwriter, hsignal, link_write _ _, ?_,
    hbound.now_eq⟩
  · rw [(write_unlimited hlimit octets).2]
    exact hbeyond
  · rw [hacts.written_eq]
    rfl
  · -- the one deed of the free writer is cut where the limited one stops
    have hcut : Trace.cutAfter (limit - s.writer.written) [⟨s.now, .wrote octets⟩] = _ :=
      Trace.cutAfter_singleton (by simp only [Effect.written]; omega)
    rw [hbound.history_eq]
    exact congrArg (s.history ++ ·) hcut.symm
  · rw [inbox_write, inbox_write]
    rfl

/-! ### The rest of a step -/

theorem writer_signal_of_take? {notice : Notice} (h : s.take? = some (notice, t)) :
    t.writer = s.writer ∧ t.signal = s.signal := by
  unfold take? at h
  split at h
  · cases h
  · obtain ⟨-, rfl⟩ := Prod.mk.inj (Option.some.inj h)
    exact ⟨rfl, rfl⟩

namespace CutAt

/-- A notice that is taken before the line is taken on both writers. -/
theorem of_take? {notice : Notice} {taken : Surroundings}
    (htake : s.take? = some (notice, taken)) (h : taken.CutAt limit t u) : s.CutAt limit t u := by
  have htook := acts_take? htake
  obtain ⟨hwriter, hsignal⟩ := writer_signal_of_take? htake
  obtain ⟨deeds, htrace, hwritten, hcut⟩ := h.deeds_eq
  obtain ⟨hcalls, hflushes, hdiagnostics⟩ := views_of_effects htook.effects_eq rfl rfl rfl
  obtain ⟨hcalls', hflushes', hdiagnostics'⟩ := h.quiet
  rw [htook.history_eq, List.append_assoc] at htrace hcut
  rw [hwriter] at hwritten hcut
  refine ⟨hwriter ▸ h.still, h.beyond, ⟨_, htrace, hwritten, ?_⟩, ⟨hcalls'.trans hcalls,
    hflushes'.trans hflushes, hdiagnostics'.trans hdiagnostics⟩, ?_, ?_, ?_, h.inbox_eq,
    h.now_eq.trans htook.now_eq⟩
  · rw [Trace.cutAfter_append (Nat.zero_le _)]
    exact hcut
  · rw [h.writer_eq, hwriter]
  · rw [h.signal_eq, hsignal, hwriter]
  · rw [h.link_eq, link_of_take? htake]

/-- What the free run does after the line in the same step. -/
theorem extend {more : List Effect} {v : Surroundings} (h : s.CutAt limit t u)
    (hmore : t.Acts more v) (hinbox : v.inbox = t.inbox) : s.CutAt limit v u := by
  obtain ⟨deeds, htrace, hwritten, hcut⟩ := h.deeds_eq
  have hstill := h.still
  have hbeyond := h.beyond
  refine ⟨h.still, ?_, ⟨deeds ++ more.map fun effect => ⟨t.now, effect⟩, ?_, ?_, ?_⟩, h.quiet,
    h.writer_eq, h.signal_eq, h.link_eq, h.inbox_eq.trans hinbox.symm, h.now_eq⟩
  · rw [hmore.written_eq]
    omega
  · rw [hmore.history_eq, htrace, List.append_assoc]
  · rw [hmore.written_eq, hwritten, Trace.output_append, List.length_append, Nat.add_assoc,
      Trace.output_timed]
  · rw [hcut, Trace.cutAfter_append_of_lt]
    omega

end CutAt

end Surroundings

/-! ### Single steps -/

/-- What becomes of a step from `s` on a writer that takes so many octets in all: the same
    step, if the octets are enough, and otherwise the end of the run. -/
inductive StepLimited {σ : Type} (full : σ → Prop) (limit : Nat) (s : Surroundings) :
    Option (Surroundings × σ) → Option (Surroundings × σ) → Prop where
  | rest : StepLimited full limit s none none
  | same {after : Surroundings × σ} : after.1.writer.written ≤ limit →
    StepLimited full limit s (some after) (some (after.1.limited limit, after.2))
  | cut {after ended : Surroundings × σ} : s.CutAt limit after.1 ended.1 → full ended.2 →
    StepLimited full limit s (some after) (some ended)

/-- A part of a step that writes nothing and does not look at the writer's limit. -/
structure Unwriting {σ : Type} (act : Surroundings → Surroundings × σ) : Prop where
  limited_eq : ∀ s limit, act (s.limited limit) = ((act s).1.limited limit, (act s).2)
  written_eq : ∀ s, (act s).1.writer.written = s.writer.written

section

variable {σ : Type} {full : σ → Prop} {limit : Nat} {s : Surroundings}

theorem Unwriting.call {next : Surroundings × Option Answer → Surroundings × σ}
    (h : ∀ answer, Unwriting fun s => next (s, answer)) (call : Call) :
    Unwriting fun s => next (s.call call) where
  limited_eq s limit := (h (s.call call).2).limited_eq (s.call call).1 limit
  written_eq s := (h (s.call call).2).written_eq (s.call call).1

theorem Unwriting.flush {next : Surroundings × Option WriterError → Surroundings × σ}
    (h : ∀ error, Unwriting fun s => next (s, error)) : Unwriting fun s => next s.flush where
  limited_eq s limit := (h s.flush.2).limited_eq s.flush.1 limit
  written_eq s := (h s.flush.2).written_eq s.flush.1

theorem Unwriting.stepLimited {act : Surroundings → Surroundings × σ} (h : Unwriting act)
    (hroom : s.writer.written ≤ limit) :
    StepLimited full limit s (some (act s)) (some (act (s.limited limit))) := by
  rw [h.limited_eq]
  exact .same (h.written_eq s ▸ hroom)

namespace StepLimited

theorem ite {condition : Prop} [Decidable condition] {a b a' b' : Option (Surroundings × σ)}
    (ha : StepLimited full limit s a a') (hb : StepLimited full limit s b b') :
    StepLimited full limit s (if condition then a else b) (if condition then a' else b') := by
  split
  · exact ha
  · exact hb

/-- The answer that there may be is taken. -/
theorem answered {conclude : Surroundings → Answer → Surroundings × σ}
    (h : ∀ answer, Unwriting fun s => conclude s answer) (hroom : s.writer.written ≤ limit) :
    StepLimited full limit s (s.link.answer.map (conclude s))
      ((s.limited limit).link.answer.map (conclude (s.limited limit))) := by
  rw [Surroundings.link_limited]
  cases s.link.answer with
  | none => exact .rest
  | some answer => exact (h answer).stepLimited hroom

/-- A line is written, and the run goes on unless the writer is full. -/
theorem write {next : Surroundings × Option WriterError → Surroundings × σ}
    (hlimit : s.writer.limit = none) (hroom : s.writer.written ≤ limit) (octets : Octets)
    (hnext : Unwriting fun s => next (s, none))
    (hacts : ∀ s : Surroundings, ∃ effects, s.Acts effects (next (s, none)).1)
    (hinbox : ∀ s, (next (s, none)).1.inbox = s.inbox)
    (hfull : ∀ s, (next (s, some .full)).1 = s ∧ full (next (s, some .full)).2) :
    StepLimited full limit s (some (next (s.write octets)))
      (some (next ((s.limited limit).write octets))) := by
  obtain ⟨hnone, hwritten⟩ := Surroundings.write_unlimited hlimit octets
  have hwrite : s.write octets = ((s.write octets).1, none) := Prod.ext rfl hnone
  -- on both writers the same step follows, unless the line goes beyond the limit
  by_cases hfits : s.writer.written + octets.length ≤ limit
  · have hsame : next ((s.write octets).1.limited limit, none) = _ := hnext.limited_eq _ limit
    have hwithin : (next ((s.write octets).1, none)).1.writer.written = _ := hnext.written_eq _
    rw [Surroundings.write_limited_of_le hlimit hfits, hsame, hwrite]
    exact .same (by rwa [hwithin, hwritten])
  · have hbeyond := Nat.not_le.mp hfits
    obtain ⟨herror, -, -⟩ := Surroundings.write_limited_of_lt hroom hbeyond
    have hbound : (s.limited limit).write octets =
        (((s.limited limit).write octets).1, some .full) := Prod.ext rfl herror
    have hcut := Surroundings.cutAt_write hlimit hroom hbeyond
    obtain ⟨effects, hmore⟩ := hacts (s.write octets).1
    obtain ⟨hstay, hended⟩ := hfull ((s.limited limit).write octets).1
    rw [hwrite, hbound]
    refine .cut ?_ hended
    rw [hstay]
    exact hcut.extend hmore (hinbox _)

theorem of_take? {notice : Notice} {taken : Surroundings} {a b : Option (Surroundings × σ)}
    (htake : s.take? = some (notice, taken)) (h : StepLimited full limit taken a b) :
    StepLimited full limit s a b := by
  cases h with
  | rest => exact .rest
  | same hwritten => exact .same hwritten
  | cut hcut hfull => exact .cut (hcut.of_take? htake) hfull

end StepLimited

end

/-! ### The loops -/

/-- A loop that a full writer ends, there and then. -/
structure Role.Stops {σ : Type} (role : Role σ) (full : σ → Prop) : Prop where
  acting : role.Acting
  rests : ∀ {p}, full p → ∀ s, role.activity.step s p = none
  step : ∀ {s limit}, s.writer.limit = none → s.writer.written ≤ limit → ∀ p,
    StepLimited full limit s (role.activity.step s p) (role.activity.step (s.limited limit) p)

namespace Publisher

def Full (p : Publisher) : Prop := p.phase = .ended (.failed .full)

theorem unwriting_conclude (plan : Plan) (p : Publisher) (answer : Answer) :
    Unwriting fun s => p.conclude plan s answer where
  limited_eq s limit := by cases answer <;> rfl
  written_eq s := by cases answer <;> rfl

theorem unwriting_submit (plan : Plan) (p : Publisher) : Unwriting (p.submit plan) := by
  have hanswer : ∀ answer, Unwriting fun s => p.afterCall plan (s, answer) := by
    intro answer
    cases answer with
    | none => exact ⟨fun _ _ => rfl, fun _ => rfl⟩
    | some answer => exact unwriting_conclude plan p answer
  exact .call hanswer (plan.submission p.number.toNat)

theorem stops (plan : Plan) : (role plan).Stops Full where
  acting := acting plan
  rests {p} hfull s := by
    have hphase : p.phase = .ended (.failed .full) := hfull
    change p.step plan s = none
    simp only [step, hphase]
  step {s limit} hlimit hroom p := by
    change StepLimited Full limit s (p.step plan s) (p.step plan (s.limited limit))
    have hinterrupt : StepLimited Full limit s (some (p.interrupt s))
        (some (p.interrupt (s.limited limit))) := .same hroom
    unfold step
    cases p.phase with
    | between =>
      refine .ite (.ite hinterrupt ?_) (.same hroom)
      rw [begin_eq_afterAttempt, begin_eq_afterAttempt]
      exact .write hlimit hroom _ ⟨fun _ _ => rfl, fun _ => rfl⟩
        (fun s => ⟨[], .refl s⟩) (fun _ => rfl) fun _ => ⟨rfl, rfl⟩
    | written => exact .ite hinterrupt ((unwriting_submit plan p).stepLimited hroom)
    | calling => exact .ite hinterrupt (.answered (unwriting_conclude plan p) hroom)
    | pausing deadline => exact .ite hinterrupt (.ite (.same hroom) .rest)
    | ended result => exact .rest

end Publisher

namespace Subscriber

def Full (p : Subscriber) : Prop := p = .ended (.failed .full)

theorem unwriting_conclude (answer : Answer) : Unwriting fun s => conclude s answer where
  limited_eq s limit := by cases answer <;> rfl
  written_eq s := by cases answer <;> rfl

theorem inbox_conclude (s : Surroundings) (answer : Answer) :
    (conclude s answer).1.inbox = s.inbox := by
  cases answer <;> rfl

/-- After its lines, a notice has no more to write. -/
theorem unwriting_afterText (topic : String) (notice : Notice) :
    Unwriting fun s => afterText topic notice (s, none) := by
  have hanswer : ∀ answer, Unwriting fun s => afterCall (s, answer) := by
    intro answer
    cases answer with
    | none => exact ⟨fun _ _ => rfl, fun _ => rfl⟩
    | some answer => exact unwriting_conclude answer
  unfold afterText
  dsimp only
  split
  · exact .call hanswer _
  · exact ⟨fun _ _ => rfl, fun _ => rfl⟩

theorem acts_afterText (topic : String) (notice : Notice) (s : Surroundings) :
    ∃ effects, s.Acts effects (afterText topic notice (s, none)).1 := by
  unfold afterText
  dsimp only
  split
  · have hacts := s.acts_call (.subscribe topic .atMostOnce)
    rcases hcall : s.call (.subscribe topic .atMostOnce) with ⟨t, _ | answer⟩ <;>
      rw [hcall] at hacts
    · exact ⟨_, hacts⟩
    · exact ⟨_, hacts.trans (acts_conclude t answer)⟩
  · exact ⟨[], .refl s⟩

theorem inbox_afterText (topic : String) (notice : Notice) (s : Surroundings) :
    (afterText topic notice (s, none)).1.inbox = s.inbox := by
  unfold afterText
  dsimp only
  split
  · have hinbox := s.inbox_call (.subscribe topic .atMostOnce)
    rcases hcall : s.call (.subscribe topic .atMostOnce) with ⟨t, _ | answer⟩ <;>
      rw [hcall] at hinbox
    · exact hinbox
    · exact (inbox_conclude t answer).trans hinbox
  · rfl

theorem unwriting_flush : Unwriting fun s => afterFlush s.flush := by
  refine Unwriting.flush ?_
  intro error
  cases error <;> exact ⟨fun _ _ => rfl, fun _ => rfl⟩

theorem stops (topic : String) : (role topic).Stops Full where
  acting := acting topic
  rests {p} hfull s := by
    obtain rfl : p = .ended (.failed .full) := hfull
    rfl
  step {s limit} hlimit hroom p := by
    change StepLimited Full limit s (step topic s p) (step topic (s.limited limit) p)
    cases p with
    | listening =>
      refine .ite (.same hroom) ?_
      rw [Surroundings.take?_limited]
      rcases htake : s.take? with _ | ⟨notice, taken⟩
      · exact .ite .rest (.same hroom)
      · obtain ⟨hwriter, -⟩ := Surroundings.writer_signal_of_take? htake
        exact .of_take? htake (.write (hwriter ▸ hlimit) (hwriter ▸ hroom) (text topic notice)
          (unwriting_afterText topic notice) (acts_afterText topic notice)
          (inbox_afterText topic notice) fun _ => ⟨rfl, rfl⟩)
    | subscribing => exact .answered unwriting_conclude hroom
    | flushing => exact unwriting_flush.stepLimited hroom
    | ended result => exact .rest

end Subscriber

namespace Reporter

def Full (p : Reporter) : Prop := p = .ended (.failed .full)

theorem unwriting_flush : Unwriting fun s => unlessFailed .listening s.flush := by
  refine Unwriting.flush ?_
  intro error
  cases error <;> exact ⟨fun _ _ => rfl, fun _ => rfl⟩

theorem stops : role.Stops Full where
  acting := acting
  rests {p} hfull s := by
    obtain rfl : p = .ended (.failed .full) := hfull
    rfl
  step {s limit} hlimit hroom p := by
    change StepLimited Full limit s (step s p) (step (s.limited limit) p)
    cases p with
    | listening =>
      unfold step
      rw [Surroundings.take?_limited]
      rcases htake : s.take? with _ | ⟨notice, taken⟩
      · exact .ite .rest (.same hroom)
      · obtain ⟨hwriter, -⟩ := Surroundings.writer_signal_of_take? htake
        exact .of_take? htake (.write (hwriter ▸ hlimit) (hwriter ▸ hroom) (text notice)
          ⟨fun _ _ => rfl, fun _ => rfl⟩ (fun s => ⟨[], .refl s⟩) (fun _ => rfl)
          fun _ => ⟨rfl, rfl⟩)
    | flushing => exact unwriting_flush.stepLimited hroom
    | ended result => exact .rest

end Reporter

end BrokerLoad

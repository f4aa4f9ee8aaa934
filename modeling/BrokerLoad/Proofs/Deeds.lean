/-
  BrokerLoad/Proofs/Deeds.lean
  ============================
  What every act on the surroundings adds to the trace, and what it leaves alone.

  The proofs about runs never open an act again.  They use two facts about it from
  here: the effects it adds, with all that it leaves alone (`Acts`, and one lemma for
  each act), and, for a write, the alternative between a line that is in print and
  one that was cut (`write_cases`).
-/
import BrokerLoad.Surroundings

namespace BrokerLoad

/-! ### Views by effects

The views of a trace do not look at the clock, so each of them can be read off the
effects alone. -/

namespace Trace

def effects (trace : Trace) : List Effect := trace.map (·.effect)

theorem output_eq_flatMap (trace : Trace) :
    trace.output = trace.effects.flatMap Effect.written := by
  simp [output, effects, List.flatMap_map]

theorem calls_eq_filterMap (trace : Trace) :
    trace.calls = trace.effects.filterMap Effect.call? := by
  rw [calls, effects, List.filterMap_map]
  rfl

theorem taken_eq_filterMap (trace : Trace) :
    trace.taken = trace.effects.filterMap Effect.notice? := by
  rw [taken, effects, List.filterMap_map]
  rfl

theorem diagnostics_eq_filterMap (trace : Trace) :
    trace.diagnostics = trace.effects.filterMap Effect.diagnostic? := by
  rw [diagnostics, effects, List.filterMap_map]
  rfl

theorem flushes_eq_count (trace : Trace) : trace.flushes = trace.effects.count .flushed := by
  simp [flushes, effects, List.count_eq_countP, List.countP_map, Function.comp_def]

variable {trace later : Trace} {more : List Effect}

theorem output_of_append (h : later.effects = trace.effects ++ more) :
    later.output = trace.output ++ more.flatMap Effect.written := by
  rw [output_eq_flatMap, h, List.flatMap_append, output_eq_flatMap]

theorem calls_of_append (h : later.effects = trace.effects ++ more) :
    later.calls = trace.calls ++ more.filterMap Effect.call? := by
  rw [calls_eq_filterMap, h, List.filterMap_append, calls_eq_filterMap]

end Trace

/-! ### Reports left out -/

def Effect.unreported (effects : List Effect) : List Effect :=
  effects.filter (·.diagnostic?.isNone)

namespace Effect

variable (effects more : List Effect)

@[simp] theorem unreported_append :
    unreported (effects ++ more) = unreported effects ++ unreported more :=
  List.filter_append _ _

theorem flatMap_written_unreported :
    (unreported effects).flatMap written = effects.flatMap written := by
  induction effects with
  | nil => rfl
  | cons effect effects ih =>
    cases effect with
    | reported diagnostic => exact ih
    | _ => exact congrArg (_ ++ ·) ih

theorem filterMap_call?_unreported :
    (unreported effects).filterMap call? = effects.filterMap call? := by
  induction effects with
  | nil => rfl
  | cons effect effects ih =>
    cases effect with
    | called call => exact congrArg (call :: ·) ih
    | _ => exact ih

theorem filterMap_notice?_unreported :
    (unreported effects).filterMap notice? = effects.filterMap notice? := by
  induction effects with
  | nil => rfl
  | cons effect effects ih =>
    cases effect with
    | took notice => exact congrArg (notice :: ·) ih
    | _ => exact ih

theorem count_flushed_unreported :
    (unreported effects).count .flushed = effects.count .flushed :=
  List.count_filter rfl

end Effect

/-- The effects of writing some octets: none, if there are none. -/
def Effect.writing (octets : Octets) : List Effect :=
  if octets.isEmpty then [] else [.wrote octets]

theorem Effect.writing_of_ne_nil {octets : Octets} (h : octets ≠ []) :
    Effect.writing octets = [.wrote octets] :=
  if_neg (by simpa using h)

@[simp] theorem Effect.flatMap_written_writing (octets : Octets) :
    (Effect.writing octets).flatMap Effect.written = octets := by
  cases octets <;> simp [Effect.writing, Effect.written]

@[simp] theorem Effect.filterMap_call?_writing (octets : Octets) :
    (Effect.writing octets).filterMap Effect.call? = [] := by
  cases octets <;> simp [Effect.writing, Effect.call?]

@[simp] theorem Effect.filterMap_notice?_writing (octets : Octets) :
    (Effect.writing octets).filterMap Effect.notice? = [] := by
  cases octets <;> simp [Effect.writing, Effect.notice?]

@[simp] theorem Effect.count_flushed_writing (octets : Octets) :
    (Effect.writing octets).count .flushed = 0 := by
  cases octets <;> simp [Effect.writing]

@[simp] theorem Effect.unreported_writing (octets : Octets) :
    Effect.unreported (Effect.writing octets) = Effect.writing octets := by
  cases octets <;> rfl

/-- The complaint about an answer: none about an acceptance, the reason of a refusal. -/
def Answer.complaint (rejected : String → Diagnostic) : Answer → List Effect
  | .accepted => []
  | .refused reason => [.reported (rejected reason)]

@[simp] theorem Effect.filterMap_call?_complaint (rejected : String → Diagnostic)
    (answer : Answer) : (answer.complaint rejected).filterMap Effect.call? = [] := by
  cases answer <;> rfl

@[simp] theorem Effect.count_flushed_complaint (rejected : String → Diagnostic)
    (answer : Answer) : (answer.complaint rejected).count .flushed = 0 := by
  cases answer <;> rfl

@[simp] theorem Effect.unreported_complaint (rejected : String → Diagnostic) (answer : Answer) :
    Effect.unreported (answer.complaint rejected) = [] := by
  cases answer <;> rfl

theorem Writer.fitting_initial (w : Writer) (octets : Octets) : w.fitting octets <+: octets := by
  unfold Writer.fitting
  split
  · exact List.prefix_refl _
  · exact List.take_prefix _ _

namespace Surroundings

/-! ### Acts -/

def effects (s : Surroundings) : List Effect := s.history.effects

/-- `s.Acts effects t`: acts of a run with these effects lead from `s` to `t`.  The
    clock, the limits of the writer, what the signal is set to and what the link
    answers at once are as they were, and the signal is not lowered.  A signal that
    is set to nothing is not raised, either.  The inbox gives up, from its head, the
    notices that were taken.  The link counts the calls, the writer counts the flushes asked
    for and the octets it took, and keeps to its limit. -/
structure Acts (s : Surroundings) (effects : List Effect) (t : Surroundings) : Prop where
  history_eq : t.history = s.history ++ effects.map fun effect => { time := s.now, effect }
  now_eq : t.now = s.now
  limit_eq : t.writer.limit = s.writer.limit
  failingFlush_eq : t.writer.failingFlush = s.writer.failingFlush
  onOctets_eq : t.signal.onOctets = s.signal.onOctets
  onCall_eq : t.signal.onCall = s.signal.onCall
  atOnce_eq : t.link.atOnce = s.link.atOnce
  raised : s.signal.raised = true → t.signal.raised = true
  quiet : s.signal.onOctets = none → s.signal.onCall = none →
    t.signal.raised = s.signal.raised
  unread_eq : s.inbox.unread = effects.filterMap Effect.notice? ++ t.inbox.unread
  isOpen_eq : t.inbox.isOpen = s.inbox.isOpen
  made_eq : t.link.made = s.link.made + (effects.filterMap Effect.call?).length
  flushes_eq : t.writer.flushes = s.writer.flushes + effects.count .flushed
  written_eq : t.writer.written = s.writer.written + (effects.flatMap Effect.written).length
  within : ∀ {limit}, s.writer.limit = some limit → s.writer.written ≤ limit →
    t.writer.written ≤ limit

namespace Acts

variable {s t u : Surroundings} {first second effects : List Effect}

theorem effects_eq (h : s.Acts effects t) : t.effects = s.effects ++ effects := by
  rw [Surroundings.effects, h.history_eq]
  simp [Surroundings.effects, Trace.effects, Function.comp_def]

theorem refl (s : Surroundings) : s.Acts [] s :=
  ⟨by simp, rfl, rfl, rfl, rfl, rfl, rfl, id, fun _ _ => rfl, rfl, rfl, rfl, rfl, rfl,
    fun _ => id⟩

theorem trans (h : s.Acts first t) (g : t.Acts second u) : s.Acts (first ++ second) u where
  history_eq := by rw [g.history_eq, h.history_eq, h.now_eq, List.map_append, List.append_assoc]
  now_eq := g.now_eq.trans h.now_eq
  limit_eq := g.limit_eq.trans h.limit_eq
  failingFlush_eq := g.failingFlush_eq.trans h.failingFlush_eq
  onOctets_eq := g.onOctets_eq.trans h.onOctets_eq
  onCall_eq := g.onCall_eq.trans h.onCall_eq
  atOnce_eq := g.atOnce_eq.trans h.atOnce_eq
  raised := g.raised ∘ h.raised
  quiet hoctets hcall :=
    (g.quiet (h.onOctets_eq ▸ hoctets) (h.onCall_eq ▸ hcall)).trans (h.quiet hoctets hcall)
  unread_eq := by rw [h.unread_eq, g.unread_eq, List.filterMap_append, List.append_assoc]
  isOpen_eq := g.isOpen_eq.trans h.isOpen_eq
  made_eq := by
    rw [g.made_eq, h.made_eq, List.filterMap_append, List.length_append, Nat.add_assoc]
  flushes_eq := by rw [g.flushes_eq, h.flushes_eq, List.count_append, Nat.add_assoc]
  written_eq := by
    rw [g.written_eq, h.written_eq, List.flatMap_append, List.length_append, Nat.add_assoc]
  within hlimit hroom := g.within (h.limit_eq.trans hlimit) (h.within hlimit hroom)

end Acts

/-- The signal is down and set to nothing, and the writer does not fail. -/
structure Calm (s : Surroundings) : Prop where
  down : s.signal.raised = false
  onOctets_eq : s.signal.onOctets = none
  onCall_eq : s.signal.onCall = none
  limit_eq : s.writer.limit = none
  failingFlush_eq : s.writer.failingFlush = none

/-- A run does not disturb calm surroundings. -/
theorem Acts.calm {s t : Surroundings} {effects : List Effect} (h : s.Acts effects t)
    (hcalm : s.Calm) : t.Calm where
  down := (h.quiet hcalm.onOctets_eq hcalm.onCall_eq).trans hcalm.down
  onOctets_eq := h.onOctets_eq.trans hcalm.onOctets_eq
  onCall_eq := h.onCall_eq.trans hcalm.onCall_eq
  limit_eq := h.limit_eq.trans hcalm.limit_eq
  failingFlush_eq := h.failingFlush_eq.trans hcalm.failingFlush_eq

theorem acts_report (s : Surroundings) (diagnostic : Diagnostic) :
    s.Acts [.reported diagnostic] (s.report diagnostic) :=
  ⟨by simp [history, report, record], rfl, rfl, rfl, rfl, rfl, rfl, id, fun _ _ => rfl, rfl, rfl,
    rfl, rfl, rfl, fun _ => id⟩

/-- Forgetting an answer that was taken leaves no deed. -/
theorem acts_answered (s : Surroundings) : s.Acts [] { s with link.answer := none } :=
  ⟨by simp [history], rfl, rfl, rfl, rfl, rfl, rfl, id, fun _ _ => rfl, rfl, rfl, rfl, rfl, rfl,
    fun _ => id⟩

theorem acts_write (s : Surroundings) (octets : Octets) :
    s.Acts (Effect.writing (s.writer.fitting octets)) (s.write octets).1 := by
  unfold write Effect.writing
  dsimp only
  split
  · exact .refl s
  · refine ⟨by simp [history, record, raiseIf], rfl, rfl, rfl, rfl, rfl, rfl, ?_, ?_, rfl, rfl,
      rfl, rfl, by simp [raiseIf, record, Effect.written], ?_⟩
    · intro hraised
      simp [raiseIf, record, hraised]
    · intro hoctets _
      simp [raiseIf, record, hoctets]
    · intro limit hlimit hroom
      simp only [raiseIf, record, Writer.fitting, hlimit, List.length_take]
      omega

theorem acts_flush (s : Surroundings) : s.Acts [.flushed] s.flush.1 :=
  ⟨by simp [history, flush, record], rfl, rfl, rfl, rfl, rfl, rfl, id, fun _ _ => rfl, rfl, rfl,
    rfl, rfl, rfl, fun _ => id⟩

theorem acts_call (s : Surroundings) (call : Call) : s.Acts [.called call] (s.call call).1 := by
  refine ⟨by simp [history, Surroundings.call, record, raiseIf], rfl, rfl, rfl, rfl, rfl, rfl,
    ?_, ?_, rfl, rfl, rfl, rfl, rfl, fun _ => id⟩
  · intro hraised
    simp [Surroundings.call, raiseIf, record, hraised]
  · intro _ hcall
    simp [Surroundings.call, raiseIf, record, hcall]

theorem acts_take? {s t : Surroundings} {notice : Notice} (h : s.take? = some (notice, t)) :
    s.Acts [.took notice] t := by
  unfold take? at h
  split at h
  · cases h
  · rename_i hunread
    obtain ⟨rfl, rfl⟩ := Prod.mk.inj (Option.some.inj h)
    exact ⟨by simp [history, record], rfl, rfl, rfl, rfl, rfl, rfl, id, fun _ _ => rfl, hunread,
      rfl, rfl, rfl, rfl, fun _ => id⟩

theorem unread_of_take? {s : Surroundings} (h : s.take? = none) : s.inbox.unread = [] := by
  unfold take? at h
  split at h
  · assumption
  · cases h

theorem link_of_take? {s t : Surroundings} {notice : Notice} (h : s.take? = some (notice, t)) :
    t.link = s.link := by
  unfold take? at h
  split at h
  · cases h
  · obtain ⟨-, rfl⟩ := Prod.mk.inj (Option.some.inj h)
    rfl

theorem link_write (s : Surroundings) (octets : Octets) : (s.write octets).1.link = s.link := by
  unfold write
  dsimp only
  split <;> rfl

/-! ### Writing a line -/

theorem error_write (s : Surroundings) (octets : Octets) :
    (s.write octets).2 =
      if (s.writer.fitting octets).length < octets.length then some .full else none := by
  unfold write
  dsimp only
  split <;> rfl

/-- A write either puts all octets into print, or the writer is full and only a part
    of them got through.  A writer without a limit is never full. -/
theorem write_cases (s : Surroundings) (octets : Octets) :
    ((s.write octets).2 = none ∧ s.Acts (Effect.writing octets) (s.write octets).1) ∨
      ((s.write octets).2 = some .full ∧ s.writer.limit ≠ none ∧
        ∃ cut, cut <+: octets ∧ cut.length < octets.length ∧
          s.Acts (Effect.writing cut) (s.write octets).1) := by
  have hinitial := s.writer.fitting_initial octets
  have hacts := s.acts_write octets
  rw [s.error_write octets]
  by_cases hfits : (s.writer.fitting octets).length < octets.length
  · right
    refine ⟨if_pos hfits, ?_, s.writer.fitting octets, hinitial, hfits, hacts⟩
    intro hlimit
    simp [Writer.fitting, hlimit] at hfits
  · left
    have hall : s.writer.fitting octets = octets :=
      hinitial.eq_of_length (Nat.le_antisymm hinitial.length_le (Nat.le_of_not_lt hfits))
    rw [hall] at hacts
    exact ⟨if_neg hfits, hacts⟩

end Surroundings

end BrokerLoad

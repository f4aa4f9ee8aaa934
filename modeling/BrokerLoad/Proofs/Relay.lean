/-
  BrokerLoad/Proofs/Relay.lean
  ============================
  Runs that follow one another in the same surroundings.

  A restart abandons a run, wherever it is, for a new one in the surroundings that the
  abandoned run leaves behind.  A `Stint` is one of these runs from its beginning to
  where it was abandoned, and a `Role.Relay` is a number of stints in a row.  Every run
  with restarts is a relay (`Role.Run.relay`), and what was done in all is what was
  done in the stints, one after the other (`Role.Relay.effects_eq`).
-/
import BrokerLoad.Proofs.Runs

namespace BrokerLoad

variable {σ : Type} {role : Role σ} {s : Surroundings} {x y : Session σ}
  {events more : List Stimulus}

/-- A run from its beginning to the session in which it was abandoned, or is now. -/
structure Stint (σ : Type) where
  before : Surroundings
  after : Session σ

def Stint.deeds (stint : Stint σ) : Trace := stint.after.deedsSince stint.before

theorem Stint.effects_eq (hacting : role.Acting)
    (h : role.Run (Session.start role s) events x) :
    x.surroundings.effects = s.effects ++ (Stint.mk s x).deeds.effects := by
  obtain ⟨effects, heffects, -⟩ := h.conserves hacting
  have hdeeds : (Stint.mk s x).deeds.effects = effects := Session.effects_deedsSince heffects
  rw [hdeeds]
  exact heffects

/-- `role.Relay s events earlier stint`: from the surroundings `s` on, the earlier stints
    and then the last one took place, each from the surroundings that the one before it
    left behind, and none with a restart in it. -/
inductive Role.Relay (role : Role σ) (s : Surroundings) :
    List Stimulus → List (Stint σ) → Stint σ → Prop where
  | first {events : List Stimulus} {x : Session σ} : Stimulus.restart ∉ events →
    role.Run (Session.start role s) events x → Relay role s events [] ⟨s, x⟩
  | next {events more : List Stimulus} {earlier : List (Stint σ)} {stint : Stint σ}
    {y : Session σ} : Relay role s events earlier stint → Stimulus.restart ∉ more →
    role.Run (Session.start role stint.after.surroundings.renewed) more y →
    Relay role s (events ++ .restart :: more) (earlier ++ [stint])
      ⟨stint.after.surroundings.renewed, y⟩

namespace Role.Relay

variable {earlier : List (Stint σ)} {stint : Stint σ}

theorem extend (h : role.Relay s events earlier stint) (hrestart : Stimulus.restart ∉ more)
    (hrun : role.Run stint.after more y) :
    role.Relay s (events ++ more) earlier ⟨stint.before, y⟩ := by
  -- the last stint goes on, whether it is the first or a later one
  cases h with
  | first hevents hfirst =>
    refine .first ?_ (hfirst.trans hrun)
    rw [List.mem_append, not_or]
    exact ⟨hevents, hrestart⟩
  | next hrelay hevents hlast =>
    rw [List.append_assoc, List.cons_append]
    refine .next hrelay ?_ (hlast.trans hrun)
    rw [List.mem_append, not_or]
    exact ⟨hevents, hrestart⟩

/-- What holds of every run without a restart holds of every stint. -/
theorem forall_stint (h : role.Relay s events earlier stint) {P : Stint σ → Prop}
    (hrun : ∀ {before more x}, Stimulus.restart ∉ more →
      role.Run (Session.start role before) more x → P ⟨before, x⟩) :
    ∀ each ∈ earlier ++ [stint], P each := by
  induction h with
  | first hevents hfirst =>
    intro each hmem
    obtain rfl := List.mem_singleton.mp hmem
    exact hrun hevents hfirst
  | next _ hevents hlast ih =>
    intro each hmem
    rcases List.mem_append.mp hmem with hbefore | hlast'
    · exact ih each hbefore
    · obtain rfl := List.mem_singleton.mp hlast'
      exact hrun hevents hlast

/-- All that was done was done in the stints, one after the other. -/
theorem effects_eq (hacting : role.Acting) (h : role.Relay s events earlier stint) :
    stint.after.surroundings.effects =
      s.effects ++ (earlier ++ [stint]).flatMap (·.deeds.effects) := by
  induction h with
  | first _ hfirst =>
    rw [List.nil_append, List.flatMap_singleton]
    exact Stint.effects_eq hacting hfirst
  | @next _ _ earlier stint y _ _ hlast ih =>
    -- a restart leaves what was done as it is
    have hrenewed : stint.after.surroundings.renewed.effects = stint.after.surroundings.effects :=
      rfl
    rw [Stint.effects_eq hacting hlast, hrenewed, ih]
    simp only [List.flatMap_append, List.flatMap_singleton, List.append_assoc]

theorem deedsSince_eq (hacting : role.Acting) (h : role.Relay s events earlier stint) :
    (stint.after.deedsSince s).effects = (earlier ++ [stint]).flatMap (·.deeds.effects) :=
  Session.effects_deedsSince (h.effects_eq hacting)

end Role.Relay

/-- Every run is a relay: its restarts are where one stint gives way to the next. -/
theorem Role.Run.relay (h : role.Run (Session.start role s) events x) :
    ∃ earlier stint, stint.after = x ∧ role.Relay s events earlier stint := by
  induction h with
  | start => exact ⟨[], ⟨s, _⟩, rfl, .first List.not_mem_nil .start⟩
  | @change events y stimulus _ ih =>
    obtain ⟨earlier, stint, rfl, hrelay⟩ := ih
    -- only a restart begins another stint; anything else extends the last one
    by_cases hrestart : stimulus = .restart
    · subst hrestart
      exact ⟨earlier ++ [stint], ⟨stint.after.surroundings.renewed, _⟩, rfl,
        .next hrelay List.not_mem_nil .start⟩
    · have hother : Stimulus.restart ∉ [stimulus] := by
        rw [List.mem_singleton]
        exact Ne.symm hrestart
      exact ⟨earlier, ⟨stint.before, _⟩, rfl, hrelay.extend hother (Role.Run.start.change _)⟩
  | @step events y t p _ hstep ih =>
    obtain ⟨earlier, stint, rfl, hrelay⟩ := ih
    have hlater := hrelay.extend List.not_mem_nil (Role.Run.start.step hstep)
    rw [List.append_nil] at hlater
    exact ⟨earlier, ⟨stint.before, _⟩, rfl, hlater⟩

end BrokerLoad

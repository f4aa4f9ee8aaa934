/-
  BrokerLoad/Proofs/Subscriber/Attention.lean
  ===========================================
  A subscriber takes the answer to every call that it makes.

  It does not look at the signal while a call waits, so it leaves a call only with the
  answer.  Between two steps at most the last call is unanswered (`unanswered`), and a step
  that makes a call or takes an answer keeps the books on that (`attends_of_step`).  So the
  answers that a run has taken are those to its calls, in order and without a gap, up to the
  one that waits (`attends_live`).
-/
import BrokerLoad.Proofs.Answers.Hearing

namespace BrokerLoad.Subscriber

variable {topic : String} {s t u : Surroundings} {p q r : Subscriber}
  {effects more : List Effect} {heard later : List Nat}

def unanswered (s : Surroundings) (p : Subscriber) : List Nat :=
  if p = .subscribing then [s.link.made] else []

/-- The books on a run from `s` and `p` to `t` and `q` that did this and took the answers to the
    calls of these numbers: every call that waited or was made is one of them, or waits. -/
structure Attends (s : Surroundings) (p : Subscriber) (effects : List Effect) (heard : List Nat)
    (t : Surroundings) (q : Subscriber) : Prop where
  made_eq : t.link.made = s.link.made + (effects.filterMap Effect.call?).length
  answered_eq : unanswered s p ++
      List.range' (s.link.made + 1) (effects.filterMap Effect.call?).length =
    heard ++ unanswered t q

theorem Attends.refl (s : Surroundings) (p : Subscriber) : Attends s p [] [] s p :=
  ⟨rfl, List.append_nil _⟩

theorem Attends.trans (h : Attends s p effects heard t q) (g : Attends t q more later u r) :
    Attends s p (effects ++ more) (heard ++ later) u r where
  made_eq := by
    rw [g.made_eq, h.made_eq, List.filterMap_append, List.length_append, Nat.add_assoc]
  answered_eq := by
    -- the later answers are counted from the calls that were made before
    have hlater := g.answered_eq
    rw [h.made_eq, Nat.add_right_comm] at hlater
    rw [List.filterMap_append, List.length_append, ← List.range'_append_1, ← List.append_assoc,
      h.answered_eq, List.append_assoc, hlater, List.append_assoc]

/-! ### Single steps -/

theorem calls_opening (topic : String) (notice : Notice) :
    (opening topic notice).filterMap Effect.call? = [] := by
  rw [opening, List.filterMap_cons_none rfl, Effect.filterMap_call?_writing]

/-- A step that makes no call, while none waits, takes no answer. -/
theorem unheard_of_silent (h : step topic s p = some (t, q)) (hacts : s.Acts effects t)
    (hsilent : effects.filterMap Effect.call? = []) (hp : p ≠ .subscribing) :
    s.heard? t = none := by
  have hmade := hacts.made_eq
  rw [hsilent] at hmade
  by_cases hheard : s.heard? t = none
  · exact hheard
  · rcases ((hears topic).step s p (t, q) h).of_heard hheard with ⟨hless | hwaits, -⟩
    · exact absurd hmade (Nat.ne_of_gt hless)
    · exact absurd (eq_of_beq hwaits) hp

theorem attends_idle (h : step topic s p = some (t, q)) (hacts : s.Acts effects t)
    (hsilent : effects.filterMap Effect.call? = []) (hp : p ≠ .subscribing)
    (hq : q ≠ .subscribing) :
    Attends s p effects ((s.heard? t).toList.map fun _ => t.link.made) t q := by
  refine ⟨hacts.made_eq, ?_⟩
  rw [unheard_of_silent h hacts hsilent hp, hsilent, unanswered, unanswered, if_neg hp, if_neg hq]
  rfl

/-- A step keeps the books. -/
theorem attends_of_step (h : step topic s p = some (t, q)) :
    ∃ effects, s.Acts effects t ∧
      Attends s p effects ((s.heard? t).toList.map fun _ => t.link.made) t q := by
  cases move_of_step h with
  | interrupt _ hacts => exact ⟨_, hacts, attends_idle h hacts rfl (by simp) (by simp)⟩
  | exhaust _ _ _ => exact ⟨[], .refl s, attends_idle h (.refl s) rfl (by simp) (by simp)⟩
  | handle notice _ _ hacts =>
    exact ⟨_, hacts, attends_idle h hacts (calls_opening topic notice) (by simp) (by simp)⟩
  | cut notice octets _ _ _ _ hacts =>
    have hsilent : (Effect.took notice :: Effect.writing octets).filterMap Effect.call? = [] := by
      rw [List.filterMap_cons_none rfl, Effect.filterMap_call?_writing]
    exact ⟨_, hacts, attends_idle h hacts hsilent (by simp) (by simp)⟩
  -- the call is made but not answered: it becomes the one that waits
  | await notice call _ _ _ hacts =>
    have hone : (opening topic notice ++ [Effect.called call]).filterMap Effect.call? = [call] := by
      rw [List.filterMap_append, calls_opening]
      rfl
    have hmade : t.link.made = s.link.made + 1 := by rw [hacts.made_eq, hone, List.length_singleton]
    have hunheard := (((hears topic).step s .listening (t, .subscribing) h).of_waits rfl).1
    refine ⟨_, hacts, hacts.made_eq, ?_⟩
    rw [hone, hunheard, unanswered, unanswered, if_neg (by simp), if_pos rfl, hmade]
    rfl
  | subscribe notice call answer _ _ hanswer hacts =>
    have hone : (opening topic notice ++ Effect.called call ::
        answer.complaint .subscribeRejected).filterMap Effect.call? = [call] := by
      simp [calls_opening, Effect.call?]
    have hmade : t.link.made = s.link.made + 1 := by rw [hacts.made_eq, hone, List.length_singleton]
    have hheard : s.heard? t = some answer := by
      rw [Surroundings.heard?, hmade, if_pos (Nat.lt_succ_self _), hanswer]
    refine ⟨_, hacts, hacts.made_eq, ?_⟩
    rw [hone, hheard, unanswered, unanswered, if_neg (by simp), if_neg (by simp), hmade]
    rfl
  -- no call is made: the answer is that of the one that waits
  | conclude answer hanswer hacts =>
    have hafter : s.link.answer.map (conclude s) = some (t, .flushing) := h
    rw [hanswer] at hafter
    have hlink : t.link = { s.link with answer := none } := by
      rw [← link_conclude s answer, Option.some.inj hafter]
    have hheard : s.heard? t = some answer := (Surroundings.heard?_of_taken hlink).trans hanswer
    refine ⟨_, hacts, hacts.made_eq, ?_⟩
    rw [Effect.filterMap_call?_complaint, hheard, hlink, unanswered, unanswered, if_pos rfl,
      if_neg (by simp)]
    rfl
  | flush hacts => exact ⟨_, hacts, attends_idle h hacts rfl (by simp) (by simp)⟩
  | lose _ hacts => exact ⟨_, hacts, attends_idle h hacts rfl (by simp) (by simp)⟩

/-! ### Whole runs -/

theorem attends_next (topic : String) (x : Session Subscriber) {moment : Moment}
    (hrestart : moment ≠ .arrival .restart) :
    ∃ effects, (x.next (role topic) moment).surroundings.effects =
        x.surroundings.effects ++ effects ∧
      Attends x.surroundings x.run effects
        ((x.heard? (role topic) moment).toList.map (·.1))
        (x.next (role topic) moment).surroundings (x.next (role topic) moment).run := by
  cases moment with
  | arrival stimulus =>
    have hchanged : Session.Changed stimulus x (x.change (role topic) stimulus) :=
      x.changed_change fun hsame => hrestart (hsame ▸ rfl)
    refine ⟨[], ?_, ?_, ?_⟩
    · rw [List.append_nil]
      exact hchanged.effects_eq
    · exact x.made_change (role topic) stimulus
    · change _ = unanswered (x.change (role topic) stimulus).surroundings
        (x.change (role topic) stimulus).run
      rw [unanswered, unanswered, hchanged.run_eq, x.made_change]
      exact List.append_nil _
  | step =>
    rcases hstep : (role topic).activity.step x.surroundings x.run with _ | ⟨t, q⟩
    · rw [Session.next_of_rest hstep, Session.heard?_of_rests hstep]
      exact ⟨[], (List.append_nil _).symm, .refl _ _⟩
    · have hnext := Session.next_of_step hstep
      obtain ⟨effects, hacts, hattends⟩ := attends_of_step hstep
      refine ⟨effects, ?_, ?_⟩
      · rw [hnext]
        exact hacts.effects_eq
      · rw [Session.heard?_of_step hstep, hnext, Option.toList_map, List.map_map]
        exact hattends

/-- Up to the one that waits, the answer to every call is taken, in order. -/
theorem attends_live (topic : String) (x : Session Subscriber) {moments : List Moment}
    (hrestart : .arrival .restart ∉ moments) :
    ∃ effects, (x.live (role topic) moments).surroundings.effects =
        x.surroundings.effects ++ effects ∧
      Attends x.surroundings x.run effects ((x.hears (role topic) moments).map (·.1))
        (x.live (role topic) moments).surroundings (x.live (role topic) moments).run := by
  induction moments generalizing x with
  | nil => exact ⟨[], (List.append_nil _).symm, .refl _ _⟩
  | cons moment moments ih =>
    simp only [List.mem_cons, not_or] at hrestart
    obtain ⟨first, hfirst, hnow⟩ := attends_next topic x (Ne.symm hrestart.1)
    obtain ⟨rest, hrest, hlater⟩ := ih (x.next (role topic) moment) hrestart.2
    refine ⟨first ++ rest, ?_, ?_⟩
    · rw [Session.live_cons, hrest, hfirst, List.append_assoc]
    · rw [Session.hears, List.map_append]
      exact hnow.trans hlater

end BrokerLoad.Subscriber

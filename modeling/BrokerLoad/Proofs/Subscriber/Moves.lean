/-
  BrokerLoad/Proofs/Subscriber/Moves.lean
  =======================================
  What a single step of the receive loop can do, said once.

  `Move` lists the nine steps with everything that holds of each: where it starts
  from, what it asks of the signal, the inbox, the writer and the link, the effects it
  adds and where it leads to.  `move_of_step` says that there is no other step.  Which
  notice leaves the inbox is part of the effects (`Surroundings.Acts.unread_eq`).
-/
import BrokerLoad.Proofs.Runs

namespace BrokerLoad

namespace Subscriber

variable {topic : String} {s t : Surroundings}

/-! ### What a notice calls for -/

def request? (topic : String) (notice : Notice) : Option Call :=
  if notice = .connected .success then some (.subscribe topic .atMostOnce) else none

def opening (topic : String) (notice : Notice) : List Effect :=
  .took notice :: Effect.writing (text topic notice)

/-! ### Moves -/

/-- `Move topic s p t q`: in the surroundings `s`, the run `p` goes on as `q` in the
    surroundings `t`. -/
inductive Move (topic : String) (s : Surroundings) :
    Subscriber → Surroundings → Subscriber → Prop where
  /-- The run looks at the signal and finds it up. -/
  | interrupt {t : Surroundings} : s.signal.raised = true →
    s.Acts [.reported .subscriberInterrupted] t →
    Move topic s .listening t (.ended (.finished .interrupted))
  /-- No notice is left, and none can come. -/
  | exhaust : s.signal.raised = false → s.inbox.unread = [] → s.inbox.isOpen = false →
    Move topic s .listening s (.ended (.finished .linkClosed))
  /-- A notice that asks for no call is taken, and its lines are written. -/
  | handle {t : Surroundings} (notice : Notice) : s.signal.raised = false →
    request? topic notice = none → s.Acts (opening topic notice) t →
    Move topic s .listening t .flushing
  /-- A notice is taken, and its lines are cut by the writer. -/
  | cut {t : Surroundings} (notice : Notice) (octets : Octets) : s.signal.raised = false →
    s.writer.limit ≠ none → octets <+: text topic notice →
    octets.length < (text topic notice).length →
    s.Acts (.took notice :: Effect.writing octets) t →
    Move topic s .listening t (.ended (.failed .full))
  /-- A notice is taken, its lines are written, and its call waits. -/
  | await {t : Surroundings} (notice : Notice) (call : Call) : s.signal.raised = false →
    request? topic notice = some call → s.link.atOnce (s.link.made + 1) = none →
    s.Acts (opening topic notice ++ [.called call]) t →
    Move topic s .listening t .subscribing
  /-- A notice is taken, its lines are written, and its call is answered at once. -/
  | subscribe {t : Surroundings} (notice : Notice) (call : Call) (answer : Answer) :
    s.signal.raised = false → request? topic notice = some call →
    s.link.atOnce (s.link.made + 1) = some answer →
    s.Acts (opening topic notice ++ .called call :: answer.complaint .subscribeRejected) t →
    Move topic s .listening t .flushing
  /-- The answer to the waiting call is taken, whether or not the signal is up. -/
  | conclude {t : Surroundings} (answer : Answer) : s.link.answer = some answer →
    s.Acts (answer.complaint .subscribeRejected) t → Move topic s .subscribing t .flushing
  /-- The notice is done. -/
  | flush {t : Surroundings} : s.Acts [.flushed] t → Move topic s .flushing t .listening
  /-- The flush fails. -/
  | lose {t : Surroundings} : s.writer.failingFlush ≠ none → s.Acts [.flushed] t →
    Move topic s .flushing t (.ended (.failed .flushFailed))

theorem Move.acts {p q : Subscriber} (h : Move topic s p t q) : ∃ effects, s.Acts effects t := by
  cases h with
  | interrupt _ hacts => exact ⟨_, hacts⟩
  | exhaust _ _ _ => exact ⟨[], .refl s⟩
  | handle _ _ _ hacts => exact ⟨_, hacts⟩
  | cut _ _ _ _ _ _ hacts => exact ⟨_, hacts⟩
  | await _ _ _ _ _ hacts => exact ⟨_, hacts⟩
  | subscribe _ _ _ _ _ _ hacts => exact ⟨_, hacts⟩
  | conclude _ _ hacts => exact ⟨_, hacts⟩
  | flush hacts => exact ⟨_, hacts⟩
  | lose _ hacts => exact ⟨_, hacts⟩

theorem acts_conclude (s : Surroundings) (answer : Answer) :
    s.Acts (answer.complaint .subscribeRejected) (conclude s answer).1 := by
  cases answer with
  | accepted => exact s.acts_answered
  | refused reason => exact s.acts_answered.trans (Surroundings.acts_report _ _)

theorem link_conclude (s : Surroundings) (answer : Answer) :
    (conclude s answer).1.link = { s.link with answer := none } := by
  cases answer <;> rfl

theorem conclude_snd (s : Surroundings) (answer : Answer) : (conclude s answer).2 = .flushing := by
  cases answer <;> rfl

/-- After the lines of a notice, its call is made, if it asks for one. -/
theorem move_written {u : Surroundings} {notice : Notice} (hdown : s.signal.raised = false)
    (hopening : s.Acts (opening topic notice) u) (hlink : u.link = s.link) :
    Move topic s .listening (afterText topic notice (u, none)).1
      (afterText topic notice (u, none)).2 := by
  unfold afterText
  dsimp only
  split
  · rename_i hconnected
    have hrequest : request? topic notice = some (.subscribe topic .atMostOnce) := if_pos hconnected
    have hacts := hopening.trans (u.acts_call (.subscribe topic .atMostOnce))
    have hanswer : (u.call (.subscribe topic .atMostOnce)).2 =
        s.link.atOnce (s.link.made + 1) := by
      rw [← hlink]
      rfl
    rcases hcall : u.call (.subscribe topic .atMostOnce) with ⟨v, _ | answer⟩ <;>
      simp only [hcall] at hacts hanswer
    · exact .await notice _ hdown hrequest hanswer.symm hacts
    · simp only [afterCall, conclude_snd]
      have hall := hacts.trans (acts_conclude v answer)
      rw [List.append_assoc] at hall
      exact .subscribe notice _ answer hdown hrequest hanswer.symm hall
  · rename_i hother
    exact .handle notice hdown (if_neg hother) hopening

theorem move_take (topic : String) {notice : Notice} (hdown : s.signal.raised = false)
    (htake : s.take? = some (notice, t)) :
    Move topic s .listening (afterText topic notice (t.write (text topic notice))).1
      (afterText topic notice (t.write (text topic notice))).2 := by
  have htook := Surroundings.acts_take? htake
  have hlink : (t.write (text topic notice)).1.link = s.link := by
    rw [t.link_write, Surroundings.link_of_take? htake]
  rcases t.write_cases (text topic notice) with
    ⟨hnone, hacts⟩ | ⟨hfull, hlimit, octets, hinitial, hlength, hacts⟩
  · have hwrite : t.write (text topic notice) = ((t.write (text topic notice)).1, none) :=
      Prod.ext rfl hnone
    rw [hwrite]
    exact move_written hdown (htook.trans hacts) hlink
  · have hwrite : t.write (text topic notice) = ((t.write (text topic notice)).1, some .full) :=
      Prod.ext rfl hfull
    rw [hwrite]
    have hlimit' : s.writer.limit ≠ none := htook.limit_eq ▸ hlimit
    exact .cut notice octets hdown hlimit' hinitial hlength (htook.trans hacts)

theorem move_of_step {p q : Subscriber} (h : step topic s p = some (t, q)) :
    Move topic s p t q := by
  unfold step at h
  split at h
  · split at h
    · rename_i hraised
      cases h
      exact .interrupt hraised (s.acts_report _)
    · rename_i hdown
      have hdown' := Bool.eq_false_iff.mpr hdown
      split at h
      · rename_i notice u htake
        have hmove := move_take topic hdown' htake
        rwa [Option.some.inj h] at hmove
      · rename_i htake
        split at h
        · cases h
        · rename_i hclosed
          cases h
          exact .exhaust hdown' (Surroundings.unread_of_take? htake) (Bool.eq_false_iff.mpr hclosed)
  · obtain ⟨answer, hanswer, hconclude⟩ := Option.map_eq_some_iff.mp h
    have hacts := acts_conclude s answer
    have hsnd := conclude_snd s answer
    rw [hconclude] at hacts hsnd
    subst hsnd
    exact .conclude answer hanswer hacts
  · have hacts := s.acts_flush
    have herror : s.flush.2 =
        if s.writer.failingFlush = some (s.writer.flushes + 1) then some .flushFailed else none :=
      rfl
    rcases hflush : s.flush with ⟨u, _ | error⟩ <;> rw [hflush] at h hacts herror <;> cases h
    · exact .flush hacts
    · split at herror
      · rename_i hfailing
        cases herror
        exact .lose (by simp [hfailing]) hacts
      · cases herror
  · cases h

/-- A run rests at its end, while its call waits, or with nothing to look at: the signal
    down, and the inbox empty and open. -/
theorem rest_cases {p : Subscriber} (h : step topic s p = none) :
    (p = .listening ∧ s.signal.raised = false ∧ s.inbox.unread = [] ∧ s.inbox.isOpen = true) ∨
      (p = .subscribing ∧ s.link.answer = none) ∨ ∃ result, p = .ended result := by
  unfold step at h
  split at h
  · split at h
    · cases h
    · rename_i hdown
      split at h
      · cases h
      · rename_i htake
        split at h
        · rename_i hopen
          exact .inl ⟨rfl, Bool.eq_false_iff.mpr hdown, Surroundings.unread_of_take? htake, hopen⟩
        · cases h
  · exact .inr (.inl ⟨rfl, Option.map_eq_none_iff.mp h⟩)
  · cases h
  · exact .inr (.inr ⟨_, rfl⟩)

theorem acting (topic : String) : (role topic).Acting :=
  fun hstep => (move_of_step hstep).acts

end Subscriber

end BrokerLoad

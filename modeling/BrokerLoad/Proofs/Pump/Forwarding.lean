/-
  BrokerLoad/Proofs/Pump/Forwarding.lean
  ======================================
  What the pump makes of the results that it polls, as long as its inbox has a reader.

  `handling` is everything done for one result, in order.  The pump does exactly that
  for one result after the other; between two steps it has at most one result in hand,
  of which it has done nothing yet (`Account`, `forwarding_run`).  It never ends, and a
  pause never lasts longer than it should, so with some patience every result that is
  there gets its turn (`ready_patience`).  `forwards_every_notice` puts this together.
-/
import BrokerLoad.Proofs.Pump.Moves
import Mathlib.Data.List.Basic

namespace BrokerLoad

/-! ### What a result calls for -/

namespace PollResult

/-- `result.Tells notice`: the result is news for the programs, and this is the news. -/
inductive Tells : PollResult → Notice → Prop where
  | connAck (sessionPresent : Bool) (code : ReturnCode) :
    Tells (.event (.incoming (.connAck sessionPresent code))) (.connected code)
  | refusal (code : ReturnCode) : Tells (.refused code) (.connected code)
  | pubComp (pkid : PacketId) : Tells (.event (.incoming (.pubComp pkid))) (.delivered pkid)
  | publish (message : Message) :
    Tells (.event (.incoming (.publish message))) (.received message.topic message.payload)

theorem notice?_eq_some_iff {result : PollResult} {notice : Notice} :
    result.notice? = some notice ↔ result.Tells notice := by
  constructor
  · intro h
    cases result with
    | event event =>
      cases event with
      | incoming packet => cases packet <;> cases h <;> constructor
      | outgoing departure => cases h
    | refused code =>
      cases h
      exact .refusal code
    | failed => cases h
  · intro h
    cases h <;> rfl

/-- The line in the log that a result calls for: one for each failure, none for an event. -/
def complaint? : PollResult → Option String
  | .event _ => none
  | .refused code => some ("ERROR broker refused the connection code=" ++ code.name)
  | .failed => some "ERROR connection error"

theorem fullLine_diagnostic? (result : PollResult) :
    result.diagnostic?.map Diagnostic.fullLine = result.complaint? := by
  cases result with
  | refused code => cases code <;> rfl
  | _ => rfl

/-- Everything done for a result: it is polled, a failure is reported, a notice is sent. -/
def handling (result : PollResult) : List Pump.Effect := .polled result :: result.response

end PollResult

namespace Pump

variable {delay : Nat} {s t u : Surroundings} {p q : Pump} {events : List Stimulus}

section Views

variable (result : PollResult) (results : List PollResult)

theorem result?_handling : result.handling.filterMap Effect.result? = [result] := by
  rw [PollResult.handling, PollResult.response]
  cases result.diagnostic? <;> cases result.notice? <;> rfl

theorem notice?_handling :
    result.handling.filterMap Effect.notice? = result.notice?.toList := by
  rw [PollResult.handling, PollResult.response]
  cases result.diagnostic? <;> cases result.notice? <;> rfl

theorem diagnostic?_handling :
    result.handling.filterMap Effect.diagnostic? = result.diagnostic?.toList := by
  rw [PollResult.handling, PollResult.response]
  cases result.diagnostic? <;> cases result.notice? <;> rfl

theorem polled_handling :
    (results.flatMap PollResult.handling).filterMap Effect.result? = results := by
  rw [List.filterMap_flatMap, funext result?_handling, List.flatMap_singleton']

theorem sent_handling :
    (results.flatMap PollResult.handling).filterMap Effect.notice? =
      results.filterMap PollResult.notice? := by
  rw [List.filterMap_flatMap, funext notice?_handling, List.filterMap_eq_flatMap_toList]

theorem diagnostics_handling :
    (results.flatMap PollResult.handling).filterMap Effect.diagnostic? =
      results.filterMap PollResult.diagnostic? := by
  rw [List.filterMap_flatMap, funext diagnostic?_handling, List.filterMap_eq_flatMap_toList]

end Views

/-! ### The account -/

def inHand : Pump → List PollResult
  | .handling result => [result]
  | _ => []

@[simp] theorem inHand_afterward (delay now : Nat) (result : PollResult) :
    (afterward delay now result).inHand = [] := by
  unfold afterward
  split <;> rfl

theorem afterward_ne_ended (delay now : Nat) (result : PollResult) :
    afterward delay now result ≠ .ended := by
  unfold afterward
  split <;> simp

theorem le_of_afterward {now deadline : Nat} {result : PollResult}
    (h : afterward delay now result = .pausing deadline) : deadline ≤ now + delay := by
  unfold afterward at h
  split at h
  · cases h
    exact Nat.le_refl _
  · cases h

/-- The account of a pump that dealt with these results and did this. -/
def Account (p : Pump) (effects : List Pump.Effect) (results : List PollResult) : Prop :=
  effects = results.flatMap PollResult.handling ++ p.inHand.map .polled

theorem Account.move {effects : List Pump.Effect} {results : List PollResult}
    (h : Account p effects results) (hclaimed : s.unclaimed = false) (hmove : Move delay s p t q) :
    ∃ more results', s.Acts more t ∧ Account q (effects ++ more) results' := by
  unfold Account at h ⊢
  -- four of the steps are taken without a reader only
  cases hmove with
  | quit _ hunclaimed _ => exact absurd (hclaimed.symm.trans hunclaimed) (by simp)
  | poll result _ hacts => exact ⟨_, results, hacts, by simp [h, inHand]⟩
  | respond result _ hacts =>
    refine ⟨_, results ++ [result], hacts, ?_⟩
    rw [h, inHand_afterward]
    simp [inHand, PollResult.handling]
  | lament _ hunclaimed _ _ => exact absurd (hclaimed.symm.trans hunclaimed) (by simp)
  | ignore _ hunclaimed _ => exact absurd (hclaimed.symm.trans hunclaimed) (by simp)
  | abandon _ hunclaimed _ _ => exact absurd (hclaimed.symm.trans hunclaimed) (by simp)
  | proceed deadline _ _ => exact ⟨[], results, .refl s, by simp [h, inHand]⟩

/-- What was polled was dealt with, but for a result in hand. -/
theorem Account.polled_eq {effects : List Pump.Effect} {results : List PollResult}
    (h : Account p effects results) : effects.filterMap Effect.result? = results ++ p.inHand := by
  rw [h, List.filterMap_append, polled_handling]
  simp [List.filterMap_map, Function.comp_def, Effect.result?]

theorem Move.going (h : Move delay s p t q) (hclaimed : s.unclaimed = false) : q ≠ .ended := by
  cases h with
  | quit _ hunclaimed _ => exact absurd (hclaimed.symm.trans hunclaimed) (by simp)
  | abandon _ hunclaimed _ _ => exact absurd (hclaimed.symm.trans hunclaimed) (by simp)
  | respond result _ _ => exact afterward_ne_ended _ _ _
  | lament result _ _ _ => exact afterward_ne_ended _ _ _
  | _ => simp

theorem Move.brief (h : Move delay s p t q) {deadline : Nat} (hpause : q = .pausing deadline) :
    deadline ≤ t.now + delay := by
  cases h with
  | respond result _ hacts => exact hacts.now_eq ▸ le_of_afterward hpause
  | lament result _ _ hacts => exact hacts.now_eq ▸ le_of_afterward hpause
  | _ => cases hpause

/-! ### Whole runs -/

def Stimulus.offers (events : List Stimulus) : List PollResult := events.filterMap Stimulus.offer?

def Surroundings.deedsSince (t s : Surroundings) : List (Deed Pump.Effect) :=
  t.history.drop s.trace.size

theorem Surroundings.deedsSince_of_append {deeds : List (Deed Pump.Effect)}
    (h : t.history = s.history ++ deeds) : t.deedsSince s = deeds := by
  have hlength : s.history.length = s.trace.size := by simp [Surroundings.history]
  rw [Surroundings.deedsSince, h, ← hlength, List.drop_left]

theorem Surroundings.foldl_put {inbox : Inbox} (hopen : inbox.isOpen = true)
    (notices : List Notice) :
    notices.foldl Inbox.put inbox = { inbox with unread := inbox.unread ++ notices } := by
  induction notices generalizing inbox with
  | nil => simp
  | cons notice notices ih =>
    have hput : inbox.put notice = { inbox with unread := inbox.unread ++ [notice] } :=
      if_pos hopen
    have hnext := @ih { inbox with unread := inbox.unread ++ [notice] } hopen
    rw [List.foldl_cons, hput, hnext]
    simp

/-- A state of a pump whose inbox is read: what it has done, what it has yet to do, and
    what the reader has yet to read. -/
structure Standing (delay : Nat) (s : Surroundings) (events : List Stimulus) (t : Surroundings)
    (p : Pump) (results : List PollResult) : Prop where
  history_eq : t.history = s.history ++ t.deedsSince s
  account : Account p ((t.deedsSince s).map (·.effect)) results
  offered : results ++ p.inHand ++ t.ready = s.ready ++ Stimulus.offers events
  unread : t.inbox.unread <:+ s.inbox.unread ++ sent (t.deedsSince s)
  isOpen : t.inbox.isOpen = true
  claimed : t.unclaimed = false
  going : p ≠ .ended
  brief : ∀ deadline, p = .pausing deadline → deadline ≤ t.now + delay

theorem Standing.change {results : List PollResult} (h : Standing delay s events t p results)
    {stimulus : Stimulus} (hne : stimulus ≠ .leave) :
    Standing delay s (events ++ [stimulus]) (t.after stimulus) p results := by
  have hsince : ∀ v : Surroundings, v.trace = t.trace → v.deedsSince s = t.deedsSince s := by
    intro v htrace
    simp only [Surroundings.deedsSince, Surroundings.history, htrace]
  cases stimulus with
  | leave => exact absurd rfl hne
  | offer result =>
    refine ⟨h.history_eq, hsince _ rfl ▸ h.account, ?_, h.unread, h.isOpen, h.claimed, h.going,
      h.brief⟩
    have hoffers : Stimulus.offers (events ++ [.offer result]) =
        Stimulus.offers events ++ [result] := by
      simp [Stimulus.offers, Stimulus.offer?]
    rw [hoffers, ← List.append_assoc, ← h.offered]
    simp [Surroundings.after]
  | advance ms =>
    have hoffers : Stimulus.offers (events ++ [.advance ms]) = Stimulus.offers events := by
      simp [Stimulus.offers, Stimulus.offer?]
    refine ⟨h.history_eq, h.account, hoffers ▸ h.offered, h.unread, h.isOpen, h.claimed, h.going,
      ?_⟩
    intro deadline hpause
    have hbrief := h.brief deadline hpause
    simp only [Surroundings.after]
    omega
  | read =>
    have hoffers : Stimulus.offers (events ++ [.read]) = Stimulus.offers events := by
      simp [Stimulus.offers, Stimulus.offer?]
    have htail : (t.after .read).inbox.unread <:+ t.inbox.unread := List.tail_suffix _
    exact ⟨h.history_eq, h.account, hoffers ▸ h.offered, htail.trans h.unread, h.isOpen, h.claimed,
      h.going, h.brief⟩

theorem Standing.move {results : List PollResult} (h : Standing delay s events t p results)
    (hmove : Move delay t p u q) : ∃ results', Standing delay s events u q results' := by
  obtain ⟨more, results', hacts, haccount⟩ := h.account.move h.claimed hmove
  have hhistory : u.history = s.history ++ (t.deedsSince s ++ Effect.deeds more t.now) := by
    rw [hacts.history_eq, h.history_eq, List.append_assoc,
      Surroundings.deedsSince_of_append h.history_eq]
  have hsince := Surroundings.deedsSince_of_append hhistory
  have heffects : (u.deedsSince s).map (·.effect) = (t.deedsSince s).map (·.effect) ++ more := by
    rw [hsince, List.map_append, Effect.map_effect_deeds]
  refine ⟨results', ?_, heffects ▸ haccount, ?_, ?_, ?_, hacts.unclaimed_eq.trans h.claimed,
    hmove.going h.claimed, fun _ => hmove.brief⟩
  · rw [hsince]
    exact hhistory
  · have hafter := haccount.polled_eq
    rw [List.filterMap_append, h.account.polled_eq] at hafter
    rw [← hafter, ← h.offered, hacts.ready_eq, List.append_assoc (results ++ p.inHand)]
  · obtain ⟨read, hread⟩ := h.unread
    refine ⟨read, ?_⟩
    rw [hacts.inbox_eq, Surroundings.foldl_put h.isOpen, sent_eq_filterMap, heffects,
      List.filterMap_append, ← List.append_assoc, ← List.append_assoc, hread, sent_eq_filterMap]
  · rw [hacts.inbox_eq, Surroundings.foldl_put h.isOpen]
    exact h.isOpen

theorem standing_run (h : Run delay s events t p) (hleave : Stimulus.leave ∉ events)
    (hclaimed : s.unclaimed = false) (hopen : s.inbox.isOpen = true) :
    ∃ results, Standing delay s events t p results := by
  induction h with
  | start =>
    have hsince : s.deedsSince s = [] := Surroundings.deedsSince_of_append (by simp)
    refine ⟨[], by simp [hsince], by simp [hsince, Account, inHand], ?_, ?_, hopen, hclaimed,
      by simp, by simp⟩
    · simp [inHand, Stimulus.offers]
    · simp [hsince, sent]
  | change stimulus _ ih =>
    simp only [List.mem_append, List.mem_singleton, not_or] at hleave
    obtain ⟨results, hstanding⟩ := ih hleave.1
    exact ⟨results, hstanding.change (Ne.symm hleave.2)⟩
  | step _ hstep ih =>
    obtain ⟨results, hstanding⟩ := ih hleave
    exact hstanding.move (move_of_step hstep)

/-- What can be seen of a pump that dealt with these results: it asked for them in this
    order, sent the notices that they call for, and logged the failures among them. -/
structure Forwarding (s t : Surroundings) (p : Pump) (results : List PollResult) : Prop where
  polled_eq : polled (t.deedsSince s) = results ++ p.inHand
  sent_eq : sent (t.deedsSince s) = results.filterMap PollResult.notice?
  log_eq : (diagnostics (t.deedsSince s)).map Diagnostic.fullLine =
    results.filterMap PollResult.complaint?

theorem Standing.forwarding {results : List PollResult}
    (h : Standing delay s events t p results) : Forwarding s t p results := by
  have haccount := h.account
  unfold Account at haccount
  refine ⟨?_, ?_, ?_⟩
  · rw [polled_eq_filterMap, h.account.polled_eq]
  · rw [sent_eq_filterMap, haccount, List.filterMap_append, sent_handling]
    simp [List.filterMap_map, Function.comp_def, Effect.notice?]
  · have hlines : ∀ result : PollResult,
        (result.diagnostic?.map Diagnostic.fullLine) = result.complaint? :=
      PollResult.fullLine_diagnostic?
    rw [diagnostics_eq_filterMap, haccount, List.filterMap_append, diagnostics_handling]
    simp [List.filterMap_map, Function.comp_def, Effect.diagnostic?, List.map_filterMap, hlines]

/-! ### Patience -/

def await (delay : Nat) (x : Surroundings × Pump) : Surroundings × Pump :=
  (activity delay).settle (x.1.after (.advance delay)) x.2

def patience (delay : Nat) : Nat → Surroundings × Pump → Surroundings × Pump
  | 0, x => x
  | n + 1, x => patience delay n (await delay x)

theorem run_patience (h : Run delay s events t p) (n : Nat) :
    Run delay s (events ++ List.replicate n (.advance delay)) (patience delay n (t, p)).1
      (patience delay n (t, p)).2 := by
  induction n generalizing events t p with
  | zero =>
    rw [List.replicate_zero, List.append_nil]
    exact h
  | succ n ih =>
    have hnext := ih (h.change (.advance delay)).settle
    rwa [List.append_assoc, List.singleton_append, ← List.replicate_succ] at hnext

/-- Results are only taken from those that are ready, never put there. -/
theorem ready_settle_le (delay : Nat) (t : Surroundings) (p : Pump) :
    ((activity delay).settle t p).1.ready.length ≤ t.ready.length := by
  refine (activity delay).settle_induction (motive := fun u _ => u.ready.length ≤ t.ready.length)
    ?_ (Nat.le_refl _)
  intro u p v q hle hstep
  obtain ⟨effects, hacts⟩ := (move_of_step hstep).acts
  have hlength := congrArg List.length hacts.ready_eq
  rw [List.length_append] at hlength
  omega

/-- A pump that rests with results at hand pauses, and after the pause it takes one. -/
theorem ready_await_lt {results : List PollResult} (h : Standing delay s events t p results)
    (hrest : step delay t p = none) (hready : t.ready ≠ []) :
    (await delay (t, p)).1.ready.length < t.ready.length := by
  rcases rest_cases hrest with ⟨-, hempty⟩ | ⟨deadline, rfl, -⟩ | hended
  · exact absurd hempty hready
  · have hbrief := h.brief deadline rfl
    have hclaimed : (t.after (.advance delay)).unclaimed = false := h.claimed
    obtain ⟨result, rest, hcons⟩ := List.exists_cons_of_ne_nil hready
    have hover : (activity delay).step (t.after (.advance delay)) (.pausing deadline) =
        some (t.after (.advance delay), .polling) := by
      have hle : deadline ≤ (t.after (.advance delay)).now := hbrief
      simp [activity, step, hclaimed, hle]
    have hpoll : (activity delay).step (t.after (.advance delay)) .polling =
        some (({ t.after (.advance delay) with ready := rest } : Surroundings).record
          (.polled result), .handling result) := by
      have hsame : (t.after (.advance delay)).ready = result :: rest := hcons
      simp [activity, step, hclaimed, hsame]
    -- from there on the rest can only become less
    have hle := ready_settle_le delay
      (({ t.after (.advance delay) with ready := rest } : Surroundings).record (.polled result))
      (.handling result)
    rw [await, (activity delay).settle_of_step hover, (activity delay).settle_of_step hpoll, hcons]
    exact Nat.lt_succ_of_le hle
  · exact absurd hended h.going

theorem ready_patience (h : Run delay s events t p) (hleave : Stimulus.leave ∉ events)
    (hclaimed : s.unclaimed = false) (hopen : s.inbox.isOpen = true)
    (hrest : step delay t p = none) {n : Nat} (hn : t.ready.length ≤ n) :
    (patience delay n (t, p)).1.ready = [] ∧
      step delay (patience delay n (t, p)).1 (patience delay n (t, p)).2 = none := by
  -- every round takes one of the results, if any is left
  induction n generalizing events t p with
  | zero => exact ⟨List.length_eq_zero_iff.mp (Nat.le_zero.mp hn), hrest⟩
  | succ n ih =>
    obtain ⟨results, hstanding⟩ := standing_run h hleave hclaimed hopen
    have hnext : (await delay (t, p)).1.ready.length ≤ n := by
      by_cases hready : t.ready = []
      · have hle := ready_settle_le delay (t.after (.advance delay)) p
        have hsame : (t.after (.advance delay)).ready = [] := hready
        rw [hsame] at hle
        exact Nat.le_trans hle (Nat.zero_le n)
      · have hlt := ready_await_lt hstanding hrest hready
        omega
    exact ih (h.change (.advance delay)).settle (by simpa using hleave)
      ((activity delay).step_settle _ _) hnext

/-- After enough delays a pump whose inbox is read has dealt with all results. -/
theorem forwarding_patience (h : Run delay s events t p) (hleave : Stimulus.leave ∉ events)
    (hclaimed : s.unclaimed = false) (hopen : s.inbox.isOpen = true) {n : Nat}
    (hn : t.ready.length < n) :
    let y := patience delay n (t, p)
    Forwarding s y.1 y.2 (s.ready ++ Stimulus.offers events) ∧ y.2.inHand = [] ∧
      y.1.ready = [] ∧ y.2 ≠ .ended := by
  intro y
  obtain ⟨m, rfl⟩ : ∃ m, n = m + 1 := ⟨n - 1, by omega⟩
  have hleave' : ∀ k, Stimulus.leave ∉ events ++ List.replicate k (Stimulus.advance delay) := by
    intro k hmem
    rcases List.mem_append.mp hmem with hbefore | hafter
    · exact hleave hbefore
    · cases List.eq_of_mem_replicate hafter
  -- the first round brings the pump to rest, the others empty what is ready
  have hfirst := (h.change (.advance delay)).settle
  have hlength : (await delay (t, p)).1.ready.length ≤ m :=
    Nat.le_trans (ready_settle_le _ _ _) (Nat.le_of_lt_succ hn)
  obtain ⟨hready, hrest⟩ := ready_patience hfirst (hleave' 1) hclaimed hopen
    ((activity delay).step_settle _ _) hlength
  have hempty : y.1.ready = [] := hready
  have hinHand : y.2.inHand = [] := by
    rcases rest_cases hrest with ⟨hidle, -⟩ | ⟨deadline, hpause, -⟩ | hended
    · exact congrArg inHand hidle
    · exact congrArg inHand hpause
    · exact congrArg inHand hended
  -- the delays offer nothing, so what was offered before is all that there was to deal with
  have hoffers : Stimulus.offers (events ++ List.replicate (m + 1) (.advance delay)) =
      Stimulus.offers events := by
    simp [Stimulus.offers, Stimulus.offer?]
  obtain ⟨all, hafter⟩ := standing_run (run_patience h (m + 1)) (hleave' (m + 1)) hclaimed hopen
  have hall : all = s.ready ++ Stimulus.offers events := by
    have hoffered : all ++ y.2.inHand ++ y.1.ready =
        s.ready ++ Stimulus.offers (events ++ List.replicate (m + 1) (.advance delay)) :=
      hafter.offered
    rwa [hoffers, hinHand, hempty, List.append_nil, List.append_nil] at hoffered
  exact ⟨hall ▸ hafter.forwarding, hinHand, hempty, hafter.going⟩

/-- Let `(t, p)` be any state of a pump whose inbox has a reader.

    What it sent and logged is what the results it dealt with call for, one by one and in
    order; these, the one in its hands and those that are ready are the results offered;
    and what it sent is what was read and what is unread.

    It has not ended.  It rests only without a result to ask for, or in a pause that has
    begun less than the delay ago.  So if the delay passes a few times, whatever the
    results are, it has dealt with all of them, and still goes on. -/
theorem forwards_every_notice (h : Run delay s events t p) (hleave : Stimulus.leave ∉ events)
    (hclaimed : s.unclaimed = false) (hopen : s.inbox.isOpen = true) :
    (∀ result notice, result.notice? = some notice ↔ PollResult.Tells result notice) ∧
      (∃ results, Forwarding s t p results ∧
        results ++ p.inHand ++ t.ready = s.ready ++ Stimulus.offers events) ∧
      (∃ read, s.inbox.unread ++ sent (t.deedsSince s) = read ++ t.inbox.unread) ∧
      p ≠ .ended ∧
      (step delay t p = none → (p = .polling ∧ t.ready = []) ∨
        ∃ deadline, p = .pausing deadline ∧ t.now < deadline ∧ deadline ≤ t.now + delay) ∧
      ∀ n, t.ready.length < n → let y := patience delay n (t, p)
        Forwarding s y.1 y.2 (s.ready ++ Stimulus.offers events) ∧ y.2.inHand = [] ∧
          y.1.ready = [] ∧ y.2 ≠ .ended := by
  obtain ⟨results, hstanding⟩ := standing_run h hleave hclaimed hopen
  refine ⟨fun _ _ => PollResult.notice?_eq_some_iff, ⟨results, hstanding.forwarding,
    hstanding.offered⟩, ?_, hstanding.going, ?_, ?_⟩
  · obtain ⟨read, hread⟩ := hstanding.unread
    exact ⟨read, hread.symm⟩
  · intro hrest
    -- with a reader there is no end to rest in
    rcases rest_cases hrest with hidle | ⟨deadline, hpause, hlt⟩ | hended
    · exact .inl hidle
    · exact .inr ⟨deadline, hpause, hlt, hstanding.brief deadline hpause⟩
    · exact absurd hended hstanding.going
  · intro n hn
    exact forwarding_patience h hleave hclaimed hopen hn

/-- Three failures in a row come before the connection, and a message and an
    acknowledgement after it; the pump polls the first of them before the others are
    there. -/
theorem forwards_every_notice_after_failures :
    let message : Message := { topic := "t", payload := [0, 255], qos := .exactlyOnce, dup := true }
    let later : List PollResult := [.failed, .refused .badClientId,
      .event (.incoming (.connAck true .success)), .event (.outgoing (.subscribe 1)),
      .event (.incoming (.publish message)), .event (.incoming (.pubComp 7))]
    let x := (activity 20).settle (Surroundings.after {} (.offer (.refused .notAuthorized))) .polling
    let t := later.foldl (fun t result => t.after (.offer result)) x.1
    let events : List Stimulus := ((.refused .notAuthorized) :: later).map .offer
    let y := patience 20 7 (t, x.2)
    Run 20 {} events t x.2 ∧ Stimulus.leave ∉ events ∧ x.2 = .pausing 20 ∧ y.2 ≠ .ended ∧
      sent (y.1.deedsSince {}) = [.connected .notAuthorized, .connected .badClientId,
        .connected .success, .received "t" [0, 255], .delivered 7] ∧
      (diagnostics (y.1.deedsSince {})).map Diagnostic.fullLine =
        ["ERROR broker refused the connection code=NotAuthorized", "ERROR connection error",
          "ERROR broker refused the connection code=BadClientId"] := by
  intro message later x t events y
  have hrun : Run 20 {} events t x.2 :=
    ((((((Run.start.change _).settle.change _).change _).change _).change _).change _).change _
  have hleave : Stimulus.leave ∉ events := by decide
  obtain ⟨-, -, -, -, -, hpatience⟩ := forwards_every_notice hrun hleave rfl rfl
  obtain ⟨hforwarding, -, -, hgoing⟩ := hpatience 7 (by decide)
  exact ⟨hrun, hleave, by decide, hgoing, hforwarding.sent_eq, hforwarding.log_eq⟩

end Pump

end BrokerLoad

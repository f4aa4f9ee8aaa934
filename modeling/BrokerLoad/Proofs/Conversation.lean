/-
  BrokerLoad/Proofs/Conversation.lean
  ===================================
  A pump and a subscriber on one inbox, under every interleaving.

  A conversation is two runs at once (`projection`): a run of the subscriber, for which
  the notices that the pump sends are arrivals (`Hears`), and a run of the pump, whose
  inbox is read by the subscriber (`Feeds`).  Each of the two keeps its own account, and
  the inbox holds what one has sent and the other has not taken.  This gives
  `subscriptions_follow_connects`.
-/
import BrokerLoad.Conversation
import BrokerLoad.Proofs.Pump.Forwarding
import BrokerLoad.Proofs.Subscriber.Transcript

namespace BrokerLoad

/-! ### Acceptances and subscriptions -/

def PollResult.isAcceptance : PollResult → Bool
  | .event (.incoming (.connAck _ .success)) => true
  | _ => false

/-- An acceptance is the one way to news of a good connect, since a refusal has another
    code. -/
theorem PollResult.isAcceptance_iff {result : PollResult} (hrefusal : result ≠ .refused .success) :
    result.isAcceptance = true ↔ result.notice? = some (.connected .success) := by
  rw [notice?_eq_some_iff]
  constructor
  · intro h
    unfold isAcceptance at h
    split at h
    · exact .connAck _ _
    · cases h
  · intro h
    cases h with
    | connAck => rfl
    | refusal => exact absurd rfl hrefusal

theorem PollResult.count_notice? {results : List PollResult}
    (hrefusals : .refused .success ∉ results) :
    (results.filterMap notice?).count (.connected .success) = results.countP isAcceptance := by
  induction results with
  | nil => rfl
  | cons result results ih =>
    simp only [List.mem_cons, not_or] at hrefusals
    have hone := isAcceptance_iff (Ne.symm hrefusals.1)
    rw [List.countP_cons, ← ih hrefusals.2, List.filterMap_cons]
    cases hnotice : result.notice? with
    | none =>
      rw [hnotice] at hone
      simp [hone]
    | some notice =>
      rw [hnotice, Option.some.injEq] at hone
      by_cases hgood : notice = .connected .success
      · simp [hgood, hone.mpr hgood]
      · simp [hgood, hone]

namespace Subscriber

/-- There is one call for each good connect, and all calls are the same. -/
theorem filterMap_request? (topic : String) (notices : List Notice) :
    notices.filterMap (request? topic) =
      List.replicate (notices.count (.connected .success)) (.subscribe topic .atMostOnce) := by
  induction notices with
  | nil => rfl
  | cons notice notices ih =>
    by_cases hgood : notice = .connected .success
    · have hrequest : request? topic notice = some (.subscribe topic .atMostOnce) := if_pos hgood
      rw [List.filterMap_cons_some hrequest, ih, hgood, List.count_cons_self, List.replicate_succ]
    · have hrequest : request? topic notice = none := if_neg hgood
      rw [List.filterMap_cons_none hrequest, ih, List.count_cons_of_ne hgood]

end Subscriber

namespace Conversation

variable {delay : Nat} {topic : String} {s t : Surroundings} {ms : List Move} {c : Conversation}

/-! ### The side of the subscriber -/

/-- The subscriber got here while these notices arrived.  Its calls were answered and
    the clock moved on, and nothing else happened to it. -/
def Hears (topic : String) (s : Surroundings) (notices : List Notice)
    (x : Session Subscriber) : Prop :=
  ∃ events, (Subscriber.role topic).Run (Session.start (Subscriber.role topic) s) events x ∧
    Stimulus.restart ∉ events ∧ Stimulus.shutdown ∉ events ∧ Stimulus.close ∉ events ∧
    events.filterMap Stimulus.arrival? = notices

namespace Hears

variable {notices : List Notice} {x : Session Subscriber}

theorem step {run : Subscriber} (h : Hears topic s notices x)
    (hstep : Subscriber.step topic x.surroundings x.run = some (t, run)) :
    Hears topic s notices { surroundings := t, run } := by
  obtain ⟨events, hrun, hsteady⟩ := h
  exact ⟨events, hrun.step hstep, hsteady⟩

theorem change (h : Hears topic s notices x) {stimulus : Stimulus}
    (hkind : (∃ answer, stimulus = .resolve answer) ∨ ∃ ms, stimulus = .advance ms) :
    Hears topic s notices (x.change (Subscriber.role topic) stimulus) := by
  obtain ⟨events, hrun, hrestart, hshutdown, hclose, harrivals⟩ := h
  refine ⟨_, hrun.change stimulus, ?_⟩
  rcases hkind with ⟨answer, rfl⟩ | ⟨ms, rfl⟩ <;>
    simp [hrestart, hshutdown, hclose, harrivals, Stimulus.arrival?, List.filterMap_cons]

theorem arrive (h : Hears topic s notices x) (more : List Notice) :
    Hears topic s (notices ++ more)
      { x with surroundings.inbox := more.foldl Inbox.put x.surroundings.inbox } := by
  induction more generalizing notices x with
  | nil =>
    rw [List.append_nil]
    exact h
  | cons notice more ih =>
    obtain ⟨events, hrun, hrestart, hshutdown, hclose, harrivals⟩ := h
    have hone : Hears topic s (notices ++ [notice])
        (x.change (Subscriber.role topic) (.notice notice)) := by
      refine ⟨_, hrun.change (.notice notice), ?_⟩
      simp [hrestart, hshutdown, hclose, harrivals, Stimulus.arrival?]
    have hall := ih hone
    rwa [List.append_assoc] at hall

end Hears

/-! ### The side of the pump -/

/-- The pump got here while these results were offered.  Its inbox was read and the
    clock moved on, and nothing else happened around it. -/
def Feeds (delay : Nat) (inbox : Inbox) (offered : List PollResult) (feed : Pump.Surroundings)
    (pump : Pump) : Prop :=
  ∃ events, Pump.Run delay { inbox } events feed pump ∧ Pump.Stimulus.leave ∉ events ∧
    Pump.Stimulus.offers events = offered

namespace Feeds

variable {inbox : Inbox} {offered : List PollResult} {feed feed' : Pump.Surroundings}
  {pump pump' : Pump}

theorem step (h : Feeds delay inbox offered feed pump)
    (hstep : Pump.step delay feed pump = some (feed', pump')) :
    Feeds delay inbox offered feed' pump' := by
  obtain ⟨events, hrun, hsteady⟩ := h
  exact ⟨events, hrun.step hstep, hsteady⟩

theorem change (h : Feeds delay inbox offered feed pump) (stimulus : Pump.Stimulus)
    (hstays : stimulus ≠ .leave) :
    Feeds delay inbox (offered ++ stimulus.offer?.toList) (feed.after stimulus) pump := by
  obtain ⟨events, hrun, hleave, hoffers⟩ := h
  refine ⟨_, hrun.change stimulus, by simp [hleave, Ne.symm hstays], ?_⟩
  rw [Pump.Stimulus.offers, List.filterMap_append, ← Pump.Stimulus.offers, hoffers]
  cases hoffer : stimulus.offer? <;> simp [hoffer]

theorem read (h : Feeds delay inbox offered feed pump) (n : Nat) :
    Feeds delay inbox offered { feed with inbox.unread := feed.inbox.unread.drop n } pump := by
  induction n generalizing feed with
  | zero => exact h
  | succ n ih =>
    have hone := h.change .read (by simp)
    rw [show Pump.Stimulus.read.offer?.toList = [] from rfl, List.append_nil] at hone
    have hall := ih hone
    simpa [Pump.Surroundings.after] using hall

end Feeds

/-! ### Both sides -/

def Move.offer? : Move → Option PollResult
  | offer result => some result
  | _ => none

def begun (topic : String) (s : Surroundings) : Conversation where
  listener := Session.start (Subscriber.role topic) s

/-- The two runs that a conversation is. -/
structure Projection (delay : Nat) (topic : String) (s : Surroundings) (offered : List PollResult)
    (c : Conversation) : Prop where
  hears : Hears topic s (Pump.sent c.feed.history) c.listener
  feeds : Feeds delay s.inbox offered c.shared c.pump

variable {offered : List PollResult}

theorem Projection.pumped (h : Projection delay topic s offered c) {feed : Pump.Surroundings}
    {pump : Pump} (hstep : Pump.step delay c.shared c.pump = some (feed, pump)) :
    Projection delay topic s offered (c.pumped feed pump) := by
  obtain ⟨effects, hacts⟩ := (Pump.move_of_step hstep).acts
  have hsent : Pump.sent feed.history =
      Pump.sent c.feed.history ++ effects.filterMap Pump.Effect.notice? := by
    rw [hacts.history_eq, Pump.sent_eq_filterMap, List.map_append, Pump.Effect.map_effect_deeds,
      List.filterMap_append, ← Pump.sent_eq_filterMap]
    rfl
  constructor
  · -- what the pump has sent in the step is what has arrived at the subscriber
    have harrive := h.hears.arrive (effects.filterMap Pump.Effect.notice?)
    have hinbox : feed.inbox = (effects.filterMap Pump.Effect.notice?).foldl Inbox.put
        c.listener.surroundings.inbox := hacts.inbox_eq
    rw [← hinbox, ← hsent] at harrive
    exact harrive
  · exact h.feeds.step hstep

theorem Projection.stepped (h : Projection delay topic s offered c) {run : Subscriber}
    (hstep : Subscriber.step topic c.listener.surroundings c.listener.run = some (t, run)) :
    Projection delay topic s offered { c with listener := { surroundings := t, run } } := by
  obtain ⟨effects, hacts⟩ := (Subscriber.move_of_step hstep).acts
  constructor
  · exact h.hears.step hstep
  · -- what the subscriber has taken in the step is what was read from the inbox of the pump
    have hread := h.feeds.read (effects.filterMap Effect.notice?).length
    have hinbox : t.inbox = { c.listener.surroundings.inbox with
        unread := c.listener.surroundings.inbox.unread.drop
          (effects.filterMap Effect.notice?).length } := by
      rw [hacts.unread_eq, List.drop_left]
      simp only [← hacts.isOpen_eq]
    have hshared : ({ c with listener := { surroundings := t, run } } : Conversation).shared =
        { c.shared with inbox := t.inbox } := rfl
    rw [hshared, hinbox]
    exact hread

/-- A move that offers nothing leaves the results offered as they are. -/
theorem Projection.unoffered {m : Move} (hoffer : m.offer? = none)
    (h : Projection delay topic s offered c) :
    Projection delay topic s (offered ++ m.offer?.toList) c := by
  rw [hoffer, Option.toList_none, List.append_nil]
  exact h

theorem Projection.move (h : Projection delay topic s offered c) (m : Move) :
    Projection delay topic s (offered ++ m.offer?.toList) (c.move delay topic m) := by
  cases m with
  | offer result => exact ⟨h.hears, h.feeds.change (.offer result) (by simp)⟩
  | pump =>
    refine .unoffered rfl ?_
    simp only [Conversation.move]
    split
    · exact h.pumped ‹_›
    · exact h
  | subscriber =>
    refine .unoffered rfl ?_
    simp only [Conversation.move]
    split
    · exact h.stepped ‹_›
    · exact h
  | resolve answer =>
    refine .unoffered rfl ⟨h.hears.change (.inl ⟨answer, rfl⟩), ?_⟩
    have hinbox := c.listener.inbox_change (Subscriber.role topic) (.resolve answer)
    have hshared : (c.move delay topic (.resolve answer)).shared = c.shared := by
      simp only [Conversation.move, shared, hinbox, Inbox.after]
    rw [hshared]
    exact h.feeds
  | advance ms =>
    exact ⟨h.hears.change (.inr ⟨ms, rfl⟩), h.feeds.change (.advance ms) (by simp)⟩

theorem Projection.settle (h : Projection delay topic s offered c) :
    Projection delay topic s offered (c.settle delay topic) := by
  -- the pump goes on first, and then the subscriber, each by its own steps
  have hpump : Projection delay topic s offered
      (c.pumped ((Pump.activity delay).settle c.shared c.pump).1
        ((Pump.activity delay).settle c.shared c.pump).2) := by
    refine (Pump.activity delay).settle_induction
      (motive := fun feed pump => Projection delay topic s offered (c.pumped feed pump)) ?_ ?_
    · intro feed pump feed' pump' hbefore hstep
      exact hbefore.pumped hstep
    · exact ⟨h.hears, h.feeds⟩
  have hsubscriber : ∀ d, Projection delay topic s offered d →
      Projection delay topic s offered
        { d with listener := d.listener.resume (Subscriber.role topic) } := by
    intro d hbefore
    refine (Subscriber.role topic).activity.settle_induction
      (motive := fun t run =>
        Projection delay topic s offered { d with listener := { surroundings := t, run } })
      ?_ hbefore
    intro t run t' run' hreached hstep
    exact hreached.stepped hstep
  exact hsubscriber _ hpump

/-- `Reaches delay topic s ms c`: single moves in any order, and stretches in which both
    go on until they rest, lead to `c`; the moves are these. -/
inductive Reaches (delay : Nat) (topic : String) (s : Surroundings) :
    List Move → Conversation → Prop where
  | start : Reaches delay topic s [] (begun topic s)
  | move {ms : List Move} {c : Conversation} (m : Move) : Reaches delay topic s ms c →
    Reaches delay topic s (ms ++ [m]) (c.move delay topic m)
  | settle {ms : List Move} {c : Conversation} : Reaches delay topic s ms c →
    Reaches delay topic s ms (c.settle delay topic)

theorem Reaches.moves (h : Reaches delay topic s ms c) (more : List Move) :
    Reaches delay topic s (ms ++ more) (c.moves delay topic more) := by
  induction more generalizing ms c with
  | nil => simpa [Conversation.moves] using h
  | cons m more ih => simpa [Conversation.moves] using ih (h.move m)

theorem Reaches.projection (h : Reaches delay topic s ms c) :
    Projection delay topic s (ms.filterMap Move.offer?) c := by
  induction h with
  | start => exact ⟨⟨[], .start, by simp, by simp, by simp, rfl⟩, ⟨[], .start, by simp, rfl⟩⟩
  | @move ms c m _ ih =>
    have hoffers : (ms ++ [m]).filterMap Move.offer? =
        ms.filterMap Move.offer? ++ m.offer?.toList := by
      rw [List.filterMap_append]
      cases hoffer : m.offer? <;> simp [hoffer]
    rw [hoffers]
    exact ih.move m
  | settle _ ih => exact ih.settle

/-! ### Both accounts -/

/-- The accounts of both sides, put together. -/
theorem Reaches.accounts (h : Reaches delay topic s ms c) (hcalm : s.Calm) (hinbox : s.inbox = {}) :
    ∃ results, Pump.polled c.feed.history = results ++ c.pump.inHand ∧
      (∀ result ∈ results, .offer result ∈ ms) ∧
      ∃ notices, Subscriber.Transcript topic s c.listener notices ∧
        notices ++ c.listener.surroundings.inbox.unread =
          results.filterMap PollResult.notice? := by
  obtain ⟨⟨events, hrun, hrestart, hshutdown, hclose, harrivals⟩, pumpEvents, hpump, hleave,
    hoffers⟩ := h.projection
  obtain ⟨results, hstanding⟩ := Pump.standing_run hpump hleave rfl (by rw [hinbox])
  obtain ⟨notices, htranscript, hreceived⟩ :=
    Subscriber.transcript_run hrun hrestart hshutdown hcalm
  have hforwarding := hstanding.forwarding
  have hoffered : results ++ c.pump.inHand ++ c.feed.ready = ms.filterMap Move.offer? :=
    hoffers ▸ hstanding.offered
  refine ⟨results, hforwarding.polled_eq, ?_, notices, htranscript, ?_⟩
  · intro result hmem
    have hmem' : result ∈ ms.filterMap Move.offer? := by
      rw [← hoffered]
      exact List.mem_append_left _ (List.mem_append_left _ hmem)
    obtain ⟨m, hm, hoffer⟩ := List.mem_filterMap.mp hmem'
    cases m with
    | offer result' =>
      cases hoffer
      exact hm
    | _ => cases hoffer
  · -- the notices sent on one side are those that arrive on the other
    have hsent : Pump.sent c.feed.history = results.filterMap PollResult.notice? :=
      hforwarding.sent_eq
    rw [hreceived, ← hsent, ← harrivals, Inbox.received, hinbox]
    simp [Stimulus.arrivals_eq_filterMap hclose]

theorem trace_move {m : Move} (h : m ≠ .subscriber) :
    (c.move delay topic m).listener.surroundings.trace = c.listener.surroundings.trace := by
  cases m with
  | offer result => rfl
  | pump =>
    simp only [move]
    split <;> rfl
  | subscriber => exact absurd rfl h
  | resolve answer => exact (c.listener.changed_change (by simp)).trace_eq
  | advance ms => rfl

theorem Reaches.calls_le (h : Reaches delay topic s ms c) (hcalm : s.Calm) (hinbox : s.inbox = {})
    (hrefusals : .offer (.refused .success) ∉ ms) {results : List PollResult}
    (hpolled : Pump.polled c.feed.history = results ++ c.pump.inHand) :
    (c.listener.deedsSince s).calls.length ≤ results.countP PollResult.isAcceptance ∧
      (c.listener.surroundings.inbox.unread = [] →
        (c.listener.deedsSince s).calls.length = results.countP PollResult.isAcceptance) := by
  obtain ⟨results', hpolled', hoffered, notices, htranscript, hnotices⟩ := h.accounts hcalm hinbox
  obtain rfl : results' = results := List.append_cancel_right (hpolled'.symm.trans hpolled)
  have hgood : .refused .success ∉ results' := fun hmem => hrefusals (hoffered _ hmem)
  -- with refusals out of the way, every good connect in the notices is an acceptance
  have hcount := PollResult.count_notice? hgood
  have hlength : (c.listener.deedsSince s).calls.length = notices.count (.connected .success) := by
    rw [htranscript.calls, Subscriber.filterMap_request?, List.length_replicate]
  rw [← hnotices, List.count_append] at hcount
  constructor
  · omega
  · intro hempty
    rw [hempty, List.count_nil] at hcount
    omega

/-- Let `c` be any state of a conversation in calm surroundings, and let the results that
    the pump has dealt with be those it polled, but for one that it may have in hand.

    The notices handled, and after them those queued, are the notices of these results.
    The output is the text of the notices handled, and so a prefix of the text that the
    results call for.  All calls are subscriptions to the topic, at most one for each
    acceptance among the results, and the next move does not change that: when call
    number `k` is made, `k` acceptances have been dealt with before.

    With nothing queued, there are as many calls as acceptances, and the output is all
    that the results call for. -/
theorem subscriptions_follow_connects (h : Reaches delay topic s ms c) (hcalm : s.Calm)
    (hinbox : s.inbox = {}) (hrefusals : .offer (.refused .success) ∉ ms) :
    let deeds := c.listener.deedsSince s
    ∃ results, Pump.polled c.feed.history = results ++ c.pump.inHand ∧
      deeds.taken ++ c.listener.surroundings.inbox.unread =
        results.filterMap PollResult.notice? ∧
      deeds.output = deeds.taken.flatMap (Subscriber.text topic) ∧
      deeds.output <+: (results.filterMap PollResult.notice?).flatMap (Subscriber.text topic) ∧
      deeds.calls = List.replicate deeds.calls.length (.subscribe topic .atMostOnce) ∧
      deeds.calls.length ≤ results.countP PollResult.isAcceptance ∧
      (∀ m, ((c.move delay topic m).listener.deedsSince s).calls.length ≤
        results.countP PollResult.isAcceptance) ∧
      (c.listener.surroundings.inbox.unread = [] →
        deeds.calls.length = results.countP PollResult.isAcceptance ∧
          deeds.output =
            (results.filterMap PollResult.notice?).flatMap (Subscriber.text topic)) := by
  intro deeds
  obtain ⟨results, hpolled, -, notices, htranscript, hnotices⟩ := h.accounts hcalm hinbox
  obtain ⟨hle, hequal⟩ := h.calls_le hcalm hinbox hrefusals hpolled
  have hcalls := htranscript.calls
  rw [Subscriber.filterMap_request?] at hcalls
  refine ⟨results, hpolled, ?_, ?_, ?_, ?_, hle, ?_, ?_⟩
  · rw [htranscript.taken, hnotices]
  · rw [htranscript.output, htranscript.taken]
  · rw [htranscript.output, ← hnotices, List.flatMap_append]
    exact List.prefix_append _ _
  · rw [hcalls, List.length_replicate]
  · intro m
    by_cases hsubscriber : m = .subscriber
    · subst hsubscriber
      -- a step of the subscriber leaves the pump as it is
      have hsame : (c.move delay topic .subscriber).feed = c.feed ∧
          (c.move delay topic .subscriber).pump = c.pump := by
        simp only [move]
        split <;> exact ⟨rfl, rfl⟩
      have hpolled' : Pump.polled (c.move delay topic .subscriber).feed.history =
          results ++ (c.move delay topic .subscriber).pump.inHand := by
        rw [hsame.1, hsame.2]
        exact hpolled
      exact ((h.move .subscriber).calls_le hcalm hinbox (by simpa using hrefusals) hpolled').1
    · -- no other move does anything that the subscriber would be seen to do
      have htrace : (c.move delay topic m).listener.deedsSince s = deeds := by
        simp only [deeds, Session.deedsSince, Surroundings.history, trace_move hsubscriber]
      rw [htrace]
      exact hle
  · intro hempty
    refine ⟨hequal hempty, ?_⟩
    rw [htranscript.output, ← hnotices, hempty, List.append_nil]

/-- After a refusal and a pause the broker accepts.  While the first call waits, a message
    is queued and the connection fails, which the pump has yet to deal with. -/
theorem subscriptions_follow_connects_waiting :
    let s : Surroundings := { link := Link.deferred }
    let accepted : PollResult := .event (.incoming (.connAck false .success))
    let message : PollResult := .event (.incoming (.publish { topic := "a", payload := [104] }))
    let ms : List Move := [.offer (.refused .notAuthorized), .pump, .pump, .offer accepted,
      .advance 20, .pump, .pump, .subscriber, .pump, .subscriber, .subscriber, .offer message,
      .pump, .pump, .offer .failed, .pump]
    let c := (begun "t" s).moves 20 "t" ms
    Reaches 20 "t" s ms c ∧ s.Calm ∧ s.inbox = {} ∧ .offer (.refused .success) ∉ ms ∧
      c.listener.run = .subscribing ∧ c.pump.inHand = [.failed] ∧
      (c.listener.deedsSince s).taken ++ c.listener.surroundings.inbox.unread =
        [.connected .notAuthorized, .connected .success, .received "a" [104]] ∧
      (c.listener.deedsSince s).output =
        (c.listener.deedsSince s).taken.flatMap (Subscriber.text "t") ∧
      (c.listener.deedsSince s).calls.length ≤ 1 := by
  intro s accepted message ms c
  have hreaches : Reaches 20 "t" s ms c := Reaches.start.moves ms
  have hcalm : s.Calm := ⟨rfl, rfl, rfl, rfl, rfl⟩
  have hrefusals : .offer (.refused .success) ∉ ms := by decide
  obtain ⟨results, hpolled, hnotices, houtput, -, -, hle, -⟩ :=
    subscriptions_follow_connects hreaches hcalm rfl hrefusals
  have hinHand : c.pump.inHand = [.failed] := by decide
  have hall : Pump.polled c.feed.history =
      [.refused .notAuthorized, accepted, message] ++ c.pump.inHand := by decide
  obtain rfl := List.append_cancel_right (hall.symm.trans hpolled)
  exact ⟨hreaches, hcalm, rfl, hrefusals, by decide, hinHand, hnotices, houtput, hle⟩

end Conversation

end BrokerLoad

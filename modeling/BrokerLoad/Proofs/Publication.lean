/-
  BrokerLoad/Proofs/Publication.lean
  ==================================
  A publisher, its client, its pump and its reporter together, against a broker that takes
  the client and completes every handshake in order.

  The parts are joined by lists: the calls of the send loop are what the client numbers and
  sends, the events of the handshakes are what the pump polls, and the notices that the
  pump sends are what the reporter takes.  Each part has its own pace, and the answers to
  calls, the events and the notices can be late.  `publishes_end_to_end` says what
  comes out in all; `publishScript_eq` says the same of the script in which nothing is late.
-/
import BrokerLoad.Broker.PublishScript
import BrokerLoad.Proofs.Client.Delivery
import BrokerLoad.Proofs.Publisher.Service
import BrokerLoad.Proofs.Pump.Stopping
import BrokerLoad.Proofs.Reporter.Transcript

namespace BrokerLoad

/-! ### What is to come out -/

namespace Plan

variable (plan : Plan)

def wire : List Message :=
  if Client.hasWildcard plan.topic then [] else (List.range' 1 plan.count.toNat).map plan.message

/-- The line about a good connect, and one line for each message that is delivered exactly
    once, with the number of its packet. -/
def reports : Octets :=
  Octets.ofText "Connected successfully to localhost:1883 with result code 0\n" ++
    if plan.qos = .exactlyOnce then plan.wire.flatMap fun message =>
      Octets.ofText ("message successfully sent to topic with ID " ++
        toString message.pkid.toNat ++ "\n")
    else []

end Plan

/-- The outcome of a run that has ended, unless its writer failed. -/
def Publisher.Phase.outcome? : Publisher.Phase → Option Outcome
  | .ended (.finished outcome) => some outcome
  | _ => none

namespace Broker

/-! ### The wire -/

/-- The packets of a run that made all calls of the plan. -/
theorem onTheWire_submissions (plan : Plan) :
    onTheWire .success (plan.submissions plan.count.toNat) =
      if Client.hasWildcard plan.topic then [] else plan.numbered plan.count.toNat := by
  rw [onTheWire, if_pos rfl, Client.acceptedOf_submissions]
  split
  · rfl
  · exact Client.assignIds_submissions plan _

theorem messages_onTheWire (plan : Plan) :
    (onTheWire .success (plan.submissions plan.count.toNat)).filterMap Client.message? =
      plan.wire := by
  rw [onTheWire_submissions, Plan.wire]
  split
  · rfl
  · exact Client.messages_numbered plan _

/-! ### The pump and the reporter -/

variable {delay : Nat}

def clientEvents (events : List ClientEvent) : List PollResult :=
  answerTo .success :: events.map .event

/-- `Pumped delay events sent log`: a pump whose inbox is read polled the broker's good
    answer and then these events, and in dealing with all of them it sent these notices
    and logged this. -/
def Pumped (delay : Nat) (events : List ClientEvent) (sent : List Notice)
    (log : List Diagnostic) : Prop :=
  ∃ s stimuli t p, Pump.Run delay s stimuli t p ∧ Pump.Stimulus.leave ∉ stimuli ∧
    s.unclaimed = false ∧ s.inbox.isOpen = true ∧
    s.ready ++ Pump.Stimulus.offers stimuli = clientEvents events ∧
    t.ready = [] ∧ p.inHand = [] ∧
    sent = Pump.sent (t.deedsSince s) ∧ log = Pump.diagnostics (t.deedsSince s)

/-- `Printed notices octets`: a reporter whose writer does not fail took these notices and
    printed these octets. -/
def Printed (notices : List Notice) (octets : Octets) : Prop :=
  ∃ s events x, Reporter.role.Run (Session.start Reporter.role s) events x ∧
    Stimulus.restart ∉ events ∧ s.writer.limit = none ∧ s.writer.failingFlush = none ∧
    s.inbox.received events = notices ∧ x.surroundings.inbox.unread = [] ∧
    octets = (x.deedsSince s).output

theorem Pumped.eq {events : List ClientEvent} {sent : List Notice} {log : List Diagnostic}
    (h : Pumped delay events sent log) :
    sent = .connected .success :: events.filterMap Notice.ofEvent? ∧ log = [] := by
  obtain ⟨s, stimuli, t, p, hrun, hleave, hclaimed, hopen, hoffered, hready, hinHand, rfl, rfl⟩ := h
  obtain ⟨results, hstanding⟩ := Pump.standing_run hrun hleave hclaimed hopen
  have hresults : results = clientEvents events := by
    have hall := hstanding.offered
    rwa [hinHand, hready, List.append_nil, List.append_nil, hoffered] at hall
  have hforwarding := hstanding.forwarding
  constructor
  · rw [hforwarding.sent_eq, hresults, clientEvents, List.filterMap_cons, List.filterMap_map]
    rfl
  · have hlog := hforwarding.log_eq
    have hquiet : results.filterMap PollResult.complaint? = [] := by
      rw [hresults, clientEvents, List.filterMap_eq_nil_iff]
      intro result hresult
      rcases List.mem_cons.mp hresult with rfl | hevent
      · rfl
      · obtain ⟨event, -, rfl⟩ := List.mem_map.mp hevent
        rfl
    rw [hquiet] at hlog
    exact List.map_eq_nil_iff.mp hlog

theorem Printed.eq {notices : List Notice} {octets : Octets} (h : Printed notices octets) :
    octets = notices.flatMap Reporter.text := by
  obtain ⟨s, events, x, hrun, hrestart, hlimit, hflush, hreceived, hunread, rfl⟩ := h
  obtain ⟨taken, htaken, houtput⟩ := Reporter.output_run hrun hrestart hlimit hflush
  rw [hunread, List.append_nil, hreceived] at htaken
  rw [houtput, htaken]

/-- The scripted pump rests with nothing left to deal with. -/
theorem pumped_pumpRun (delay : Nat) (events : List ClientEvent) :
    Pumped delay events (Pump.sent (pumpRun delay (clientEvents events)).history)
      (Pump.diagnostics (pumpRun delay (clientEvents events)).history) := by
  let s : Pump.Surroundings := { ready := clientEvents events }
  let x := (Pump.activity delay).settle s .polling
  have hrun : Pump.Run delay s [] x.1 x.2 := Pump.Run.start.settle
  have hrest : Pump.step delay x.1 x.2 = none := (Pump.activity delay).step_settle s .polling
  obtain ⟨results, hstanding⟩ := Pump.standing_run hrun (by simp) rfl rfl
  have hoffered : results ++ x.2.inHand ++ x.1.ready = clientEvents events := by
    rw [hstanding.offered]
    exact List.append_nil _
  have hidle : x.2 = .polling ∧ x.1.ready = [] := by
    rcases Pump.rest_cases hrest with hidle | ⟨deadline, hpause, -⟩ | hended
    · exact hidle
    · -- a pause comes after a failure, and no result is one
      obtain ⟨results', hcourse⟩ := Pump.course_run hrun
      obtain ⟨failure, hlast, hfailed⟩ := hcourse.paced.pausing deadline hpause
      have hpolled : failure ∈ results ++ x.2.inHand :=
        hstanding.forwarding.polled_eq ▸ List.mem_of_getLast? hlast
      have hmem : failure ∈ clientEvents events :=
        hoffered ▸ List.mem_append_left _ hpolled
      rcases List.mem_cons.mp hmem with rfl | hevent
      · cases hfailed
      · obtain ⟨event, -, rfl⟩ := List.mem_map.mp hevent
        cases hfailed
    · exact absurd hended hstanding.going
  exact ⟨s, [], x.1, x.2, hrun, by simp, rfl, rfl, by simp [s, Pump.Stimulus.offers], hidle.2,
    by rw [hidle.1]; rfl, rfl, rfl⟩

/-- The scripted reporter takes all there is. -/
theorem printed_reporterRun (notices : List Notice) :
    Printed notices (reporterRun notices).history.output := by
  let s : Surroundings :=
    { link := Link.deferred, inbox := { unread := notices, isOpen := false } }
  let x := (Session.start Reporter.role s).resume Reporter.role
  have hrun : Reporter.role.Run (Session.start Reporter.role s) [] x := Role.Run.start.resume
  have hrest : Reporter.step x.surroundings x.run = none :=
    Reporter.activity.step_settle s .listening
  obtain ⟨-, -, -, hopen⟩ := hrun.conserves Reporter.acting
  have hclosed : x.surroundings.inbox.isOpen = false := hopen.trans rfl
  have hunread : x.surroundings.inbox.unread = [] := by
    rcases Reporter.rest_cases hrest with ⟨-, hunread, -⟩ | ⟨result, hend⟩
    · exact hunread
    · obtain rfl := Reporter.result_of_ended hrun (by simp) rfl rfl hend
      exact (Reporter.drained_of_finished hrun (by simp) hend).1
  exact ⟨s, [], x, hrun, by simp, rfl, rfl, by simp [s, Inbox.received], hunread, rfl⟩

/-- `Shown delay events octets log`: while these events happened, this was printed by the
    reporter and logged by the pump. -/
def Shown (delay : Nat) (events : List ClientEvent) (octets : Octets) (log : List Diagnostic) :
    Prop :=
  ∃ notices, Pumped delay events notices log ∧ Printed notices octets

variable {plan : Plan}

/-- What is news in the handshakes of a plan's messages. -/
theorem news_onTheWire {events : List ClientEvent}
    (h : Client.InOrder ((onTheWire .success (plan.submissions plan.count.toNat)).map
      Client.handshake) events) :
    events.filterMap Notice.ofEvent? =
      if plan.qos = .exactlyOnce then plan.wire.map fun message => .delivered message.pkid
      else [] := by
  rw [onTheWire_submissions] at h
  rw [Plan.wire]
  split at h
  · rename_i hwildcard
    rw [Client.news_inOrder h (by simp), if_pos hwildcard]
    split <;> rfl
  · rename_i hplain
    rw [Client.news_numbered h, if_neg hplain]
    split
    · rename_i hqos
      have hnumber : ∀ number, (plan.message number).pkid = Client.packetNumber number := by
        intro number
        simp [Plan.message, Plan.packetNumber, hqos]
      rw [List.map_map]
      exact List.map_congr_left fun number _ => congrArg Notice.delivered (hnumber number).symm
    · rfl

theorem text_connected : Reporter.text (.connected .success) =
    Octets.ofText "Connected successfully to localhost:1883 with result code 0\n" := by
  have htext : "Connected successfully to " ++ Endpoint.address ++ " with result code "
      ++ toString ReturnCode.success.value ++ "\n" =
      "Connected successfully to localhost:1883 with result code 0\n" := by decide
  exact congrArg Octets.ofText htext

/-- Pump and reporter show exactly the reports of the plan. -/
theorem shown_iff {delay : Nat} {events : List ClientEvent}
    (h : Client.InOrder ((onTheWire .success (plan.submissions plan.count.toNat)).map
      Client.handshake) events) (octets : Octets) (log : List Diagnostic) :
    Shown delay events octets log ↔ octets = plan.reports ∧ log = [] := by
  have hreports : (Notice.connected .success :: events.filterMap Notice.ofEvent?).flatMap
      Reporter.text = plan.reports := by
    rw [news_onTheWire h, List.flatMap_cons, text_connected, Plan.reports]
    split
    · rw [List.flatMap_map]
      rfl
    · rfl
  have honly : ∀ octets log, Shown delay events octets log →
      octets = plan.reports ∧ log = [] := by
    rintro octets log ⟨notices, hpumped, hprinted⟩
    obtain ⟨hsent, hlog⟩ := hpumped.eq
    rw [hprinted.eq, hsent, hreports]
    exact ⟨rfl, hlog⟩
  constructor
  · exact honly octets log
  · -- some pump and some reporter get through all of it: the scripted ones do
    rintro ⟨rfl, rfl⟩
    have hscripted : Shown delay events _ _ :=
      ⟨_, pumped_pumpRun delay events, printed_reporterRun _⟩
    obtain ⟨hoctets, hlog⟩ := honly _ _ hscripted
    rwa [hoctets, hlog] at hscripted

/-! ### All together -/

theorem completed_publisherRun (plan : Plan) :
    (publisherRun plan).run.phase = .ended (.finished (.completed plan.count)) := by
  have hsame : publisherRun plan = Publisher.waited plan plan.count.toNat := rfl
  rw [hsame]
  rcases Publisher.number_waited plan plan.count.toNat with hend | ⟨-, hlt, hle⟩
  · exact hend
  · omega

variable {plan : Plan} {s : Surroundings} {cues : Nat → Session.Cue}

/-- The script in which nothing is late. -/
theorem publishScript_eq (delay : Nat) (plan : Plan) :
    publishScript .up delay plan .success = .ok {
      outcome := some (.completed plan.count)
      output := plan.announcements plan.count.toNat
      reported := plan.reports
      wire := plan.wire
      diagnostics := plan.warnings plan.count.toNat } := by
  let s : Surroundings := { link := .immediate fun _ => plan.verdict }
  have hend := completed_publisherRun plan
  have hlink : Publisher.OnClient plan s := by
    intro n answer hanswer
    exact ⟨n, (Option.some.inj hanswer).symm⟩
  have hclient : ∀ stimulus ∈ List.replicate plan.count.toNat (Stimulus.advance plan.interval),
      Publisher.FromClient plan stimulus := by
    intro stimulus hmem answer hresolve
    rw [List.eq_of_mem_replicate hmem] at hresolve
    cases hresolve
  -- the send loop by itself: what it has done when it ended
  obtain ⟨houtput, hcalls, hlog⟩ := Publisher.published_of_ended
    (Publisher.run_waited plan plan.count.toNat) (Publisher.sparing_waited plan _)
    ⟨rfl, rfl, rfl, rfl, rfl⟩ hlink hclient hend
  have hcalls' : (publisherRun plan).surroundings.history.calls =
      plan.submissions plan.count.toNat := hcalls
  -- one handshake after the other is one of the orders
  obtain ⟨hreported, hquiet⟩ := (shown_iff (Client.inOrder_flatten _) _ _).mp
    (⟨_, pumped_pumpRun delay _, printed_reporterRun _⟩ : Shown delay _ _ _)
  have hflights : (onTheWire .success (plan.submissions plan.count.toNat)).flatMap
      Client.handshake = ((onTheWire .success (plan.submissions plan.count.toNat)).map
        Client.handshake).flatten := List.flatMap_def
  have hresults : clientResults .success (plan.submissions plan.count.toNat) =
      clientEvents ((onTheWire .success (plan.submissions plan.count.toNat)).map
        Client.handshake).flatten := by
    rw [clientResults, clientEvents, hflights]
  have hscript : publishScript .up delay plan .success = .ok {
      outcome := (publisherRun plan).run.phase.outcome?
      output := (publisherRun plan).surroundings.history.output
      reported := (reporterRun (Pump.sent (pumpRun delay (clientResults .success
        (publisherRun plan).surroundings.history.calls)).history)).history.output
      wire := (onTheWire .success (publisherRun plan).surroundings.history.calls).filterMap
        Client.message?
      diagnostics := Pump.diagnostics (pumpRun delay (clientResults .success
        (publisherRun plan).surroundings.history.calls)).history ++
          (publisherRun plan).surroundings.history.diagnostics } := rfl
  rw [hscript, hend, hcalls', hresults, hreported, hquiet, messages_onTheWire]
  have houtput' : (publisherRun plan).surroundings.history.output =
      plan.announcements plan.count.toNat := houtput
  have hlog' : (publisherRun plan).surroundings.history.diagnostics =
      plan.warnings plan.count.toNat := hlog
  rw [houtput', hlog', List.nil_append]
  rfl

theorem fullLine_warnings (plan : Plan) (n : Nat) :
    (plan.warnings n).map Diagnostic.fullLine =
      if Client.hasWildcard plan.topic then List.replicate n
        "WARN publish rejected by client: Failed to send mqtt requests to eventloop" else [] := by
  have hline : (Diagnostic.publishRejected Client.refusal).fullLine =
      "WARN publish rejected by client: Failed to send mqtt requests to eventloop" := by decide
  rw [Plan.warnings]
  split
  · rw [List.map_replicate, hline]
  · rfl

/-- A publisher on the client, whose every answer is the client's and every wait comes to
    an end, with a broker that takes the client and completes the handshakes in order.

    The run completes all messages of its plan.  It has printed a line for each; the log
    has a warning for each if the topic has a wildcard, and else none; and the packets on
    the wire, if the topic has no wildcard, are the messages in their order, numbered from
    one to a hundred again and again, or not numbered if nobody acknowledges them.

    Whatever the order in which the events of the handshakes come, as long as no handshake
    gets ahead of an older one: what pump and reporter print is the line about the connect,
    and after it, for messages that are delivered exactly once, the lines with the numbers
    of the packets, in the order of the wire; and the pump logs nothing. -/
theorem publishes_end_to_end (hcalm : s.Calm) (hlink : Publisher.OnClient plan s)
    (hclient : ∀ n, (cues n).Brings (Publisher.FromClient plan))
    (hfair : Publisher.Fair plan (Session.start (Publisher.role plan) s) cues) (delay : Nat) :
    ∃ n, let x := (Session.start (Publisher.role plan) s).playing (Publisher.role plan) cues n
      let packets := onTheWire .success (x.deedsSince s).calls
      x.run.phase = .ended (.finished (.completed plan.count)) ∧
        (x.deedsSince s).output = plan.announcements plan.count.toNat ∧
        (x.deedsSince s).diagnostics.map Diagnostic.fullLine =
          (if Client.hasWildcard plan.topic then List.replicate plan.count.toNat
            "WARN publish rejected by client: Failed to send mqtt requests to eventloop"
          else []) ∧
        packets.filterMap Client.message? = plan.wire ∧
        ∀ events, Client.InOrder (packets.map Client.handshake) events →
          ∀ octets log, Shown delay events octets log ↔ octets = plan.reports ∧ log = [] := by
  -- fairness is used for the end alone; the rest is what every run that ended so has done
  obtain ⟨n, hend⟩ := Publisher.ends_of_fair .start .nil hcalm hfair 0
  refine ⟨n, ?_⟩
  intro x packets
  have hcues : ∀ n, (cues n).Brings fun stimulus =>
      stimulus.Spares ∧ Publisher.FromClient plan stimulus := by
    intro n
    have hspares := hfair.spares n
    have hserved := hclient n
    cases hcue : cues n with
    | stimulus change held =>
      rw [hcue] at hspares hserved
      exact ⟨hspares, hserved⟩
    | run ms =>
      rw [hcue] at hspares hserved
      exact ⟨hspares, hserved⟩
  obtain ⟨events, hkinds, hrun⟩ := Role.Run.playing (Publisher.role plan) hcues
    (Session.start (Publisher.role plan) s) (Nat.zero_le n)
  obtain ⟨houtput, hcalls, hlog⟩ := Publisher.published_of_ended hrun
    (fun stimulus hmem => (hkinds stimulus hmem).1) hcalm hlink
    (fun stimulus hmem => (hkinds stimulus hmem).2) hend
  have hpackets : packets = onTheWire .success (plan.submissions plan.count.toNat) :=
    congrArg (onTheWire .success) hcalls
  refine ⟨hend, houtput, ?_, ?_, ?_⟩
  · rw [hlog, fullLine_warnings]
  · rw [hpackets, messages_onTheWire]
  · intro events horder
    rw [hpackets] at horder
    exact shown_iff horder

/-- Two hundred and fifty messages with late answers: the numbers begin again with the
    hundred and first message. -/
theorem publishes_end_to_end_beyond_the_limit :
    let plan : Plan := { topic := "t", count := 250, interval := 5, qos := .exactlyOnce }
    let s : Surroundings := { link := .deferred }
    let x := (Session.start (Publisher.role plan) s).playing (Publisher.role plan)
      (Publisher.steady plan)
    s.Calm ∧ Publisher.OnClient plan s ∧
      (∀ n, (Publisher.steady plan n).Brings (Publisher.FromClient plan)) ∧
      Publisher.Fair plan (Session.start (Publisher.role plan) s) (Publisher.steady plan) ∧
      ∃ n, (x n).run.phase = .ended (.finished (.completed 250)) ∧
        (x n |>.deedsSince s).diagnostics = [] ∧
        ((((onTheWire .success (x n |>.deedsSince s).calls).filterMap Client.message?).drop 99).take
          2).map (·.pkid.toNat) = [100, 1] := by
  intro plan s x
  have hcalm : s.Calm := ⟨rfl, rfl, rfl, rfl, rfl⟩
  have hlink : Publisher.OnClient plan s := fun _ _ hanswer => nomatch hanswer
  have hclient : ∀ n, (Publisher.steady plan n).Brings (Publisher.FromClient plan) := by
    intro n
    by_cases heven : n % 2 = 0
    · simp only [Publisher.steady, heven, if_true, Session.Cue.Brings]
      rintro _ ⟨⟩
      exact ⟨1, rfl⟩
    · simp only [Publisher.steady, heven, if_false, Session.Cue.Brings]
      rintro _ ⟨⟩
  have hfair : Publisher.Fair plan (Session.start (Publisher.role plan) s)
      (Publisher.steady plan) := Publisher.fair_steady .start .nil
  obtain ⟨n, hend, -, hlog, hwire, -⟩ := publishes_end_to_end hcalm hlink hclient hfair 1000
  have hplain : Client.hasWildcard plan.topic = false := by decide
  rw [hplain] at hlog
  refine ⟨hcalm, hlink, hclient, hfair, n, hend, List.map_eq_nil_iff.mp hlog, ?_⟩
  rw [hwire]
  decide

end Broker

end BrokerLoad

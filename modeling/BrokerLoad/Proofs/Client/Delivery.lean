/-
  BrokerLoad/Proofs/Client/Delivery.lean
  ======================================
  What becomes of a plan's calls in the client: which of them it takes, the numbers of
  their packets, and the news in their handshakes.

  The handshakes of many messages are under way at once.  `InOrder` says which events may
  come next then: each handshake goes on in its own order, and none gets ahead of an older
  one.  The news, at the end of each handshake, comes in the order of the messages
  whatever else comes between (`news_inOrder`).
-/
import BrokerLoad.Client.Delivery
import BrokerLoad.Proofs.Publisher.Account

namespace BrokerLoad

/-! ### Calls that the client takes -/

namespace Client

/-- The client looks at nothing but the topic of a plan's calls. -/
theorem refusesUnseen_submission (plan : Plan) (number : Nat) :
    refusesUnseen (plan.submission number) = hasWildcard plan.topic := rfl

theorem acceptedOf_submissions (plan : Plan) (n : Nat) :
    acceptedOf (plan.submissions n) =
      if hasWildcard plan.topic then [] else plan.submissions n := by
  unfold acceptedOf
  split
  · rename_i hwildcard
    rw [List.filter_eq_nil_iff]
    intro call hcall
    obtain ⟨number, -, rfl⟩ := List.mem_map.mp hcall
    simp [refusesUnseen_submission, hwildcard]
  · rename_i hplain
    rw [List.filter_eq_self]
    intro call hcall
    obtain ⟨number, -, rfl⟩ := List.mem_map.mp hcall
    simp [refusesUnseen_submission, hplain]

/-! ### Packet numbers -/

/-- The number of the acknowledged packet `k`, counted from one: from one to the limit,
    again and again. -/
def packetNumber (k : Nat) : PacketId := UInt16.ofNat ((k - 1) % 100 + 1)

def lastNumber : Nat → PacketId
  | 0 => 0
  | k + 1 => packetNumber (k + 1)

theorem nextId_lastNumber (k : Nat) : nextId (lastNumber k) = packetNumber (k + 1) := by
  cases k with
  | zero => decide
  | succ k =>
    -- the numbers go round, so it is enough to look at one round
    have hround : ∀ r : Fin 100,
        nextId (UInt16.ofNat (r + 1)) = UInt16.ofNat ((r + 1) % 100 + 1) := by decide
    have hthis := hround ⟨k % 100, Nat.mod_lt _ (by decide)⟩
    simp only [Nat.mod_add_mod] at hthis
    simpa [lastNumber, packetNumber] using hthis

end Client

namespace Plan

variable (plan : Plan)

/-- The packet number of message `number`: none is needed if nobody acknowledges it. -/
def packetNumber (number : Nat) : PacketId :=
  if plan.qos = .atMostOnce then 0 else Client.packetNumber number

def message (number : Nat) : Message where
  topic := plan.topic
  payload := Octets.ofText (Payload.numbered number)
  qos := plan.qos
  pkid := plan.packetNumber number

def numbered (n : Nat) : List (Call × PacketId) :=
  (List.range' 1 n).map fun number => (plan.submission number, plan.packetNumber number)

end Plan

namespace Client

theorem isAcknowledged_submission (plan : Plan) (number : Nat) :
    isAcknowledged (plan.submission number) = (plan.qos != .atMostOnce) := rfl

theorem assignIds_unacknowledged {plan : Plan} (hqos : plan.qos = .atMostOnce) (last : PacketId)
    (numbers : List Nat) : assignIds last (numbers.map plan.submission) =
      numbers.map fun number => (plan.submission number, plan.packetNumber number) := by
  induction numbers with
  | nil => rfl
  | cons number numbers ih =>
    have hplain : ¬ isAcknowledged (plan.submission number) = true := by
      simp [isAcknowledged_submission, hqos]
    rw [List.map_cons, assignIds, if_neg hplain, ih, List.map_cons, Plan.packetNumber, if_pos hqos]

theorem assignIds_acknowledged {plan : Plan} (hqos : plan.qos ≠ .atMostOnce) (m n : Nat) :
    assignIds (lastNumber m) ((List.range' (m + 1) n).map plan.submission) =
      (List.range' (m + 1) n).map fun number =>
        (plan.submission number, plan.packetNumber number) := by
  induction n generalizing m with
  | zero => rfl
  | succ n ih =>
    have hacknowledged : isAcknowledged (plan.submission (m + 1)) = true := by
      simp [isAcknowledged_submission, hqos]
    have hnumber : plan.packetNumber (m + 1) = packetNumber (m + 1) := if_neg hqos
    rw [List.range'_succ, List.map_cons, assignIds, if_pos hacknowledged, nextId_lastNumber,
      List.map_cons, hnumber]
    exact congrArg _ (ih (m + 1))

theorem assignIds_submissions (plan : Plan) (n : Nat) :
    assignIds 0 (plan.submissions n) = plan.numbered n := by
  by_cases hqos : plan.qos = .atMostOnce
  · exact assignIds_unacknowledged hqos 0 _
  · exact assignIds_acknowledged hqos 0 n

theorem messages_numbered (plan : Plan) (n : Nat) :
    (plan.numbered n).filterMap message? = (List.range' 1 n).map plan.message := by
  rw [Plan.numbered, List.filterMap_map]
  exact List.filterMap_eq_map' ▸ rfl

/-! ### Handshakes -/

/-- Nothing but its last event is news. -/
def Closing (events : List ClientEvent) : Prop :=
  ∀ event ∈ events.dropLast, Notice.ofEvent? event = none

theorem closing_handshake (sent : Call × PacketId) : Closing (handshake sent) := by
  obtain ⟨call, pkid⟩ := sent
  intro event hevent
  cases call with
  | subscribe topic qos =>
    simp only [handshake, List.dropLast, List.mem_cons, List.not_mem_nil, or_false] at hevent
    rw [hevent]
    rfl
  | publish topic qos payload =>
    cases qos <;>
      simp only [handshake, List.dropLast, List.mem_cons, List.not_mem_nil, or_false] at hevent
    · rw [hevent]
      rfl
    · rcases hevent with rfl | rfl | rfl <;> rfl

/-- Only a message that is to be delivered exactly once has a handshake with news. -/
theorem news_handshake (plan : Plan) (number : Nat) (pkid : PacketId) :
    (handshake (plan.submission number, pkid)).filterMap Notice.ofEvent? =
      if plan.qos = .exactlyOnce then [.delivered pkid] else [] := by
  unfold Plan.submission
  cases plan.qos <;> rfl

/-- `InOrder flights events`: these events can come, in this order, while these handshakes
    are under way, of each of which the events still to come are given, the oldest
    handshake first.  None gets ahead of an older one.  Pings can come between. -/
inductive InOrder : List (List ClientEvent) → List ClientEvent → Prop where
  | done (n : Nat) : InOrder (List.replicate n []) []
  | ping {flights : List (List ClientEvent)} {events : List ClientEvent} (event : ClientEvent) :
    event = .outgoing .pingReq ∨ event = .incoming .pingResp → InOrder flights events →
    InOrder flights (event :: events)
  | next {older younger : List (List ClientEvent)} {rest events : List ClientEvent}
    (event : ClientEvent) : (∀ flight ∈ older, flight.length ≤ rest.length) →
    InOrder (older ++ rest :: younger) events →
    InOrder (older ++ (event :: rest) :: younger) (event :: events)

/-- The news comes in the order of the handshakes. -/
theorem news_inOrder {flights : List (List ClientEvent)} {events : List ClientEvent}
    (h : InOrder flights events) (hclosing : ∀ flight ∈ flights, Closing flight) :
    events.filterMap Notice.ofEvent? =
      flights.flatMap fun flight => flight.filterMap Notice.ofEvent? := by
  induction h with
  | done n => simp
  | ping event hping _ ih =>
    rw [← ih hclosing]
    rcases hping with rfl | rfl <;> rfl
  | @next older younger rest events event hahead _ ih =>
    -- what is left of a handshake is silent up to its last event
    have hrest : Closing rest := by
      intro later hlater
      apply hclosing (event :: rest) (by simp)
      cases rest with
      | nil => cases hlater
      | cons first rest => exact List.mem_cons_of_mem _ hlater
    have hothers : ∀ flight ∈ older ++ rest :: younger, Closing flight := by
      intro flight hflight
      rw [List.mem_append, List.mem_cons] at hflight
      rcases hflight with hin | rfl | hin
      · exact hclosing flight (by simp [hin])
      · exact hrest
      · exact hclosing flight (by simp [hin])
    have hlater := ih hothers
    rw [List.flatMap_append, List.flatMap_cons] at hlater ⊢
    cases rest with
    | nil =>
      have hended : older.flatMap (fun flight => flight.filterMap Notice.ofEvent?) = [] := by
        rw [List.flatMap_eq_nil_iff]
        intro flight hflight
        rw [List.length_eq_zero_iff.mp (Nat.le_zero.mp (hahead flight hflight))]
        rfl
      rw [hended] at hlater ⊢
      cases hnews : Notice.ofEvent? event <;> simp [hnews, hlater]
    | cons first rest =>
      -- the handshake goes on, so this event is not its last
      have hsilent : Notice.ofEvent? event = none :=
        hclosing (event :: first :: rest) (by simp) event (by simp)
      rw [List.filterMap_cons_none hsilent, List.filterMap_cons_none hsilent, hlater]

/-- One handshake after the other is in order. -/
theorem inOrder_flatten (flights : List (List ClientEvent)) : InOrder flights flights.flatten := by
  -- with so many handshakes that have ended before them
  have hall : ∀ n, InOrder (List.replicate n [] ++ flights) flights.flatten := by
    induction flights with
    | nil =>
      intro n
      rw [List.append_nil]
      exact .done n
    | cons flight flights ih =>
      intro n
      rw [List.flatten_cons]
      induction flight with
      | nil =>
        have hended : List.replicate n [] ++ [] :: flights =
            List.replicate (n + 1) [] ++ flights := by
          rw [List.replicate_succ', List.append_assoc]
          rfl
        rw [hended]
        exact ih (n + 1)
      | cons event rest ihrest =>
        refine .next event ?_ ihrest
        intro flight hflight
        rw [List.eq_of_mem_replicate hflight]
        exact Nat.zero_le _
  exact hall 0

/-- The news in the handshakes of a plan's messages. -/
theorem news_numbered {plan : Plan} {n : Nat} {events : List ClientEvent}
    (h : InOrder ((plan.numbered n).map handshake) events) :
    events.filterMap Notice.ofEvent? =
      if plan.qos = .exactlyOnce then
        (List.range' 1 n).map fun number => .delivered (Client.packetNumber number)
      else [] := by
  have hclosing : ∀ flight ∈ (plan.numbered n).map handshake, Closing flight := by
    intro flight hflight
    obtain ⟨sent, -, rfl⟩ := List.mem_map.mp hflight
    exact closing_handshake sent
  -- the number in the news is the one on the wire
  have hone : ∀ number, (handshake (plan.submission number, plan.packetNumber number)).filterMap
      Notice.ofEvent? =
        if plan.qos = .exactlyOnce then [.delivered (packetNumber number)] else [] := by
    intro number
    rw [news_handshake]
    split
    · rename_i hqos
      simp [Plan.packetNumber, hqos]
    · rfl
  rw [news_inOrder h hclosing, Plan.numbered, List.map_map, List.flatMap_map]
  simp only [Function.comp_def, hone]
  split
  · exact (List.map_eq_flatMap).symm
  · simp

end Client

end BrokerLoad

/-
  BrokerLoad/Proofs/Subscriber/Record.lean
  ========================================
  What a subscriber has printed tells what it was given.

  The line of a message ends at its first newline, since the literal in it has none; in
  the line, topic and payload are told apart by the one arrow that a whole literal
  follows (`arrow_inj`).  So the text of a notice can be told from whatever comes after
  it (`text_append_inj`), and with it a whole record (`texts_inj`).  The topic of the
  subscriber itself may be anything: its line is the same after every good connect.

  `Prints` ties records to runs, and `record_unambiguous` says that no record has two
  readings.
-/
import BrokerLoad.Proofs.ByteLiteral
import BrokerLoad.Proofs.Subscriber.Transcript

namespace BrokerLoad

/-! ### Lines -/

namespace Octets

/-- An octet below 128 is a character of its own, so a newline among the octets of a text is
    one of its characters. -/
theorem newline_mem_encodeChar {c : Char} (h : 0x0a ∈ String.utf8EncodeChar c) : c = '\n' := by
  have hten : ∀ n : Nat, n < 256 → (0x0a : UInt8) = UInt8.ofNat n → n = 10 := by
    intro n hlt hn
    have hnumber := congrArg UInt8.toNat hn
    rw [UInt8.toNat_ofNat'] at hnumber
    simp at hnumber
    omega
  unfold String.utf8EncodeChar at h
  dsimp only at h
  split at h
  · have hvalue := hten _ (by omega) (List.mem_singleton.mp h)
    exact Char.ext (UInt32.toNat_inj.mp hvalue)
  -- the octets of a longer character are all above 127
  split at h
  · simp only [List.mem_cons, List.not_mem_nil, or_false] at h
    rcases h with h | h <;> have := hten _ (by omega) h <;> omega
  split at h
  · simp only [List.mem_cons, List.not_mem_nil, or_false] at h
    rcases h with h | h | h <;> have := hten _ (by omega) h <;> omega
  · simp only [List.mem_cons, List.not_mem_nil, or_false] at h
    rcases h with h | h | h | h <;> have := hten _ (by omega) h <;> omega

theorem ofText_eq_flatMap (s : String) : ofText s = s.toList.flatMap String.utf8EncodeChar := by
  have h : ofText (String.ofList s.toList) = s.toList.flatMap String.utf8EncodeChar := by
    rw [ofText, String.toUTF8_eq_toByteArray, String.toByteArray_ofList, List.utf8Encode]
    simp
  rwa [String.ofList_toList] at h

theorem newline_mem_ofText {s : String} (h : 0x0a ∈ ofText s) : '\n' ∈ s.toList := by
  rw [ofText_eq_flatMap] at h
  obtain ⟨c, hc, hin⟩ := List.mem_flatMap.mp h
  rwa [newline_mem_encodeChar hin] at hc

/-- A line ends at its first newline. -/
theorem line_inj {line line' rest rest' : Octets} (hline : 0x0a ∉ line) (hline' : 0x0a ∉ line')
    (h : line ++ 0x0a :: rest = line' ++ 0x0a :: rest') : line = line' ∧ rest = rest' := by
  -- what one line has more than the other would begin with the newline that ends the other
  rcases List.append_eq_append_iff.mp h with ⟨more, rfl, hmore⟩ | ⟨more, rfl, hmore⟩
  · cases more with
    | nil => simpa using hmore
    | cons first more =>
      obtain ⟨rfl, -⟩ := List.cons.inj hmore
      simp at hline'
  · cases more with
    | nil => simpa [eq_comm] using hmore
    | cons first more =>
      obtain ⟨rfl, -⟩ := List.cons.inj hmore
      simp at hline

end Octets

/-! ### The text of one notice -/

/-- A notice whose line can be told from the lines around it: it has one, and its topic stays
    in it. -/
def Notice.IsLegible : Notice → Prop
  | .connected _ => True
  | .delivered _ => False
  | .received topic _ => '\n' ∉ topic.toList

instance : DecidablePred Notice.IsLegible
  | .connected _ => isTrue trivial
  | .delivered _ => isFalse id
  | .received topic _ => inferInstanceAs (Decidable ('\n' ∉ topic.toList))

namespace Subscriber

variable {topic : String}

def arrow : Octets := [0x20, 0x2d, 0x3e, 0x20]

theorem messageLine_eq (source : String) (payload : Octets) :
    messageLine source payload = Octets.ofText "received message on : " ++
      (Octets.ofText source ++ arrow ++ ByteLiteral.encode payload ++ [0x0a]) := by
  have harrow : Octets.ofText " -> " = arrow := rfl
  have hnewline : Octets.ofText "\n" = [0x0a] := rfl
  simp only [messageLine, Octets.ofText_append, harrow, hnewline, List.append_assoc]

/-- Wherever the arrow stands a second time, what follows it is no literal up to the end of
    the line. -/
theorem arrow_inj {source source' payload payload' : Octets}
    (h : source ++ arrow ++ ByteLiteral.encode payload =
      source' ++ arrow ++ ByteLiteral.encode payload') : source = source' ∧ payload = payload' := by
  -- one of the two sources is the longer one, by some octets
  have hlonger : ∀ {p p' more : Octets},
      arrow ++ ByteLiteral.encode p = more ++ (arrow ++ ByteLiteral.encode p') → more = [] := by
    intro p p' more hmore
    -- up to three octets more do not fit the arrow; four or more leave it in the literal
    rcases more with _ | ⟨a, _ | ⟨b, _ | ⟨c, _ | ⟨d, more⟩⟩⟩⟩
    · rfl
    · simp [arrow] at hmore
    · simp [arrow] at hmore
    · simp [arrow, ByteLiteral.encode] at hmore
    · have hliteral : ByteLiteral.encode p =
          (more ++ [0x20, 0x2d, 0x3e]) ++ 0x20 :: ByteLiteral.encode p' := by
        simp only [arrow, List.cons_append, List.cons.injEq, List.nil_append] at hmore
        simpa using hmore.2.2.2.2
      exact absurd hliteral (ByteLiteral.encode_ne_append _ _ _)
  rw [List.append_assoc, List.append_assoc] at h
  rcases List.append_eq_append_iff.mp h with ⟨more, rfl, hmore⟩ | ⟨more, rfl, hmore⟩
  · obtain rfl := hlonger hmore
    refine ⟨(List.append_nil _).symm, ?_⟩
    rw [List.nil_append] at hmore
    exact ByteLiteral.encode_injective (List.append_cancel_left hmore)
  · obtain rfl := hlonger hmore
    refine ⟨List.append_nil _, ?_⟩
    rw [List.nil_append] at hmore
    exact ByteLiteral.encode_injective (List.append_cancel_left hmore).symm

theorem messageLine_append_inj {source source' : String} {payload payload' rest rest' : Octets}
    (hsource : '\n' ∉ source.toList) (hsource' : '\n' ∉ source'.toList)
    (h : messageLine source payload ++ rest = messageLine source' payload' ++ rest') :
    source = source' ∧ payload = payload' ∧ rest = rest' := by
  -- the line has no newline before its own: the literal escapes it, the topic has none
  have hwhole : ∀ {source : String} (payload : Octets), '\n' ∉ source.toList →
      0x0a ∉ Octets.ofText source ++ arrow ++ ByteLiteral.encode payload := by
    intro source payload hsource hmem
    rw [List.mem_append, List.mem_append] at hmem
    rcases hmem with (hin | hin) | hin
    · exact hsource (Octets.newline_mem_ofText hin)
    · simp [arrow] at hin
    · exact absurd (ByteLiteral.printable_encode hin).1 (by decide)
  rw [messageLine_eq, messageLine_eq] at h
  have hlines : Octets.ofText source ++ arrow ++ ByteLiteral.encode payload ++ 0x0a :: rest =
      Octets.ofText source' ++ arrow ++ ByteLiteral.encode payload' ++ 0x0a :: rest' := by
    simpa using h
  obtain ⟨hline, hrest⟩ :=
    Octets.line_inj (hwhole payload hsource) (hwhole payload' hsource') hlines
  obtain ⟨htopic, hpayload⟩ := arrow_inj hline
  exact ⟨Octets.ofText_injective htopic, hpayload, hrest⟩

theorem connectLine_append_inj {code code' : ReturnCode} {rest rest' : Octets}
    (h : connectLine code ++ rest = connectLine code' ++ rest') : code = code' ∧ rest = rest' := by
  -- every code is one digit, so the lines have one length and differ in that digit
  have hlength : ∀ code, (connectLine code).length = (connectLine .success).length := by
    intro code
    cases code <;> decide
  obtain ⟨hline, hrest⟩ := List.append_inj h ((hlength code).trans (hlength code').symm)
  refine ⟨?_, hrest⟩
  have htext := Octets.ofText_injective hline
  simp only [String.append_left_inj, String.append_right_inj] at htext
  revert htext
  cases code <;> cases code' <;> decide

theorem head?_connectLine (code : ReturnCode) : (connectLine code).head? = some 0x43 := by
  cases code <;> decide

theorem head?_messageLine (source : String) (payload : Octets) :
    (messageLine source payload).head? = some 0x72 := by
  rw [messageLine_eq]
  rfl

theorem connectLine_ne_messageLine (code : ReturnCode) (source : String)
    (payload rest rest' : Octets) :
    connectLine code ++ rest ≠ messageLine source payload ++ rest' := by
  intro h
  have hhead := congrArg List.head? h
  rw [List.head?_append, List.head?_append, head?_connectLine, head?_messageLine] at hhead
  simp at hhead

/-- The text of a legible notice can be told from whatever follows it. -/
theorem text_append_inj {notice notice' : Notice} {rest rest' : Octets}
    (hlegible : notice.IsLegible) (hlegible' : notice'.IsLegible)
    (h : text topic notice ++ rest = text topic notice' ++ rest') :
    notice = notice' ∧ rest = rest' := by
  -- a notice of the other kind is told by the first letter of its line
  cases notice with
  | delivered pkid => exact hlegible.elim
  | connected code =>
    cases notice' with
    | delivered pkid => exact hlegible'.elim
    | connected code' =>
      simp only [text, List.append_assoc] at h
      obtain ⟨rfl, hrest⟩ := connectLine_append_inj h
      exact ⟨rfl, List.append_cancel_left hrest⟩
    | received source payload =>
      simp only [text, List.append_assoc] at h
      exact absurd h (connectLine_ne_messageLine _ _ _ _ _)
  | received source payload =>
    cases notice' with
    | delivered pkid => exact hlegible'.elim
    | connected code =>
      simp only [text, List.append_assoc] at h
      exact absurd h.symm (connectLine_ne_messageLine _ _ _ _ _)
    | received source' payload' =>
      obtain ⟨rfl, rfl, hrest⟩ := messageLine_append_inj hlegible hlegible' h
      exact ⟨rfl, hrest⟩

theorem text_ne_nil {notice : Notice} (hlegible : notice.IsLegible) :
    text topic notice ≠ [] := by
  intro h
  have hhead := congrArg List.head? h
  cases notice with
  | delivered pkid => exact hlegible.elim
  | connected code => simp [text, List.head?_append, head?_connectLine] at hhead
  | received source payload => simp [text, head?_messageLine] at hhead

/-- Reading from the left, one notice after the other can be told. -/
theorem texts_inj {xs ys : List Notice} (hxs : ∀ notice ∈ xs, notice.IsLegible)
    (hys : ∀ notice ∈ ys, notice.IsLegible)
    (h : xs.flatMap (text topic) = ys.flatMap (text topic)) : xs = ys := by
  induction xs generalizing ys with
  | nil =>
    cases ys with
    | nil => rfl
    | cons notice ys =>
      rw [List.flatMap_nil, List.flatMap_cons, List.nil_eq_append_iff] at h
      exact absurd h.1 (text_ne_nil (hys notice List.mem_cons_self))
  | cons notice xs ih =>
    cases ys with
    | nil =>
      rw [List.flatMap_nil, List.flatMap_cons, List.append_eq_nil_iff] at h
      exact absurd h.1 (text_ne_nil (hxs notice List.mem_cons_self))
    | cons notice' ys =>
      rw [List.flatMap_cons, List.flatMap_cons] at h
      obtain ⟨rfl, hrest⟩ := text_append_inj (hxs notice List.mem_cons_self)
        (hys notice' List.mem_cons_self) h
      rw [ih (fun later hlater => hxs later (List.mem_cons_of_mem _ hlater))
        (fun later hlater => hys later (List.mem_cons_of_mem _ hlater)) hrest]

/-! ### Records -/

/-- A run in calm surroundings that was given these notices has taken all of them, and has
    written these octets. -/
def Prints (topic : String) (notices : List Notice) (octets : Octets) : Prop :=
  ∃ s events x, (role topic).Run (Session.start (role topic) s) events x ∧
    Stimulus.restart ∉ events ∧ Stimulus.shutdown ∉ events ∧ s.Calm ∧
    s.inbox.received events = notices ∧ x.surroundings.inbox.unread = [] ∧
    (x.deedsSince s).output = octets

/-- Whatever its link answers and in whatever batches the notices come, a run prints their
    texts. -/
theorem Prints.eq {notices : List Notice} {octets : Octets} (h : Prints topic notices octets) :
    octets = notices.flatMap (text topic) := by
  obtain ⟨s, events, x, hrun, hrestart, hshutdown, hcalm, rfl, hunread, rfl⟩ := h
  obtain ⟨taken, htranscript, hreceived⟩ := transcript_run hrun hrestart hshutdown hcalm
  rw [hunread, List.append_nil] at hreceived
  rw [htranscript.output, hreceived]

theorem prints_texts (topic : String) (notices : List Notice) :
    Prints topic notices (notices.flatMap (text topic)) := by
  let s : Surroundings := { link := .deferred, inbox := { unread := notices, isOpen := false } }
  -- the notices are there from the beginning, and every call is answered in the end
  let answers := List.replicate (pending topic s .listening) Answer.accepted
  have hcalm : s.Calm := ⟨rfl, rfl, rfl, rfl, rfl⟩
  have hresumed : (role topic).Run (Session.start (role topic) s) []
      ((Session.start (role topic) s).resume (role topic)) := Role.Run.start.resume
  obtain ⟨-, -, -, hopen⟩ := hresumed.conserves (acting topic)
  have hrun := hresumed.foldl_react (answers.map Stimulus.resolve)
  have hrestart : Stimulus.restart ∉ [] ++ answers.map Stimulus.resolve := by simp
  have hshutdown : Stimulus.shutdown ∉ [] ++ answers.map Stimulus.resolve := by simp
  have hend := ended_of_answers answers hresumed List.not_mem_nil List.not_mem_nil hcalm hopen
    ((role topic).activity.step_settle _ _)
    (Nat.le_trans (pending_resume _) (Nat.le_of_eq (List.length_replicate).symm))
  obtain ⟨-, hunread, -⟩ := ended_of_calm hrun hrestart hshutdown hcalm hend
  have hreceived : s.inbox.received ([] ++ answers.map Stimulus.resolve) = notices :=
    List.append_nil _
  have htranscript := transcript_of_ended hrun hrestart hshutdown hcalm hend
  rw [hreceived] at htranscript
  exact ⟨s, _, _, hrun, hrestart, hshutdown, hcalm, hreceived, hunread, htranscript.output⟩

/-- The record of a run tells what it was given: every sequence of legible notices has a
    record, and no two of them have the same, whatever is in the topics and payloads and
    however the notices came and the link answered. -/
theorem record_unambiguous {xs : List Notice} (hxs : ∀ notice ∈ xs, notice.IsLegible) :
    (∃ octets, Prints topic xs octets) ∧
      ∀ {ys : List Notice} {octets : Octets}, (∀ notice ∈ ys, notice.IsLegible) →
        Prints topic xs octets → Prints topic ys octets → xs = ys := by
  constructor
  · exact ⟨_, prints_texts topic xs⟩
  · intro ys octets hys hx hy
    apply texts_inj hxs hys
    rw [← hx.eq, ← hy.eq]

/-- The topic of the message looks like a whole line up to its literal.  One run is given
    all notices at once, the other one by one, with an answer that comes late. -/
theorem record_unambiguous_across_batches :
    let xs : List Notice := [.connected .badClientId, .connected .success,
      .received "a -> b'x'" [0x27, 0x0a, 0x5c]]
    let s : Surroundings :=
      { link := .immediate fun _ => .accepted, inbox := { unread := xs, isOpen := false } }
    let x := (Session.start (role "t") s).resume (role "t")
    let t : Surroundings := { link := .deferred }
    let message : Message := { topic := "a -> b'x'", payload := [0x27, 0x0a, 0x5c], retain := true }
    let events : List Stimulus := [.notice (.connected .badClientId),
      .event (.incoming (.connAck false .success)), .event (.incoming (.publish message)),
      .resolve (.refused "full")]
    let y := events.foldl (Session.react (role "t")) (Session.start (role "t") t)
    (∀ notice ∈ xs, notice.IsLegible) ∧ (∀ notice ∈ t.inbox.received events, notice.IsLegible) ∧
      Prints "t" xs (x.deedsSince s).output ∧
      Prints "t" (t.inbox.received events) (y.deedsSince t).output ∧
      (x.deedsSince s).output = (y.deedsSince t).output ∧ xs = t.inbox.received events := by
  intro xs s x t message events y
  have hxs : ∀ notice ∈ xs, notice.IsLegible := by decide
  have hys : ∀ notice ∈ t.inbox.received events, notice.IsLegible := by decide
  have hx : Prints "t" xs (x.deedsSince s).output :=
    ⟨s, [], x, Role.Run.start.resume, List.not_mem_nil, List.not_mem_nil, ⟨rfl, rfl, rfl, rfl, rfl⟩,
      by decide, by decide, rfl⟩
  have hy : Prints "t" (t.inbox.received events) (y.deedsSince t).output :=
    ⟨t, events, y, Role.Run.start.foldl_react events, by decide, by decide,
      ⟨rfl, rfl, rfl, rfl, rfl⟩, rfl, by decide, rfl⟩
  have hsame : (x.deedsSince s).output = (y.deedsSince t).output := by decide +kernel
  have hy' : Prints "t" (t.inbox.received events) (x.deedsSince s).output := by
    rw [hsame]
    exact hy
  exact ⟨hxs, hys, hx, hy, hsame, (record_unambiguous hxs).2 hys hx hy'⟩

end Subscriber
end BrokerLoad

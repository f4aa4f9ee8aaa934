/-
  BrokerLoad/Proofs/Client/RequestQueue.lean
  ==========================================
  Which calls find a place in a queue that nobody empties.

  Only some calls compete for the places (`contenders`): messages with a wildcard in their
  topic do not, and nothing does once the connection is gone.  One move keeps the queue as
  full as the contenders so far can make it (`Standing.move`), so the first of them, as many
  as there are places, are accepted and the others would wait.

  `verdicts_by_rank` puts this together for a call at any place of any sequence of moves.
-/
import BrokerLoad.Client.RequestQueue
import Mathlib.Data.List.Induction

namespace BrokerLoad

/-- A message for a topic with a plus or a hash sign. -/
def Call.IsWildcardMessage : Call → Prop
  | .publish topic _ _ => '+' ∈ topic.toList ∨ '#' ∈ topic.toList
  | .subscribe _ _ => False

instance (call : Call) : Decidable call.IsWildcardMessage :=
  match call with
  | .publish topic _ _ => inferInstanceAs (Decidable ('+' ∈ topic.toList ∨ '#' ∈ topic.toList))
  | .subscribe _ _ => inferInstanceAs (Decidable False)

namespace Client

theorem refusesUnseen_iff (call : Call) : refusesUnseen call = true ↔ call.IsWildcardMessage := by
  cases call with
  | publish topic qos payload =>
    simp only [refusesUnseen, hasWildcard, Call.IsWildcardMessage, List.any_eq_true,
      Bool.or_eq_true, beq_iff_eq]
    constructor
    · rintro ⟨c, hc, rfl | rfl⟩
      · exact .inl hc
      · exact .inr hc
    · rintro (hplus | hhash)
      · exact ⟨'+', hplus, .inl rfl⟩
      · exact ⟨'#', hhash, .inr rfl⟩
  | subscribe topic qos => simp [refusesUnseen, Call.IsWildcardMessage]

namespace RequestQueue

variable {q : RequestQueue} {capacity : Nat} {ms : List Move}

/-! ### Sequences of moves -/

def after (q : RequestQueue) (ms : List Move) : RequestQueue :=
  ms.foldl (fun q m => (q.move m).1) q

@[simp] theorem after_append (q : RequestQueue) (ms more : List Move) :
    q.after (ms ++ more) = (q.after ms).after more :=
  List.foldl_append

theorem moves_append (q : RequestQueue) (ms more : List Move) :
    q.moves (ms ++ more) = q.moves ms ++ (q.after ms).moves more := by
  induction ms generalizing q with
  | nil => rfl
  | cons m ms ih => exact congrArg ((q.move m).2 :: ·) (ih (q.move m).1)

theorem length_moves (q : RequestQueue) (ms : List Move) : (q.moves ms).length = ms.length := by
  induction ms generalizing q with
  | nil => rfl
  | cons m ms ih => exact congrArg (· + 1) (ih (q.move m).1)

theorem snd_submit (q : RequestQueue) (call : Call) : (q.submit call).2 = q.verdict call := by
  unfold submit
  cases q.verdict call <;> rfl

/-- What becomes of a call at some place of a sequence depends on what came before it. -/
theorem getElem?_moves (q : RequestQueue) (before : List Move) (call : Call) (later : List Move) :
    (q.moves (before ++ .call call :: later))[before.length]? =
      some (some ((q.after before).verdict call)) := by
  rw [moves_append, List.getElem?_append_right (Nat.le_of_eq (length_moves q before)),
    length_moves, Nat.sub_self, moves, List.getElem?_cons_zero, ← snd_submit]
  rfl

/-- Only an accepted call changes the queue. -/
theorem after_call (q : RequestQueue) (call : Call) :
    q.after [.call call] =
      if q.verdict call = .accepted then { q with queued := q.queued + 1 } else q := by
  change (q.submit call).1 = _
  unfold submit
  cases q.verdict call <;> rfl

/-! ### Contenders -/

def Move.contender? : Move → Option Call
  | .call request => if request.IsWildcardMessage then none else some request
  | .dropConnection => none

/-- The calls that compete for the places, in order. -/
def contenders (ms : List Move) : List Call :=
  (ms.takeWhile (· ≠ .dropConnection)).filterMap Move.contender?

theorem contenders_append_singleton (ms : List Move) (m : Move) :
    contenders (ms ++ [m]) =
      contenders ms ++ if .dropConnection ∈ ms then [] else m.contender?.toList := by
  -- what comes after a drop does not count, and what comes before it is counted alike
  induction ms with
  | nil =>
    cases m with
    | call call => by_cases hwild : call.IsWildcardMessage <;> simp [contenders, Move.contender?, hwild]
    | dropConnection => rfl
  | cons first ms ih =>
    cases first with
    | call call =>
      simp only [contenders, ne_eq, decide_not] at ih
      by_cases hwild : call.IsWildcardMessage <;> simp [contenders, Move.contender?, hwild, ih]
    | dropConnection => simp [contenders]

/-! ### The queue and its contenders -/

/-- How the queue stands after these moves: as full as their contenders can make it. -/
structure Standing (capacity : Nat) (ms : List Move) (q : RequestQueue) : Prop where
  capacity_eq : q.capacity = capacity
  gone_iff : q.connectionGone = true ↔ .dropConnection ∈ ms
  queued_eq : q.queued = min capacity (contenders ms).length

/-- A call that does not compete is refused. -/
theorem Standing.refused (h : Standing capacity ms q) {call : Call}
    (hout : call.IsWildcardMessage ∨ .dropConnection ∈ ms) : q.verdict call = .refused := by
  unfold verdict
  by_cases hwild : call.IsWildcardMessage
  · rw [if_pos ((refusesUnseen_iff call).mpr hwild)]
  · rw [if_pos (h.gone_iff.mpr (hout.resolve_left hwild)), ite_self]

theorem Standing.ranked (h : Standing capacity ms q) {call : Call}
    (hplain : ¬ call.IsWildcardMessage) (hthere : .dropConnection ∉ ms) :
    q.verdict call = if (contenders ms).length < capacity then .accepted else .blocked := by
  have hfree : q.queued < q.capacity ↔ (contenders ms).length < capacity := by
    rw [h.queued_eq, h.capacity_eq]
    omega
  simp only [verdict, refusesUnseen_iff, h.gone_iff, hplain, hthere, hfree, if_false]

theorem Standing.move (h : Standing capacity ms q) (m : Move) :
    Standing capacity (ms ++ [m]) (q.move m).1 := by
  have hqueued := h.queued_eq
  have hcontenders := contenders_append_singleton ms m
  cases m with
  | dropConnection =>
    refine ⟨h.capacity_eq, by simp [RequestQueue.move, dropConnection], ?_⟩
    rw [hcontenders]
    simpa [RequestQueue.move, dropConnection, Move.contender?] using hqueued
  | call call =>
    have hafter : (q.move (.call call)).1 = q.after [.call call] := rfl
    have hgone : .dropConnection ∈ ms ++ [.call call] ↔ .dropConnection ∈ ms := by simp
    rw [hafter, after_call]
    by_cases hout : call.IsWildcardMessage ∨ .dropConnection ∈ ms
    · -- neither the queue nor the contenders change
      have hsame : contenders (ms ++ [.call call]) = contenders ms := by
        rw [hcontenders]
        rcases hout with hwild | hdropped
        · simp [Move.contender?, hwild]
        · simp [hdropped]
      rw [h.refused hout, if_neg (by decide)]
      exact ⟨h.capacity_eq, h.gone_iff.trans hgone.symm, by rw [hsame, hqueued]⟩
    · obtain ⟨hplain, hthere⟩ := not_or.mp hout
      have hmore : (contenders (ms ++ [.call call])).length = (contenders ms).length + 1 := by
        simp [hcontenders, Move.contender?, hplain, hthere]
      -- one contender more takes a place if there is one left
      rw [h.ranked hplain hthere]
      by_cases hfree : (contenders ms).length < capacity
      · rw [if_pos hfree, if_pos rfl]
        refine ⟨h.capacity_eq, h.gone_iff.trans hgone.symm, ?_⟩
        dsimp only
        omega
      · rw [if_neg hfree, if_neg (by decide)]
        refine ⟨h.capacity_eq, h.gone_iff.trans hgone.symm, ?_⟩
        omega

theorem standing_after (capacity : Nat) (ms : List Move) :
    Standing capacity ms ({ capacity : RequestQueue }.after ms) := by
  induction ms using List.reverseRecOn with
  | nil => exact ⟨rfl, by simp [after], by simp [after, contenders]⟩
  | append_singleton ms m ih =>
    rw [after_append]
    exact ih.move m

/-- The places that are taken are those of the accepted calls. -/
theorem count_accepted (capacity : Nat) (ms : List Move) :
    ({ capacity : RequestQueue }.moves ms).count (some .accepted) =
      ({ capacity : RequestQueue }.after ms).queued := by
  induction ms using List.reverseRecOn with
  | nil => rfl
  | append_singleton ms m ih =>
    rw [moves_append, List.count_append, ih, after_append]
    cases m with
    | dropConnection => rfl
    | call call =>
      have hverdict : ({ capacity : RequestQueue }.after ms).moves [.call call] =
          [some (({ capacity : RequestQueue }.after ms).verdict call)] := by
        rw [← snd_submit]
        rfl
      rw [hverdict, after_call]
      by_cases haccepted : ({ capacity : RequestQueue }.after ms).verdict call = .accepted
      · rw [if_pos haccepted, haccepted]
        rfl
      · rw [if_neg haccepted]
        simp [haccepted]

/-- What becomes of a call at any place of any sequence of moves.

    A message with a wildcard is refused, always, and so is every call once the connection
    is gone.  Of the other calls the first are accepted, as many as there are places, and
    the later ones are blocked; only an accepted call changes the queue.

    The verdict depends on nothing but the number of calls accepted so far, on whether the
    connection is gone, and on whether the call is a message with a wildcard. -/
theorem verdicts_by_rank (capacity : Nat) (before : List Move) (call : Call) (later : List Move) :
    let q : RequestQueue := { capacity }
    let verdict := (q.after before).verdict call
    (q.moves (before ++ .call call :: later))[before.length]? = some (some verdict) ∧
      (call.IsWildcardMessage → verdict = .refused) ∧
      (.dropConnection ∈ before → verdict = .refused) ∧
      (¬ call.IsWildcardMessage → .dropConnection ∉ before →
        verdict = if (contenders before).length < capacity then .accepted else .blocked) ∧
      (verdict ≠ .accepted → q.after (before ++ [.call call]) = q.after before) ∧
      (q.after before).queued = min capacity (contenders before).length ∧
      (q.moves before).count (some .accepted) = (q.after before).queued ∧
      ∀ before' call',
        (q.moves before').count (some .accepted) = (q.moves before).count (some .accepted) →
        (.dropConnection ∈ before' ↔ .dropConnection ∈ before) →
        (call'.IsWildcardMessage ↔ call.IsWildcardMessage) →
        (q.after before').verdict call' = verdict := by
  intro q verdict
  have hstanding := standing_after capacity before
  refine ⟨q.getElem?_moves before call later, ?_, ?_, ?_, ?_, hstanding.queued_eq,
    count_accepted capacity before, ?_⟩
  · exact fun hwild => hstanding.refused (.inl hwild)
  · exact fun hgone => hstanding.refused (.inr hgone)
  · exact fun hplain hthere => hstanding.ranked hplain hthere
  · intro hunplaced
    rw [after_append, after_call, if_neg hunplaced]
  · intro before' call' haccepted hgone hwild
    -- two queues that stand alike in these three respects give the same verdict
    have hstanding' := standing_after capacity before'
    rw [count_accepted, count_accepted] at haccepted
    have hcapacity : (q.after before').capacity = (q.after before).capacity :=
      hstanding'.capacity_eq.trans hstanding.capacity_eq.symm
    have hgone' : (q.after before').connectionGone = true ↔ (q.after before).connectionGone = true :=
      (hstanding'.gone_iff.trans hgone).trans hstanding.gone_iff.symm
    have hqueued : (q.after before').queued = (q.after before).queued := haccepted
    simp only [verdict, RequestQueue.verdict, refusesUnseen_iff, hwild, hgone', hqueued, hcapacity]

/-- Two places, the first of them taken by a subscription with a wildcard: the third contender
    is blocked, a message with a wildcard refused, and after the drop everything. -/
theorem verdicts_by_rank_when_full :
    let q : RequestQueue := { capacity := 2 }
    let wild : Call := .publish "a/+" .exactlyOnce "mid1"
    let plain : Call := .publish "a" .exactlyOnce "mid1"
    let before : List Move :=
      [.call wild, .call (.subscribe "a/#" .atMostOnce), .call plain, .call plain]
    wild.IsWildcardMessage ∧ ¬ plain.IsWildcardMessage ∧ .dropConnection ∉ before ∧
      (q.after before).verdict plain = .blocked ∧ (q.after before).verdict wild = .refused ∧
      (q.after (before ++ [.dropConnection])).verdict plain = .refused ∧
      (q.moves before).count (some .accepted) = 2 := by
  intro q wild plain before
  have hwild : wild.IsWildcardMessage := by decide
  have hplain : ¬ plain.IsWildcardMessage := by decide
  have hthere : .dropConnection ∉ before := by decide
  obtain ⟨-, -, -, hranked, -, hqueued, hcount, -⟩ := verdicts_by_rank 2 before plain []
  obtain ⟨-, hrefused, -⟩ := verdicts_by_rank 2 before wild []
  obtain ⟨-, -, hgone, -⟩ := verdicts_by_rank 2 (before ++ [.dropConnection]) plain []
  have hcontenders : (contenders before).length = 3 := by decide
  rw [hcontenders] at hranked hqueued
  exact ⟨hwild, hplain, hthere, hranked hplain hthere, hrefused hwild, hgone (by decide),
    hcount.trans hqueued⟩

end RequestQueue

end Client

end BrokerLoad

/-
  BrokerLoad/Session.lean
  =======================
  Runs under changing surroundings.

  A session holds a run and its surroundings.  Stimuli change the surroundings:
  the clock jumps, the signal goes up, a waiting call is answered, notices are
  queued, the inbox is closed, or the run is abandoned for a new one.  After a
  stimulus the run is resumed and goes on until it rests, unless the stimulus is
  held back; stimuli that are held back are seen together by the next
  resumption.  A run that has ended stays as it is until the next restart.

  The clock of a session has no end, and its pauses are as long as the run wants
  them.  A script is performed on a timer, which has a range; a performance is a
  session that skips what its timer cannot tell, and does nothing else to it.
-/
import BrokerLoad.Publisher
import BrokerLoad.Reporter
import BrokerLoad.Subscriber
import BrokerLoad.Timer

namespace BrokerLoad

/-! ### Roles -/

/-- A kind of run: its loop, how it begins, and three questions about where it is. -/
structure Role (σ : Type) where
  activity : Activity Surroundings σ
  start : σ
  /-- Whether a call waits for its answer. -/
  waits : σ → Bool
  isOver : σ → Bool
  /-- The reading that a pause waits for. -/
  deadline? : σ → Option Nat
  weight_now : ∀ (s : Surroundings) (p : σ) (now : Nat),
    activity.weight { s with now } p = activity.weight s p

def Publisher.role (plan : Plan) : Role Publisher where
  activity := activity plan
  start := {}
  waits p := p.phase == .calling
  isOver p := match p.phase with
    | .ended _ => true
    | _ => false
  deadline? p := match p.phase with
    | .pausing deadline => some deadline
    | _ => none
  weight_now _ _ _ := rfl

def Subscriber.role (topic : String) : Role Subscriber where
  activity := activity topic
  start := .listening
  waits p := p == .subscribing
  isOver
    | .ended _ => true
    | _ => false
  deadline? _ := none
  weight_now _ _ _ := rfl

def Reporter.role : Role Reporter where
  activity := activity
  start := .listening
  waits _ := false
  isOver
    | .ended _ => true
    | _ => false
  deadline? _ := none
  weight_now _ _ _ := rfl

/-! ### Stimuli -/

inductive Stimulus where
  | poll
  | advance (milliseconds : Nat)
  | shutdown
  /-- The waiting call is answered; an answer not yet seen is replaced. -/
  | resolve (answer : Answer)
  | notice (notice : Notice)
  /-- The notice that an event calls for is queued. -/
  | event (event : ClientEvent)
  | close
  /-- The run is abandoned for a new one. -/
  | restart
deriving DecidableEq, Repr

structure Session (σ : Type) where
  surroundings : Surroundings
  run : σ

namespace Session

variable {σ : Type}

def start (role : Role σ) (surroundings : Surroundings) : Session σ where
  surroundings
  run := role.start

def change (role : Role σ) (x : Session σ) : Stimulus → Session σ
  | .poll => x
  | .advance ms => { x with surroundings.now := x.surroundings.now + ms }
  | .shutdown => { x with surroundings.signal.raised := true }
  | .resolve answer =>
    if role.waits x.run then { x with surroundings.link.answer := some answer } else x
  | .notice notice => { x with surroundings.inbox := x.surroundings.inbox.put notice }
  | .event event =>
    match Notice.ofEvent? event with
    | some notice => { x with surroundings.inbox := x.surroundings.inbox.put notice }
    | none => x
  | .close => { x with surroundings.inbox := x.surroundings.inbox.close }
  | .restart => { surroundings := x.surroundings.renewed, run := role.start }

/-- Lets the run go on until it rests. -/
def resume (role : Role σ) (x : Session σ) : Session σ :=
  let settled := role.activity.settle x.surroundings x.run
  { surroundings := settled.1, run := settled.2 }

def react (role : Role σ) (x : Session σ) (stimulus : Stimulus) : Session σ :=
  (x.change role stimulus).resume role

/-- Resumes once a millisecond, so many times or until the run has ended. -/
def tick (role : Role σ) : Nat → Session σ → Session σ
  | 0, x => x
  | n + 1, x => if role.isOver x.run then x else tick role n (x.react role (.advance 1))

/-! ### Scripts -/

inductive Cue where
  /-- A stimulus; the run is resumed unless it is held back. -/
  | stimulus (stimulus : Stimulus) (held : Bool)
  /-- So many milliseconds, one by one, after a resumption. -/
  | run (milliseconds : Nat)
deriving DecidableEq, Repr

def play (role : Role σ) (x : Session σ) : Cue → Session σ
  | .stimulus stimulus true => x.change role stimulus
  | .stimulus stimulus false => x.react role stimulus
  | .run ms => tick role ms (x.resume role)

/-! ### Timers with a range -/

/-- How much longer the run pauses than a timer with this reading can tell. -/
def excess (role : Role σ) (shown : Nat) (x : Session σ) : Nat :=
  match role.deadline? x.run with
  | some deadline => deadline - x.surroundings.now - Timer.reach shown
  | none => 0

theorem excess_skipped (role : Role σ) (shown : Nat) (x : Session σ) :
    (x.change role (.advance (x.excess role shown))).excess role shown = 0 := by
  unfold excess
  simp only [change]
  cases role.deadline? x.run with
  | none => rfl
  | some deadline =>
    dsimp only
    omega

/-- A step of the run, or, where it rests in a pause that is too long for the timer, a
    skip. -/
def timedStep (role : Role σ) (shown : Nat) (x : Session σ) : Option (Nat × Session σ) :=
  match role.activity.step x.surroundings x.run with
  | some (surroundings, run) => some (shown, { surroundings, run })
  | none =>
    if x.excess role shown = 0 then none
    else some (shown, x.change role (.advance (x.excess role shown)))

/-- A step of the run outweighs the skip that may come after it. -/
def timedWeight (role : Role σ) (shown : Nat) (x : Session σ) : Nat :=
  2 * role.activity.weight x.surroundings x.run + min 1 (x.excess role shown)

theorem timedWeight_step (role : Role σ) {shown : Nat} {x : Session σ} {shown' : Nat}
    {x' : Session σ} (h : x.timedStep role shown = some (shown', x')) :
    x'.timedWeight role shown' < x.timedWeight role shown := by
  unfold timedStep at h
  split at h
  · rename_i hstep
    cases h
    have hlighter := role.activity.weight_step hstep
    simp only [timedWeight]
    omega
  · split at h
    · cases h
    · rename_i hexcess
      cases h
      have hskipped := x.excess_skipped role shown
      have hsame := role.weight_now x.surroundings x.run
        (x.surroundings.now + x.excess role shown)
      simp only [timedWeight, hskipped]
      simp only [change, hsame]
      omega

/-- The loop on a timer.  Its steps leave the reading of the timer alone. -/
def timed (role : Role σ) : Activity Nat (Session σ) where
  step shown x := x.timedStep role shown
  weight shown x := x.timedWeight role shown
  weight_step := timedWeight_step role

/-- A session on a timer, and what the timer shows. -/
structure Performance (σ : Type) where
  session : Session σ
  shown : Nat := 0

namespace Performance

/-- The clock moves by as much as the timer does. -/
def change (role : Role σ) (x : Performance σ) : Stimulus → Performance σ
  | .advance ms =>
    let shown := Timer.after x.shown ms
    { session := x.session.change role (.advance (shown - x.shown)), shown }
  | stimulus => { x with session := x.session.change role stimulus }

def resume (role : Role σ) (x : Performance σ) : Performance σ :=
  { x with session := ((timed role).settle x.shown x.session).2 }

def react (role : Role σ) (x : Performance σ) (stimulus : Stimulus) : Performance σ :=
  (x.change role stimulus).resume role

def tick (role : Role σ) : Nat → Performance σ → Performance σ
  | 0, x => x
  | n + 1, x =>
    if role.isOver x.session.run then x else tick role n (x.react role (.advance 1))

def play (role : Role σ) (x : Performance σ) : Cue → Performance σ
  | .stimulus stimulus true => x.change role stimulus
  | .stimulus stimulus false => x.react role stimulus
  | .run ms => tick role ms (x.resume role)

end Performance

/-! ### Reports -/

/-- What a cue led to: what was done, and where the run is. -/
structure Report (σ : Type) where
  deeds : Trace
  run : σ

namespace Performance

def perform (role : Role σ) (x : Performance σ) (cue : Cue) : Performance σ × Report σ :=
  let before := x.session.surroundings.trace.size
  let x := x.play role cue
  (x, { deeds := x.session.surroundings.history.drop before, run := x.session.run })

def performAll (role : Role σ) : Performance σ → List Cue → List (Report σ)
  | _, [] => []
  | x, cue :: cues =>
    let (x, report) := x.perform role cue
    report :: performAll role x cues

end Performance

/-- The reports of a script that is performed from a session on, on a new timer. -/
def performAll (role : Role σ) (x : Session σ) (cues : List Cue) : List (Report σ) :=
  Performance.performAll role { session := x } cues

end Session

end BrokerLoad

/-
  BrokerLoad/Timer.lean
  =====================
  The range of the timer that a script is played on.

  The loops pause by a clock that goes on for ever, for as long as they are asked to.
  A timer that has to tell when a pause is over has a range.  It stands still at its
  last reading, and it tells no pause longer than thirty years.  Of a pause that is
  too long for it, what it cannot tell is skipped, so that nobody is held up for ever.
-/

namespace BrokerLoad.Timer

/-- The last reading: three less than the first number that does not fit into 64 bits. -/
def last : Nat := 18446744073709551613

/-- The longest pause: thirty years of 365 days, in milliseconds. -/
def longest : Nat := 946080000000

/-- What the timer shows so many milliseconds after a reading. -/
def after (shown ms : Nat) : Nat := min (shown + ms) last

/-- The longest pause that the timer can tell from a reading on. -/
def reach (shown : Nat) : Nat := min longest (last - shown)

/-- Up to its last reading the timer counts every millisecond. -/
theorem after_eq_add {shown ms : Nat} (h : shown + ms ≤ last) : after shown ms = shown + ms :=
  Nat.min_eq_left h

theorem le_reach {shown ms : Nat} (hlongest : ms ≤ longest) (hlast : shown + ms ≤ last) :
    ms ≤ reach shown :=
  Nat.le_min.mpr ⟨hlongest, Nat.le_sub_of_add_le' hlast⟩

end BrokerLoad.Timer

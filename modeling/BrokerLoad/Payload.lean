/-
  BrokerLoad/Payload.lean
  =======================
  The payloads of a run: `mid1`, `mid2`, … up to the message count.

  The sequence is as long as a 32-bit count, so it is never built to look at a
  part of it: `slice` gives the part from the numbers alone, and `summary` gives
  length and last payload from the count alone.  `slice_eq` says that a slice is
  the part of the sequence that it should be.
-/

namespace BrokerLoad.Payload

def numbered (n : Nat) : String := "mid" ++ toString n

def sequence (count : UInt32) : List String :=
  (List.range' 1 count.toNat).map numbered

/-- Of the payloads of a run, at most `take` after the first `skip`. -/
def slice (count : UInt32) (skip take : Nat) : List String :=
  (List.range' (1 + skip) (min take (count.toNat - skip))).map numbered

theorem slice_eq (count : UInt32) (skip take : Nat) :
    slice count skip take = ((sequence count).drop skip).take take := by
  apply List.ext_getElem
  · simp [slice, sequence]
  · intro i _ _
    simp [slice, sequence]
    congr 1
    omega

/-- The length of all payloads of a run together: three letters each, and one
    digit more for every message from each power of ten on. -/
def totalLength (count : UInt32) : Nat :=
  (List.range 10).foldl (fun total d => total + (count.toNat + 1 - Nat.pow 10 d)) (3 * count.toNat)

/-- What can be said of a run's payloads without listing them. -/
structure Summary where
  items : Nat
  octets : Nat
  last : Option String
deriving DecidableEq, Repr

def summary (count : UInt32) : Summary where
  items := count.toNat
  octets := totalLength count
  last := if count = 0 then none else some (numbered count.toNat)

end BrokerLoad.Payload

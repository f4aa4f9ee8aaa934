/-
  BrokerLoad/Octets/Lenient.lean
  ==============================
  Reading octets as text when they may not be text.

  What is text is read as it is.  Elsewhere each longest run of octets that could
  still have begun a character, and every octet that could not, is shown as one
  replacement character.
-/
import BrokerLoad.Octets

namespace BrokerLoad.Octets

def replacement : Char := '\uFFFD'

/-- The ranges in which the octets after a leading octet have to lie; a leading octet
    that no character has is refused. -/
def continuation? (lead : UInt8) : Option (List (UInt8 × UInt8)) :=
  let any : UInt8 × UInt8 := (0x80, 0xbf)
  if lead < 0x80 then some []
  else if lead < 0xc2 then none
  else if lead < 0xe0 then some [any]
  else if lead = 0xe0 then some [(0xa0, 0xbf), any]
  else if lead = 0xed then some [(0x80, 0x9f), any]
  else if lead < 0xf0 then some [any, any]
  else if lead = 0xf0 then some [(0x90, 0xbf), any, any]
  else if lead < 0xf4 then some [any, any, any]
  else if lead = 0xf4 then some [(0x80, 0x8f), any, any]
  else none

/-- How many octets lie in their ranges, from the first on. -/
def matching : List (UInt8 × UInt8) → Octets → Nat
  | (low, high) :: ranges, o :: octets =>
    if low ≤ o ∧ o ≤ high then matching ranges octets + 1 else 0
  | _, _ => 0

def lenientText (octets : Octets) : String :=
  match octets with
  | [] => ""
  | lead :: rest =>
    match continuation? lead with
    | none => replacement.toString ++ lenientText rest
    | some ranges =>
      let n := matching ranges rest
      let shown :=
        if n = ranges.length then (text? (lead :: rest.take n)).getD replacement.toString
        else replacement.toString
      shown ++ lenientText (rest.drop n)
termination_by octets.length
decreasing_by
  all_goals
    simp only [List.length_cons, List.length_drop]
    omega

end BrokerLoad.Octets

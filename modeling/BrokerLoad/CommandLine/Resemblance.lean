/-
  BrokerLoad/CommandLine/Resemblance.lean
  =======================================
  Which known name a mistyped word may have meant.

  Two words resemble each other by their partners: equal characters that stand
  less than half a word apart, each taken once and from the left.  The degree is
  the mean of three ratios: the share of each word that has partners, and the
  share of the partners that stand in the same order in both words.  It is one for
  equal words and zero for words without partners.
-/

namespace BrokerLoad.CommandLine

/-- The place in `name` that a character at place `i` is paired with: the first
    equal one within reach that is not taken. -/
def partner? (reach : Nat) (name : List Char) (taken : List Nat) (i : Nat) (c : Char) :
    Option Nat :=
  (List.range name.length).find? fun j =>
    i ≤ j + reach && j ≤ i + reach && name[j]? == some c && !taken.contains j

def partners (word name : List Char) : List Nat :=
  let reach := max word.length name.length / 2 - 1
  word.zipIdx.foldl
    (fun taken ci => taken ++ (partner? reach name taken ci.2 ci.1).toList) []

/-- How many pairs there are, and how many of them cross. -/
def pairing (word name : List Char) : Nat × Nat :=
  let places := partners word name
  let inOrder := (List.range name.length).filter places.contains
  let unlike := (places.zip inOrder).countP fun ij => name[ij.1]? != name[ij.2]?
  (places.length, unlike / 2)

def resemblance (word name : List Char) : Float :=
  match pairing word name with
  | (0, _) => 0
  | (pairs, crossings) =>
    let share (n : Nat) (l : Nat) : Float := Float.ofNat n / Float.ofNat l
    (share pairs word.length + share pairs name.length + share (pairs - crossings) pairs) / 3

def resemblanceThreshold : Float := 0.7

/-- The name that resembles a word most, if any does so enough; the last of equals. -/
def closest? (word : String) (names : List String) : Option String :=
  let candidates := (names.map fun name => (resemblance word.toList name.toList, name)).filter
    (·.1 > resemblanceThreshold)
  (candidates.foldl
    (fun best? candidate =>
      match best? with
      | some best => if best.1 > candidate.1 then some best else some candidate
      | none => some candidate)
    none).map (·.2)

end BrokerLoad.CommandLine

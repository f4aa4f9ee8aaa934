/-
  BrokerLoad/Proofs/Payload.lean
  ==============================
  The payload sequence of a run, read back and measured.

  A payload is three letters and the decimal form of its number (`decimal_toDigits`), so
  `number?` reads the number back, and no payload comes twice.  A decimal form has one digit
  for each power of ten that its number reaches (`length_toDigits`).  Counted over all the
  messages of a run, power by power, this gives the length of the whole sequence
  (`length_octets`), and with it the summary that is made without listing anything
  (`summary_eq`).
-/
import BrokerLoad.Octets
import BrokerLoad.Payload
import Mathlib.Algebra.BigOperators.Finprod
import Mathlib.Algebra.BigOperators.Intervals

namespace BrokerLoad.Payload

/-! ### Decimal forms -/

/-- `digits` is the decimal form of `n`: digits only, of that value, and without leading
    zeros. -/
structure Decimal (digits : List Char) (n : Nat) : Prop where
  isDigit : ∀ c ∈ digits, c.isDigit = true
  head?_ne : digits.head? ≠ some '0'
  value : Nat.ofDigitChars 10 digits 0 = n

theorem head?_toDigits_ne {n : Nat} (h : 0 < n) : (Nat.toDigits 10 n).head? ≠ some '0' := by
  -- the first digit is that of the number without its last digit
  induction n using Nat.strongRecOn with
  | ind n ih =>
    by_cases hsmall : n < 10
    · rw [Nat.toDigits_of_lt_base hsmall]
      simp
      omega
    · rw [Nat.toDigits_of_base_le (by omega) (by omega),
        List.head?_append_of_ne_nil _ Nat.toDigits_ne_nil]
      exact ih (n / 10) (by omega) (by omega)

theorem decimal_toDigits {n : Nat} (h : 0 < n) : Decimal (Nat.toDigits 10 n) n where
  isDigit _ hc := Nat.isDigit_of_mem_toDigits (by omega) (by omega) hc
  head?_ne := head?_toDigits_ne h
  value := Nat.ofDigitChars_ten_toDigits

/-- A decimal form has a digit for each power of ten that the number reaches. -/
theorem lt_length_toDigits_iff {n : Nat} (h : 0 < n) (d : Nat) :
    d < (Nat.toDigits 10 n).length ↔ 10 ^ d ≤ n := by
  cases d with
  | zero =>
    have hpositive : 0 < (Nat.toDigits 10 n).length := Nat.length_toDigits_pos
    simp only [hpositive, Nat.pow_zero, true_iff]
    exact h
  | succ d =>
    have hle : (Nat.toDigits 10 n).length ≤ d + 1 ↔ n < 10 ^ (d + 1) :=
      Nat.length_toDigits_le_iff (by omega) (Nat.succ_pos d)
    rw [← Nat.not_le, hle, Nat.not_lt]

/-! ### One payload -/

theorem toList_numbered (n : Nat) : (numbered n).toList = 'm' :: 'i' :: 'd' :: Nat.toDigits 10 n := by
  simp [numbered]

def number? (payload : String) : Option Nat :=
  match payload.toList with
  | 'm' :: 'i' :: 'd' :: digits =>
    if digits.all Char.isDigit then some (Nat.ofDigitChars 10 digits 0) else none
  | _ => none

theorem number?_numbered (n : Nat) : number? (numbered n) = some n := by
  have hdigits : (Nat.toDigits 10 n).all Char.isDigit = true := by
    rw [List.all_eq_true]
    intro c hc
    exact Nat.isDigit_of_mem_toDigits (by omega) (by omega) hc
  simp only [number?, toList_numbered, hdigits, if_true, Nat.ofDigitChars_ten_toDigits]

theorem numbered_injective : Function.Injective numbered := by
  intro m n h
  have hread := congrArg number? h
  rw [number?_numbered, number?_numbered] at hread
  exact Option.some.inj hread

theorem length_ofText_repr (n : Nat) :
    (Octets.ofText n.repr).length = (Nat.toDigits 10 n).length := by
  have hbyte : ∀ d, d < 10 → (Octets.ofText (.singleton (Nat.digitChar d))).length = 1 := by
    decide
  -- one digit is one octet, and the number without it has one digit less
  induction n using Nat.strongRecOn with
  | ind n ih =>
    by_cases hsmall : n < 10
    · rw [Nat.repr_of_lt hsmall, hbyte n hsmall, Nat.toDigits_of_lt_base hsmall]
      rfl
    · rw [Nat.repr_of_ge (by omega), Octets.ofText_append, List.length_append,
        ih (n / 10) (by omega), hbyte _ (Nat.mod_lt _ (by omega)),
        Nat.toDigits_of_base_le (by omega) (by omega : 10 ≤ n), List.length_append,
        List.length_singleton]

theorem length_ofText_numbered (n : Nat) :
    (Octets.ofText (numbered n)).length = 3 + (Nat.toDigits 10 n).length := by
  have hletters : (Octets.ofText "mid").length = 3 := by decide
  rw [numbered, Octets.ofText_append, List.length_append, hletters, Nat.toString_eq_repr,
    length_ofText_repr]

/-! ### All payloads of a run -/

/-- The digits of a number, counted by the powers of ten that it reaches. -/
theorem length_toDigits {n m : Nat} (h : 0 < n) (hlt : n < 10 ^ m) :
    (Nat.toDigits 10 n).length = ∑ d ∈ Finset.range m, if 10 ^ d ≤ n then 1 else 0 := by
  have hreached : {d ∈ Finset.range m | 10 ^ d ≤ n} =
      Finset.range (Nat.toDigits 10 n).length := by
    ext d
    rw [Finset.mem_filter, Finset.mem_range, Finset.mem_range, lt_length_toDigits_iff h]
    constructor
    · exact And.right
    · intro hreach
      exact ⟨(Nat.pow_lt_pow_iff_right (by omega)).mp (Nat.lt_of_le_of_lt hreach hlt), hreach⟩
  rw [← Finset.card_filter, hreached, Finset.card_range]

/-- One message more adds its letters, and one digit for each power of ten that it reaches. -/
theorem length_octets {n m : Nat} (h : n < 10 ^ m) :
    (((List.range' 1 n).map numbered).flatMap Octets.ofText).length =
      3 * n + ∑ d ∈ Finset.range m, (n + 1 - 10 ^ d) := by
  induction n with
  | zero =>
    have hnone : ∀ d ∈ Finset.range m, 0 + 1 - 10 ^ d = 0 := by
      intro d _
      have hpositive : 0 < 10 ^ d := Nat.pow_pos (by omega)
      omega
    rw [Finset.sum_eq_zero hnone]
    rfl
  | succ n ih =>
    -- the sum grows by one for each power that the new number reaches
    have hpower : ∀ d, n + 1 + 1 - 10 ^ d = n + 1 - 10 ^ d + if 10 ^ d ≤ n + 1 then 1 else 0 := by
      intro d
      split <;> omega
    rw [List.range'_1_concat, List.map_append, List.flatMap_append, List.length_append,
      ih (by omega), Finset.sum_congr rfl fun d _ => hpower d, Finset.sum_add_distrib,
      ← length_toDigits (by omega : 0 < n + 1) h]
    simp only [List.map_singleton, List.flatMap_singleton, Nat.add_comm 1 n,
      length_ofText_numbered]
    omega

theorem toNat_lt_pow (count : UInt32) : count.toNat < 10 ^ 10 :=
  Nat.lt_trans count.toNat_lt (by decide)

theorem totalLength_eq (count : UInt32) :
    totalLength count = 3 * count.toNat + ∑ d ∈ Finset.range 10, (count.toNat + 1 - 10 ^ d) := by
  have hfold : ∀ m start, (List.range m).foldl
      (fun total d => total + (count.toNat + 1 - Nat.pow 10 d)) start =
      start + ∑ d ∈ Finset.range m, (count.toNat + 1 - 10 ^ d) := by
    intro m start
    induction m with
    | zero => rfl
    | succ m ih =>
      rw [List.range_succ, List.foldl_append, ih, Finset.sum_range_succ, ← Nat.add_assoc]
      rfl
  exact hfold 10 _

/-- The summary of a run's payloads is that of the list of them. -/
theorem summary_eq (count : UInt32) :
    summary count =
      { items := (sequence count).length
        octets := ((sequence count).flatMap Octets.ofText).length
        last := (sequence count).getLast? } := by
  have hlast : (sequence count).getLast? =
      if count = 0 then none else some (numbered count.toNat) := by
    by_cases hzero : count = 0
    · rw [if_pos hzero, hzero]
      rfl
    · have hpositive : count.toNat ≠ 0 := fun h => hzero (UInt32.toNat_inj.mp h)
      obtain ⟨n, hn⟩ := Nat.exists_eq_succ_of_ne_zero hpositive
      rw [if_neg hzero, sequence, hn, Nat.succ_eq_add_one, List.range'_1_concat, List.map_append]
      simp [Nat.add_comm]
  rw [hlast, sequence, length_octets (toNat_lt_pow count), ← totalLength_eq]
  simp [summary]

theorem sequence_initial {m n : UInt32} (h : m ≤ n) : sequence m <+: sequence n := by
  obtain ⟨more, hmore⟩ := Nat.exists_eq_add_of_le (UInt32.le_iff_toNat_le.mp h)
  refine ⟨(List.range' (1 + m.toNat) more).map numbered, ?_⟩
  rw [sequence, sequence, ← List.map_append, List.range'_append_1, hmore]

theorem sum_powers {n m : Nat} (h : n < 10 ^ m) :
    ∑ d ∈ Finset.range m, (n + 1 - 10 ^ d) =
      ∑ᶠ d ∈ {d : Nat | 1 ≤ d ∧ 10 ^ (d - 1) ≤ n}, (n - 10 ^ (d - 1) + 1) := by
  -- the powers are counted from zero on the left and from one on the right
  have hshift : {d : Nat | 1 ≤ d ∧ 10 ^ (d - 1) ≤ n} =
      (· + 1) '' (({d ∈ Finset.range m | 10 ^ d ≤ n} : Finset Nat) : Set Nat) := by
    ext d
    simp only [Set.mem_ofPred_eq, Set.mem_image, Finset.mem_coe, Finset.mem_filter,
      Finset.mem_range]
    constructor
    · rintro ⟨hone, hreach⟩
      have hbound : 10 ^ (d - 1) < 10 ^ m := Nat.lt_of_le_of_lt hreach h
      exact ⟨d - 1, ⟨(Nat.pow_lt_pow_iff_right (by omega)).mp hbound, hreach⟩, by omega⟩
    · rintro ⟨d, ⟨-, hreach⟩, rfl⟩
      exact ⟨by omega, hreach⟩
  rw [hshift, finsum_mem_image (Set.injOn_of_injective (add_left_injective 1)),
    finsum_mem_coe_finset, Finset.sum_filter]
  apply Finset.sum_congr rfl
  intro d _
  simp only [Nat.add_sub_cancel]
  split <;> omega

/-- The payloads of a run, for every count. -/
theorem sequence_numbered (count : UInt32) :
    (sequence count).length = count.toNat ∧
      (∀ (i : Nat) (payload : String), (sequence count)[i]? = some payload →
        ∃ digits, payload = "mid" ++ String.ofList digits ∧ Decimal digits (i + 1)) ∧
      (sequence count).map number? = (List.range' 1 count.toNat).map some ∧
      (sequence count).Nodup ∧
      (∀ more, count ≤ more → sequence count <+: sequence more) ∧
      ((sequence count).flatMap Octets.ofText).length = 3 * count.toNat +
        ∑ᶠ d ∈ {d : Nat | 1 ≤ d ∧ 10 ^ (d - 1) ≤ count.toNat}, (count.toNat - 10 ^ (d - 1) + 1) ∧
      summary count =
        { items := (sequence count).length
          octets := ((sequence count).flatMap Octets.ofText).length
          last := (sequence count).getLast? } := by
  refine ⟨?_, ?_, ?_, ?_, ?_, ?_, summary_eq count⟩
  · rw [sequence, List.length_map, List.length_range']
  · intro i payload hpayload
    rw [sequence, List.getElem?_map, Option.map_eq_some_iff] at hpayload
    obtain ⟨n, hn, rfl⟩ := hpayload
    obtain ⟨hlt, rfl⟩ := List.getElem?_eq_some_iff.mp hn
    rw [List.getElem_range', Nat.one_mul, Nat.add_comm 1 i]
    exact ⟨_, rfl, decimal_toDigits (Nat.succ_pos i)⟩
  · rw [sequence, List.map_map]
    exact List.map_congr_left fun n _ => number?_numbered n
  · have hdistinct : (List.range' 1 count.toNat).Nodup := List.nodup_range'
    exact hdistinct.map numbered_injective
  · exact fun more h => sequence_initial h
  · rw [sequence, length_octets (toNat_lt_pow count), sum_powers (toNat_lt_pow count)]

/-- Twelve payloads reach two powers of ten, and the first nine of them one. -/
theorem sequence_numbered_beyond_nine :
    (9 : UInt32) ≤ 12 ∧ sequence 9 <+: sequence 12 ∧
      (sequence 12).map number? = (List.range' 1 12).map some ∧
      ((sequence 12).flatMap Octets.ofText).length = 3 * 12 + ((12 - 1 + 1) + (12 - 10 + 1)) := by
  have hle : (9 : UInt32) ≤ 12 := by decide
  obtain ⟨-, -, -, -, hinitial, -, -⟩ := sequence_numbered 9
  obtain ⟨-, -, hread, -, -, -, hsummary⟩ := sequence_numbered 12
  have hoctets := congrArg Summary.octets hsummary
  exact ⟨hle, hinitial 12 hle, hread, hoctets.symm.trans (by decide)⟩

end BrokerLoad.Payload

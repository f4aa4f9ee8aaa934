/-
  BrokerLoad/Proofs/ByteLiteral.lean
  ==================================
  Literals can be read, and it can be told where they end.

  An octet has one of three forms between quotes (`Token`), and every fact about literals
  is one about these forms: reading undoes writing (`decode_encode`), a literal is
  printable (`printable_encode`), and the quote stands in the body only after a backslash
  (`guarded_body`), so that no literal ends in another one (`encode_ne_append`).
-/
import BrokerLoad.ByteLiteral
import Mathlib.Data.List.Basic

namespace BrokerLoad.ByteLiteral

/-! ### Forms of an octet -/

theorem quoteFor_cases (payload : Octets) :
    quoteFor payload = apostrophe ∨ quoteFor payload = doubleQuote := by
  unfold quoteFor
  split
  · exact .inr rfl
  · exact .inl rfl

/-- The octet may stand between these quotes: a payload in double quotes holds none. -/
def Fits (quote octet : UInt8) : Prop :=
  quote = apostrophe ∨ quote = doubleQuote ∧ octet ≠ doubleQuote

theorem fits_quoteFor {payload : Octets} {octet : UInt8} (h : octet ∈ payload) :
    Fits (quoteFor payload) octet := by
  unfold quoteFor
  split
  · rename_i hquotes
    right
    refine ⟨rfl, ?_⟩
    rintro rfl
    exact hquotes.2 h
  · left
    rfl

/-- The letter that stands for an octet after a backslash. -/
inductive Escape (quote : UInt8) : UInt8 → UInt8 → Prop where
  | backslash : Escape quote backslash backslash
  | tab : Escape quote 0x09 0x74
  | newline : Escape quote 0x0a 0x6e
  | carriageReturn : Escape quote 0x0d 0x72
  | quote : quote = apostrophe → Escape quote apostrophe apostrophe

/-- The three forms of an octet between quotes. -/
inductive Token (quote : UInt8) : UInt8 → Octets → Prop where
  | plain {octet : UInt8} : 0x20 ≤ octet → octet ≤ 0x7e → octet ≠ backslash → octet ≠ quote →
    Token quote octet [octet]
  | escape {octet letter : UInt8} : Escape quote octet letter →
    Token quote octet [ByteLiteral.backslash, letter]
  | hex {octet : UInt8} : ¬ (0x20 ≤ octet ∧ octet ≤ 0x7e) → octet ≠ 0x09 → octet ≠ 0x0a →
    octet ≠ 0x0d →
    Token quote octet
      [ByteLiteral.backslash, 0x78, hexDigit (octet >>> 4), hexDigit (octet &&& 0x0f)]

theorem token_form {quote octet : UInt8} (h : Fits quote octet) :
    Token quote octet (token quote octet) := by
  -- the tests are made in this order, and each leaves one form
  unfold token
  split
  · rename_i hoctet
    subst hoctet
    exact .escape .backslash
  split
  · rename_i hoctet
    subst hoctet
    exact .escape .tab
  split
  · rename_i hoctet
    subst hoctet
    exact .escape .newline
  split
  · rename_i hoctet
    subst hoctet
    exact .escape .carriageReturn
  split
  · rename_i hoctet
    obtain ⟨rfl, hquote⟩ := hoctet
    exact .escape (.quote hquote)
  split
  · rename_i hbackslash _ _ _ hquote hprintable
    refine .plain hprintable.1 hprintable.2 hbackslash ?_
    rintro rfl
    rcases h with hquote' | ⟨hquote', hother⟩
    · exact hquote ⟨hquote', hquote'⟩
    · exact hother hquote'
  · rename_i htab hnewline hreturn _ hprintable
    exact .hex hprintable htab hnewline hreturn

/-! ### Hexadecimal digits -/

/-- What holds of the octets by their numbers can be decided one by one. -/
theorem forall_octet {p : UInt8 → Prop} (h : ∀ n : Fin 256, p (UInt8.ofFin n)) (octet : UInt8) :
    p octet :=
  h octet.toFin

theorem hexValue?_high (octet : UInt8) :
    hexValue? (hexDigit (octet >>> 4)) = some (octet >>> 4) := by
  revert octet
  apply forall_octet
  decide +kernel

theorem hexValue?_low (octet : UInt8) :
    hexValue? (hexDigit (octet &&& 0x0f)) = some (octet &&& 0x0f) := by
  revert octet
  apply forall_octet
  decide +kernel

theorem join_nibbles (octet : UInt8) : octet >>> 4 <<< 4 ||| octet &&& 0x0f = octet := by
  revert octet
  apply forall_octet
  decide +kernel

theorem printable_of_digit {c n : UInt8} (h : hexValue? c = some n) : 0x20 ≤ c ∧ c ≤ 0x7e := by
  unfold hexValue? at h
  split at h
  · rename_i hdigit
    exact ⟨UInt8.le_trans (by decide) hdigit.1, UInt8.le_trans hdigit.2 (by decide)⟩
  split at h
  · rename_i hletter
    exact ⟨UInt8.le_trans (by decide) hletter.1, UInt8.le_trans hletter.2 (by decide)⟩
  · cases h

/-! ### Reading what was written -/

theorem decodeBody_token {quote octet : UInt8} (hfits : Fits quote octet) (rest : Octets) :
    decodeBody quote (token quote octet ++ rest) = (decodeBody quote rest).map (octet :: ·) := by
  have hbackslash : backslash ≠ quote := by
    rcases hfits with rfl | ⟨rfl, -⟩ <;> decide
  have hform := token_form hfits
  generalize htext : token quote octet = text at hform ⊢
  rw [decodeBody.eq_def]
  cases hform with
  | plain hlow hhigh hnot hquote => simp [hquote, hnot, hlow, hhigh]
  | escape hescape => cases hescape <;> simp_all [backslash, apostrophe]
  | hex hprintable htab hnewline hreturn =>
    simp [hbackslash, hexValue?_high, hexValue?_low, join_nibbles, htext]

theorem decodeBody_body {quote : UInt8} {payload : Octets}
    (hfits : ∀ octet ∈ payload, Fits quote octet) :
    decodeBody quote (body quote payload ++ [quote]) = some payload := by
  induction payload with
  | nil => simp [body, decodeBody]
  | cons octet payload ih =>
    have hone := hfits octet List.mem_cons_self
    have hothers := ih fun other hother => hfits other (List.mem_cons_of_mem _ hother)
    rw [body, List.flatMap_cons, List.append_assoc, decodeBody_token hone]
    rw [body] at hothers
    rw [hothers]
    rfl

theorem decode_encode (payload : Octets) : decode (encode payload) = some payload := by
  have hquote := quoteFor_cases payload
  have hbody : decodeBody (quoteFor payload) (body (quoteFor payload) payload ++ [quoteFor payload])
      = some payload := decodeBody_body fun _ => fits_quoteFor
  simp [encode, decode, hquote, hbody]

theorem encode_injective {p q : Octets} (h : encode p = encode q) : p = q := by
  have := congrArg decode h
  simpa [decode_encode] using this

/-! ### What a literal shows -/

theorem printable_token {quote octet c : UInt8} (hfits : Fits quote octet)
    (hc : c ∈ token quote octet) : 0x20 ≤ c ∧ c ≤ 0x7e := by
  have hform := token_form hfits
  generalize token quote octet = text at hform hc
  cases hform with
  | plain hlow hhigh _ _ =>
    obtain rfl := List.mem_singleton.mp hc
    exact ⟨hlow, hhigh⟩
  | escape hescape =>
    cases hescape <;> simp only [List.mem_cons, List.not_mem_nil, or_false] at hc <;>
      rcases hc with rfl | rfl <;> decide
  | hex _ _ _ _ =>
    simp only [List.mem_cons, List.not_mem_nil, or_false] at hc
    rcases hc with rfl | rfl | rfl | rfl
    · decide
    · decide
    · exact printable_of_digit (hexValue?_high octet)
    · exact printable_of_digit (hexValue?_low octet)

theorem guarded_token {quote octet : UInt8} {front back : Octets} (hfits : Fits quote octet)
    (h : token quote octet = front ++ quote :: back) : front.getLast? = some backslash := by
  -- neither the letter of an escape in hexadecimal nor a digit is a quote
  have hquote : hexValue? quote = none ∧ quote ≠ backslash ∧ quote ≠ 0x78 := by
    rcases hfits with rfl | ⟨rfl, -⟩ <;> decide
  have hform := token_form hfits
  rw [h] at hform
  generalize htext : front ++ quote :: back = text at hform
  cases hform with
  | plain _ _ _ hother =>
    have hmem : quote ∈ [octet] := by simp [← htext]
    exact absurd (List.mem_singleton.mp hmem).symm hother
  | escape hescape =>
    cases front with
    | nil => exact absurd (List.cons.inj htext).1 hquote.2.1
    | cons first front =>
      obtain ⟨rfl, htail⟩ := List.cons.inj htext
      cases front with
      | nil => rfl
      | cons second front => simp at htail
  | hex _ _ _ _ =>
    have hmem : quote ∈ [backslash, 0x78, hexDigit (octet >>> 4), hexDigit (octet &&& 0x0f)] := by
      simp [← htext]
    simp only [List.mem_cons, List.not_mem_nil, or_false] at hmem
    rcases hmem with hsame | hsame | hsame | hsame
    · exact absurd hsame hquote.2.1
    · exact absurd hsame hquote.2.2
    · exact absurd (hquote.1.symm.trans (hsame ▸ hexValue?_high octet)) (by simp)
    · exact absurd (hquote.1.symm.trans (hsame ▸ hexValue?_low octet)) (by simp)

/-- Between the quotes, the quote stands only after a backslash. -/
theorem guarded_body {quote : UInt8} {payload front back : Octets}
    (hfits : ∀ octet ∈ payload, Fits quote octet)
    (h : body quote payload = front ++ quote :: back) : front.getLast? = some backslash := by
  induction payload generalizing front with
  | nil => simp [body] at h
  | cons octet payload ih =>
    have hone := hfits octet List.mem_cons_self
    have hothers : ∀ other ∈ payload, Fits quote other :=
      fun other hother => hfits other (List.mem_cons_of_mem _ hother)
    rw [body, List.flatMap_cons, ← body] at h
    rcases List.append_eq_append_iff.mp h with ⟨rest, rfl, hrest⟩ | ⟨rest, htoken, hrest⟩
    · -- the quote is in what follows this token
      have hlater := ih hothers hrest
      cases rest with
      | nil => simp at hlater
      | cons first rest => rwa [List.getLast?_append_cons]
    · cases rest with
      | nil =>
        -- the token ends right before the quote, which then begins the rest
        have hnext := @ih [] hothers (by simpa using hrest.symm)
        simp at hnext
      | cons first rest =>
        obtain ⟨rfl, -⟩ := List.cons.inj hrest
        exact guarded_token hone htoken

/-- A literal is printable ASCII, and so stays in its line. -/
theorem printable_encode {payload : Octets} {c : UInt8} (hc : c ∈ encode payload) :
    0x20 ≤ c ∧ c ≤ 0x7e := by
  have hquote : 0x20 ≤ quoteFor payload ∧ quoteFor payload ≤ 0x7e := by
    rcases quoteFor_cases payload with hquote | hquote <;> rw [hquote] <;> decide
  simp only [encode, List.mem_cons, List.mem_append, List.not_mem_nil, or_false] at hc
  rcases hc with rfl | rfl | hbody | rfl
  · decide
  · exact hquote
  · obtain ⟨octet, hoctet, hin⟩ := List.mem_flatMap.mp hbody
    exact printable_token (fits_quoteFor hoctet) hin
  · exact hquote

/-- No literal ends in a blank and a literal: the quote of the second one would stand in
    the first one without a backslash. -/
theorem encode_ne_append (payload payload' front : Octets) :
    encode payload ≠ front ++ 0x20 :: encode payload' := by
  intro h
  have hquote : quoteFor payload = quoteFor payload' := by
    have hlast := congrArg List.getLast? h
    simpa [encode, List.getLast?_append, List.getLast?_cons] using hlast
  have hblank : quoteFor payload ≠ 0x20 := by
    rcases quoteFor_cases payload with hquote | hquote <;> rw [hquote] <;> decide
  simp only [encode, ← hquote] at h
  rcases front with _ | ⟨first, _ | ⟨second, front⟩⟩
  · simp at h
  · exact hblank (List.cons.inj (List.cons.inj h).2).1
  · have hbody : body (quoteFor payload) payload =
        (front ++ [0x20, 0x62]) ++ quoteFor payload :: body (quoteFor payload) payload' := by
      have htail := (List.cons.inj (List.cons.inj h).2).2
      apply List.append_cancel_right
      simpa using htail
    have hguard := guarded_body (fun _ => fits_quoteFor) hbody
    simp [backslash] at hguard

end BrokerLoad.ByteLiteral

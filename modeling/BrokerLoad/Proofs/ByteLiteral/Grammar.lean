/-
  BrokerLoad/Proofs/ByteLiteral/Grammar.lean
  ==========================================
  The literals that there are, and that each payload has exactly one of them.

  `Literal text payload` is the grammar: which texts are literals, and which payload each
  of them denotes.  It knows nothing of how a literal is written.  `encode` writes the
  literals and no other text, `decode` reads them and no other text
  (`literal_iff_encode`, `decode_eq_some_iff`), and where a literal ends can be seen
  without knowing what it denotes (`closing?_encode`).  `encode_bijOn_literals` puts this
  together.
-/
import BrokerLoad.Proofs.ByteLiteral
import Mathlib.Data.Set.Function

namespace BrokerLoad.ByteLiteral

/-! ### The grammar -/

def digits : Octets :=
  [0x30, 0x31, 0x32, 0x33, 0x34, 0x35, 0x36, 0x37, 0x38, 0x39, 0x61, 0x62, 0x63, 0x64, 0x65, 0x66]

/-- `Spells quote text octet`: between these quotes, the token `text` stands for `octet`. -/
inductive Spells (quote : UInt8) : Octets → UInt8 → Prop where
  | plain {c : UInt8} : 0x20 ≤ c → c ≤ 0x7e → c ≠ backslash → c ≠ quote → Spells quote [c] c
  | escape {letter octet : UInt8} : Escape quote octet letter →
    Spells quote [backslash, letter] octet
  | hex {high low octet : UInt8} {h l : Nat} : digits[h]? = some high → digits[l]? = some low →
    octet.toNat = 16 * h + l → ¬ (0x20 ≤ octet ∧ octet ≤ 0x7e) → octet ≠ 0x09 → octet ≠ 0x0a →
    octet ≠ 0x0d → Spells quote [backslash, 0x78, high, low] octet

inductive Body (quote : UInt8) : Octets → Octets → Prop where
  | nil : Body quote [] []
  | cons {text rest payload : Octets} {octet : UInt8} : Spells quote text octet →
    Body quote rest payload → Body quote (text ++ rest) (octet :: payload)

inductive Literal : Octets → Octets → Prop where
  | quoted {quote : UInt8} {text payload : Octets} : quote = apostrophe ∨ quote = doubleQuote →
    (quote = doubleQuote ↔ apostrophe ∈ payload ∧ doubleQuote ∉ payload) →
    Body quote text payload → Literal (0x62 :: quote :: (text ++ [quote])) payload

/-! ### Writing keeps to the grammar -/

theorem quoteFor_eq_doubleQuote_iff (payload : Octets) :
    quoteFor payload = doubleQuote ↔ apostrophe ∈ payload ∧ doubleQuote ∉ payload := by
  unfold quoteFor
  split
  · rename_i hquotes
    exact iff_of_true rfl hquotes
  · rename_i hquotes
    exact iff_of_false (by decide) hquotes

theorem digits_high (octet : UInt8) :
    digits[(octet >>> 4).toNat]? = some (hexDigit (octet >>> 4)) := by
  revert octet
  apply forall_octet
  decide +kernel

theorem digits_low (octet : UInt8) :
    digits[(octet &&& 0x0f).toNat]? = some (hexDigit (octet &&& 0x0f)) := by
  revert octet
  apply forall_octet
  decide +kernel

theorem toNat_eq_nibbles (octet : UInt8) :
    octet.toNat = 16 * (octet >>> 4).toNat + (octet &&& 0x0f).toNat := by
  revert octet
  apply forall_octet
  decide +kernel

theorem spells_token {quote octet : UInt8} (hfits : Fits quote octet) :
    Spells quote (token quote octet) octet := by
  have hform := token_form hfits
  generalize token quote octet = text at hform
  cases hform with
  | plain hlow hhigh hnot hquote => exact .plain hlow hhigh hnot hquote
  | escape hescape => exact .escape hescape
  | hex hprintable htab hnewline hreturn =>
    exact .hex (digits_high octet) (digits_low octet) (toNat_eq_nibbles octet) hprintable htab
      hnewline hreturn

theorem body_spelled {quote : UInt8} {payload : Octets}
    (hfits : ∀ octet ∈ payload, Fits quote octet) : Body quote (body quote payload) payload := by
  induction payload with
  | nil => exact .nil
  | cons octet payload ih =>
    have hone := hfits octet List.mem_cons_self
    have hothers := ih fun other hother => hfits other (List.mem_cons_of_mem _ hother)
    rw [body, List.flatMap_cons]
    exact .cons (spells_token hone) hothers

theorem literal_encode (payload : Octets) : Literal (encode payload) payload :=
  .quoted (quoteFor_cases payload) (quoteFor_eq_doubleQuote_iff payload)
    (body_spelled fun _ => fits_quoteFor)

/-! ### The grammar allows nothing else -/

/-- Two digits with the value of an octet are the ones that are written for it. -/
theorem hexDigit_of_digits {high low octet : UInt8} {h l : Nat} (hh : digits[h]? = some high)
    (hl : digits[l]? = some low) (hvalue : octet.toNat = 16 * h + l) :
    hexDigit (octet >>> 4) = high ∧ hexDigit (octet &&& 0x0f) = low := by
  have hlow : l < 16 := (List.getElem?_eq_some_iff.mp hl).1
  have hjoin := toNat_eq_nibbles octet
  have hnibble : (octet &&& 0x0f).toNat < 16 :=
    (List.getElem?_eq_some_iff.mp (digits_low octet)).1
  -- a number has one way to be sixteen times one digit and another one
  have hsame : (octet >>> 4).toNat = h ∧ (octet &&& 0x0f).toNat = l := by omega
  constructor
  · have hdigit := digits_high octet
    rw [hsame.1, hh] at hdigit
    exact (Option.some.inj hdigit).symm
  · have hdigit := digits_low octet
    rw [hsame.2, hl] at hdigit
    exact (Option.some.inj hdigit).symm

theorem token_of_plain {quote c : UInt8} (hlow : 0x20 ≤ c) (hhigh : c ≤ 0x7e)
    (hbackslash : c ≠ backslash) (hquote : c ≠ quote) : token quote c = [c] := by
  have hcontrol : ∀ control : UInt8, control < 0x20 → c ≠ control := by
    rintro control hcontrol rfl
    exact absurd hlow (UInt8.not_le.mpr hcontrol)
  have hapostrophe : ¬ (c = apostrophe ∧ quote = apostrophe) := by
    rintro ⟨rfl, rfl⟩
    exact hquote rfl
  simp only [token, if_neg hbackslash, if_neg (hcontrol 0x09 (by decide)),
    if_neg (hcontrol 0x0a (by decide)), if_neg (hcontrol 0x0d (by decide)), if_neg hapostrophe,
    if_pos (And.intro hlow hhigh)]

theorem token_of_spells {quote octet : UInt8} {text : Octets} (h : Spells quote text octet) :
    token quote octet = text := by
  cases h with
  | plain hlow hhigh hbackslash hquote => exact token_of_plain hlow hhigh hbackslash hquote
  | escape hescape =>
    cases hescape with
    | quote hquote => subst hquote; decide
    | _ => rfl
  | hex hh hl hvalue hprintable htab hnewline hreturn =>
    obtain ⟨hhigh, hlow⟩ := hexDigit_of_digits hh hl hvalue
    -- an octet that is not shown is none of those with a form of their own
    have hshown : ∀ shown : UInt8, 0x20 ≤ shown ∧ shown ≤ 0x7e → octet ≠ shown := by
      rintro shown hshown rfl
      exact hprintable hshown
    have hapostrophe : ¬ (octet = apostrophe ∧ quote = apostrophe) :=
      fun hboth => hshown apostrophe (by decide) hboth.1
    simp only [token, if_neg (hshown backslash (by decide)), if_neg htab, if_neg hnewline,
      if_neg hreturn, if_neg hapostrophe, if_neg hprintable, hhigh, hlow]

theorem body_of_spelled {quote : UInt8} {text payload : Octets} (h : Body quote text payload) :
    body quote payload = text := by
  induction h with
  | nil => rfl
  | cons hspells _ ih =>
    rw [body, List.flatMap_cons, token_of_spells hspells, ← body, ih]

theorem literal_iff_encode {text payload : Octets} :
    Literal text payload ↔ encode payload = text := by
  constructor
  · intro h
    cases h with
    | @quoted quote _ _ hquotes hchoice hbody =>
      have hquote : quoteFor payload = quote := by
        -- of two quotes, both are the double quote or neither is
        rcases quoteFor_cases payload with hfor | hfor
        · rcases hquotes with rfl | rfl
          · exact hfor
          · have hdouble := (quoteFor_eq_doubleQuote_iff payload).mpr (hchoice.mp rfl)
            exact hdouble
        · exact hfor.trans (hchoice.mpr ((quoteFor_eq_doubleQuote_iff payload).mp hfor)).symm
      simp only [encode, hquote, body_of_spelled hbody]
  · rintro rfl
    exact literal_encode payload

/-! ### Reading accepts nothing else -/

theorem token_append_of_read {quote octet : UInt8} {rest payload : Octets}
    (h : (decodeBody quote rest).map (octet :: ·) = some payload)
    (ih : ∀ {later}, decodeBody quote rest = some later → rest = body quote later ++ [quote]) :
    token quote octet ++ rest = body quote payload ++ [quote] := by
  obtain ⟨later, hlater, rfl⟩ := Option.map_eq_some_iff.mp h
  rw [body, List.flatMap_cons, ← body, List.append_assoc, ← ih hlater]

theorem escape_of_read {quote letter octet : UInt8}
    (h : (if letter = backslash then some backslash
      else if letter = 0x74 then some 0x09
      else if letter = 0x6e then some 0x0a
      else if letter = 0x72 then some 0x0d
      else if letter = apostrophe ∧ quote = apostrophe then some apostrophe
      else none) = some octet) : Escape quote octet letter := by
  split at h
  · rename_i hletter
    cases h
    subst hletter
    exact .backslash
  split at h
  · rename_i hletter
    cases h
    subst hletter
    exact .tab
  split at h
  · rename_i hletter
    cases h
    subst hletter
    exact .newline
  split at h
  · rename_i hletter
    cases h
    subst hletter
    exact .carriageReturn
  split at h
  · rename_i hboth
    cases h
    obtain ⟨rfl, hquote⟩ := hboth
    exact .quote hquote
  · cases h

theorem body_of_decodeBody {quote : UInt8} {text payload : Octets}
    (h : decodeBody quote text = some payload) : text = body quote payload ++ [quote] := by
  -- three branches read an octet and go on; one ends, and the others give up
  fun_induction decodeBody quote text generalizing payload with
  | case2 =>
    cases h
    rfl
  | case4 high low rest _ _ _ _ _ htoken _ =>
    rename_i ih
    have hread := token_append_of_read h ih
    rwa [htoken] at hread
  | case7 letter rest _ _ _ =>
    rename_i ih
    obtain ⟨octet, hoctet, hrest⟩ := Option.bind_eq_some_iff.mp h
    have hread := token_append_of_read hrest ih
    rwa [token_of_spells (.escape (escape_of_read hoctet))] at hread
  | case9 c rest hquote hbackslash hprintable ih =>
    have hread := token_append_of_read h ih
    rwa [token_of_plain hprintable.1 hprintable.2 hbackslash hquote] at hread
  | _ => cases h

theorem decode_eq_some_iff {text payload : Octets} :
    decode text = some payload ↔ Literal text payload := by
  constructor
  · intro h
    unfold decode at h
    split at h
    · rename_i quote rest
      split at h
      · obtain ⟨hbody, hquote⟩ := Option.filter_eq_some_iff.mp h
        have hfor : quoteFor payload = quote := by simpa using hquote
        rw [literal_iff_encode, body_of_decodeBody hbody, ← hfor]
        rfl
      · cases h
    · cases h
  · intro h
    rw [← literal_iff_encode.mp h]
    exact decode_encode payload

/-! ### The closing quote -/

/-- The place of the first quote that no backslash escapes. -/
def unescaped? (quote : UInt8) : Octets → Option Nat
  | [] => none
  | c :: rest =>
    if c = quote then some 0
    else if c = backslash then
      match rest with
      | _ :: rest => (unescaped? quote rest).map (· + 2)
      | [] => none
    else (unescaped? quote rest).map (· + 1)

/-- The place where a text in quotes ends, as far as quotes and backslashes show it. -/
def closing? : Octets → Option Nat
  | _ :: quote :: rest => (unescaped? quote rest).map (· + 2)
  | _ => none

theorem unescaped?_plain {quote c : UInt8} (hquote : c ≠ quote) (hbackslash : c ≠ backslash)
    (rest : Octets) : unescaped? quote (c :: rest) = (unescaped? quote rest).map (· + 1) := by
  rw [unescaped?.eq_def]
  simp only [if_neg hquote, if_neg hbackslash]

theorem unescaped?_escaped {quote : UInt8} (hbackslash : backslash ≠ quote) (c : UInt8)
    (rest : Octets) :
    unescaped? quote (backslash :: c :: rest) = (unescaped? quote rest).map (· + 2) := by
  rw [unescaped?.eq_def]
  simp only [if_neg hbackslash, if_true]

theorem unescaped?_token {quote octet : UInt8} (hfits : Fits quote octet) (rest : Octets) :
    unescaped? quote (token quote octet ++ rest) =
      (unescaped? quote rest).map (· + (token quote octet).length) := by
  have hbackslash : backslash ≠ quote := by
    rcases hfits with rfl | ⟨rfl, -⟩ <;> decide
  -- a digit is neither the quote nor the backslash, so that the search passes it
  have hdigit : ∀ {c n : UInt8}, hexValue? c = some n → c ≠ quote ∧ c ≠ backslash := by
    intro c n hvalue
    constructor
    · rintro rfl
      rcases hfits with rfl | ⟨rfl, -⟩ <;> cases hvalue
    · rintro rfl
      cases hvalue
  have hform := token_form hfits
  generalize token quote octet = text at hform ⊢
  cases hform with
  | plain _ _ hnot hquote => exact unescaped?_plain hquote hnot rest
  | escape _ => exact unescaped?_escaped hbackslash _ rest
  | hex _ _ _ _ =>
    obtain ⟨hhigh, hhigh'⟩ := hdigit (hexValue?_high octet)
    obtain ⟨hlow, hlow'⟩ := hdigit (hexValue?_low octet)
    simp only [List.cons_append, List.nil_append]
    rw [unescaped?_escaped hbackslash, unescaped?_plain hhigh hhigh', unescaped?_plain hlow hlow',
      Option.map_map, Option.map_map]
    rfl

theorem unescaped?_body {quote : UInt8} {payload : Octets}
    (hfits : ∀ octet ∈ payload, Fits quote octet) :
    unescaped? quote (body quote payload ++ [quote]) = some (body quote payload).length := by
  induction payload with
  | nil => simp [body, unescaped?]
  | cons octet payload ih =>
    have hone := hfits octet List.mem_cons_self
    have hothers := ih fun other hother => hfits other (List.mem_cons_of_mem _ hother)
    rw [body, List.flatMap_cons, ← body, List.append_assoc, unescaped?_token hone, hothers,
      List.length_append]
    simp [Nat.add_comm]

theorem closing?_encode (payload : Octets) :
    closing? (encode payload) = some ((encode payload).length - 1) := by
  have hbody : unescaped? (quoteFor payload) (body (quoteFor payload) payload ++
      [quoteFor payload]) = some (body (quoteFor payload) payload).length :=
    unescaped?_body fun _ => fits_quoteFor
  simp [closing?, encode, hbody]

/-! ### Payloads and their literals -/

/-- Payloads and literals correspond to each other one to one.

    What is written for a payload is a literal of it, and is read as that payload.  It is
    printable ASCII, and its last octet is the first quote after the opening one that no
    backslash escapes.  A text is a literal of a payload exactly if it is what is written
    for that payload, and exactly if it is read as that payload. -/
theorem encode_bijOn_literals :
    (∀ payload, Literal (encode payload) payload ∧ decode (encode payload) = some payload ∧
        (∀ c ∈ encode payload, 0x20 ≤ c ∧ c ≤ 0x7e) ∧
        closing? (encode payload) = some ((encode payload).length - 1)) ∧
      (∀ text payload, (Literal text payload ↔ encode payload = text) ∧
        (Literal text payload ↔ decode text = some payload)) ∧
      Set.BijOn encode Set.univ {text | ∃ payload, Literal text payload} := by
  refine ⟨?_, ?_, ?_, ?_, ?_⟩
  · intro payload
    exact ⟨literal_encode payload, decode_encode payload, fun _ => printable_encode,
      closing?_encode payload⟩
  · intro text payload
    exact ⟨literal_iff_encode, decode_eq_some_iff.symm⟩
  · intro payload _
    exact ⟨payload, literal_encode payload⟩
  · intro payload _ other _ hsame
    exact encode_injective hsame
  · rintro text ⟨payload, hliteral⟩
    exact ⟨payload, trivial, literal_iff_encode.mp hliteral⟩

/-- Both quotes, a backslash before what looks like an escape, a newline and an octet
    beyond ASCII. -/
theorem encode_bijOn_literals_both_quotes :
    let payload : Octets := [0x27, 0x5c, 0x78, 0x34, 0x31, 0x22, 0x0a, 0xe9]
    let text : Octets := [0x62, 0x27, 0x5c, 0x27, 0x5c, 0x5c, 0x78, 0x34, 0x31, 0x22, 0x5c, 0x6e,
      0x5c, 0x78, 0x65, 0x39, 0x27]
    Literal text payload ∧ decode text = some payload ∧ 0xe9 ∉ text ∧ closing? text = some 16 := by
  intro payload text
  obtain ⟨hwritten, hread, -⟩ := encode_bijOn_literals
  have htext : encode payload = text := by decide
  obtain ⟨hliteral, -, hprintable, hclosing⟩ := hwritten payload
  rw [htext] at hliteral hprintable hclosing
  refine ⟨hliteral, (hread text payload).2.mp hliteral, ?_, hclosing⟩
  intro hmem
  exact absurd (hprintable _ hmem).2 (by decide)

end BrokerLoad.ByteLiteral

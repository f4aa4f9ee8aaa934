/-
  BrokerLoad/ByteLiteral.lean
  ===========================
  Payloads in print: any sequence of octets as one line of printable ASCII.

  A payload is shown between quotes, after the letter `b`.  Printable ASCII
  stands for itself, a backslash and the three common control characters have
  two-character escapes, and every other octet is written with two hexadecimal
  digits.  The quote is the apostrophe, unless the payload holds an apostrophe
  and no double quote; so an apostrophe is escaped only where both occur.

  `encode` writes such a literal and `decode` reads one.  `decode` refuses every
  text that `encode` does not write, so a payload has one literal only.
-/
import BrokerLoad.Octets

namespace BrokerLoad.ByteLiteral

/-! ### Characters of the literal -/

def apostrophe : UInt8 := 0x27

def doubleQuote : UInt8 := 0x22

def backslash : UInt8 := 0x5c

def hexDigit (n : UInt8) : UInt8 :=
  if n < 10 then 0x30 + n else 0x57 + n

def hexValue? (c : UInt8) : Option UInt8 :=
  if 0x30 ≤ c ∧ c ≤ 0x39 then some (c - 0x30)
  else if 0x61 ≤ c ∧ c ≤ 0x66 then some (c - 0x57)
  else none

/-! ### Writing -/

/-- The quote around a payload: the double quote where that saves an escape. -/
def quoteFor (payload : Octets) : UInt8 :=
  if apostrophe ∈ payload ∧ doubleQuote ∉ payload then doubleQuote else apostrophe

def token (quote octet : UInt8) : Octets :=
  if octet = backslash then [backslash, backslash]
  else if octet = 0x09 then [backslash, 0x74]
  else if octet = 0x0a then [backslash, 0x6e]
  else if octet = 0x0d then [backslash, 0x72]
  else if octet = apostrophe ∧ quote = apostrophe then [backslash, apostrophe]
  else if 0x20 ≤ octet ∧ octet ≤ 0x7e then [octet]
  else [backslash, 0x78, hexDigit (octet >>> 4), hexDigit (octet &&& 0x0f)]

def body (quote : UInt8) (payload : Octets) : Octets :=
  payload.flatMap (token quote)

def encode (payload : Octets) : Octets :=
  let quote := quoteFor payload
  0x62 :: quote :: (body quote payload ++ [quote])

/-! ### Reading -/

/-- Reads the body of a literal up to its closing quote, which has to be the end
    of the text.  An octet is taken only where `token` writes it that way. -/
def decodeBody (quote : UInt8) : Octets → Option Octets
  | [] => none
  | c :: rest =>
    if c = quote then
      if rest = [] then some [] else none
    else if c = backslash then
      match rest with
      | 0x78 :: high :: low :: rest =>
        match hexValue? high, hexValue? low with
        | some h, some l =>
          let octet := h <<< 4 ||| l
          if token quote octet = [backslash, 0x78, high, low] then
            (decodeBody quote rest).map (octet :: ·)
          else none
        | _, _ => none
      | escaped :: rest =>
        let octet? : Option UInt8 :=
          if escaped = backslash then some backslash
          else if escaped = 0x74 then some 0x09
          else if escaped = 0x6e then some 0x0a
          else if escaped = 0x72 then some 0x0d
          else if escaped = apostrophe ∧ quote = apostrophe then some apostrophe
          else none
        octet?.bind fun octet => (decodeBody quote rest).map (octet :: ·)
      | [] => none
    else if 0x20 ≤ c ∧ c ≤ 0x7e then
      (decodeBody quote rest).map (c :: ·)
    else none

/-- The payload of a literal.  A literal in the wrong quotes is refused. -/
def decode : Octets → Option Octets
  | 0x62 :: quote :: rest =>
    if quote = apostrophe ∨ quote = doubleQuote then
      (decodeBody quote rest).filter fun payload => quoteFor payload == quote
    else none
  | _ => none

end BrokerLoad.ByteLiteral

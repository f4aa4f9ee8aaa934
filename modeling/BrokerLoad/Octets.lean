/-
  BrokerLoad/Octets.lean
  ======================
  What is written to the operator and what travels as a payload: finite
  sequences of octets.

  Texts become octets by UTF-8.  The writer of a session counts octets and may
  stop in the middle of a character, so everything that is compared with what
  was written is stated on octets.  `ofText_append` and `ofText_injective` are
  what that costs: writing two texts one after the other is writing their
  concatenation, and a text can be told from its octets.
-/

namespace BrokerLoad

abbrev Octets := List UInt8

namespace Octets

def ofText (text : String) : Octets := text.toUTF8.data.toList

/-- The text whose UTF-8 form is given, if there is one. -/
def text? (octets : Octets) : Option String :=
  String.fromUTF8? ⟨octets.toArray⟩

theorem ofText_append (s t : String) : ofText (s ++ t) = ofText s ++ ofText t := by
  simp [ofText, String.toUTF8_eq_toByteArray]

theorem ofText_injective {s t : String} (h : ofText s = ofText t) : s = t := by
  simp only [ofText, String.toUTF8_eq_toByteArray, Array.toList_inj] at h
  exact String.toByteArray_inj.mp (ByteArray.ext h)

theorem ofText_ne_nil {s : String} (h : s ≠ "") : ofText s ≠ [] :=
  fun hempty => h (ofText_injective hempty)

theorem text?_ofText (s : String) : text? (ofText s) = some s := by
  have h : (⟨(ofText s).toArray⟩ : ByteArray) = s.toByteArray := by
    apply ByteArray.ext
    simp [ofText, String.toUTF8_eq_toByteArray]
  rw [text?, h, String.fromUTF8?, dif_pos s.isValidUTF8]
  rfl

end Octets

end BrokerLoad

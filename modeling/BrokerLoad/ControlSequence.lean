/-
  BrokerLoad/ControlSequence.lean
  ===============================
  Text with control sequences, shown where no terminal obeys them.

  A control sequence begins with the escape character, and its next characters
  say how it goes on and how it ends.  Nothing of it is shown, and no control
  character outside of one is, except the blanks: tab, line feed, form feed and
  carriage return.  A blank inside a sequence is shown too, unless the sequence
  carries a string; it interrupts the sequence, and everything is shown until
  the next control character takes the sequence up again.

  `shown_of_forall` says that a text without control characters is shown as it
  is.
-/
import BrokerLoad.Octets

namespace BrokerLoad

/-! ### Characters -/

/-- The blanks that are shown wherever they stand outside of a string. -/
def ControlSequence.isBlank (c : Char) : Bool :=
  c == '\t' || c == '\n' || c == '\x0c' || c == '\x0d'

def ControlSequence.isShown (c : Char) : Bool :=
  isBlank c || (' ' ≤ c && c != '\x7f')

/-! ### Sequences -/

inductive ControlSequence where
  /-- Nothing but the escape character was read. -/
  | escape
  /-- An escape sequence of more than one character. -/
  | longEscape
  /-- A sequence with parameters. -/
  | parameters
  /-- A string for the system, such as a title. -/
  | systemString
  /-- A string for a device, before its parameters. -/
  | deviceEntry
  /-- A string for a device, in its parameters. -/
  | deviceParameters
  /-- A string for a device, between its parameters and its body. -/
  | deviceIntermediate
  /-- The body of a string for a device, or any other string. -/
  | otherString
deriving DecidableEq, Repr

namespace ControlSequence

def showsBlanks : ControlSequence → Bool
  | escape | longEscape | parameters => true
  | _ => false

def stringEnd : UInt8 := 0x9c

/-- What a sequence that has begun makes of an ordinary character; nothing, if the
    sequence ends with it. -/
def continued (s : ControlSequence) (c : Char) : Option ControlSequence :=
  match s with
  | escape =>
    if ' ' ≤ c ∧ c < '0' then some longEscape
    else if c = '[' then some parameters
    else if c = ']' then some systemString
    else if c = 'P' then some deviceEntry
    else if c = 'X' ∨ c = '^' ∨ c = '_' then some otherString
    else if '0' ≤ c ∧ c ≤ '~' then none
    else some escape
  | longEscape => if '0' ≤ c ∧ c ≤ '~' then none else some longEscape
  | parameters => if '@' ≤ c ∧ c ≤ '~' then none else some parameters
  | systemString => if c = '\x07' then none else some systemString
  | deviceEntry =>
    if ' ' ≤ c ∧ c < '0' then some deviceIntermediate
    else if c = ':' ∨ ('@' ≤ c ∧ c ≤ '~') then some otherString
    else if '0' ≤ c ∧ c ≤ '?' then some deviceParameters
    else some deviceEntry
  | deviceParameters =>
    if ' ' ≤ c ∧ c < '0' then some deviceIntermediate
    else if c = ':' ∨ ('<' ≤ c ∧ c ≤ '~') then some otherString
    else some deviceParameters
  | deviceIntermediate => if '0' ≤ c ∧ c ≤ '~' then some otherString else some deviceIntermediate
  | otherString => if stringEnd ∈ Octets.ofText c.toString then none else some otherString

/-- What becomes of a sequence, or of none, by a character that is not shown: the
    escape character begins a new one, and two characters break any off. -/
def next (s? : Option ControlSequence) (c : Char) : Option ControlSequence :=
  if c = '\x1b' then some escape
  else if c = '\x18' ∨ c = '\x1a' then none
  else s?.bind (·.continued c)

/-! ### Reading a text -/

/-- What of a text is shown that begins inside the sequence `s?`, if any.  While
    `interrupted` holds the sequence was interrupted by a blank. -/
def shownAfter (s? : Option ControlSequence) (interrupted : Bool) : List Char → List Char
  | [] => []
  | c :: cs =>
    match s?, interrupted with
    | some s, false =>
      if isBlank c && s.showsBlanks then c :: shownAfter s? true cs
      else shownAfter (next s? c) false cs
    | _, _ =>
      if isShown c then c :: shownAfter (if c < '\x80' then s? else none) true cs
      else shownAfter (next s? c) false cs

/-- A text as it is shown where no terminal obeys its control sequences. -/
def shown (text : String) : String := String.ofList (shownAfter none false text.toList)

theorem shownAfter_of_forall {cs : List Char} (h : ∀ c ∈ cs, isShown c = true)
    (interrupted : Bool) : shownAfter none interrupted cs = cs := by
  induction cs generalizing interrupted with
  | nil => rfl
  | cons c cs ih =>
    have hc := h c List.mem_cons_self
    have hcs := ih (fun d hd => h d (List.mem_cons_of_mem c hd)) true
    simp [shownAfter, hc, hcs]

/-- A text without control characters is shown as it is. -/
theorem shown_of_forall {text : String} (h : ∀ c ∈ text.toList, isShown c = true) :
    shown text = text := by
  rw [shown, shownAfter_of_forall h, String.ofList_toList]

end ControlSequence

end BrokerLoad

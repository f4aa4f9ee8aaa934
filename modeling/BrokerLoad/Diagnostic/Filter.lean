/-
  BrokerLoad/Diagnostic/Filter.lean
  =================================
  Which diagnostics are shown: lists of directives such as
  `warn,loadgen::publisher=info`.

  A directive names a target, a level, or both.  A bare level is for every
  target; a bare target, or a target with nothing after the equals sign, shows
  everything from there.  In brackets after the target it may name a span, and in
  braces fields, with or without a value: `publish[{submitted}]=info`.  No
  diagnostic here belongs to a span, and none is looked at for its values, so a
  directive that asks for either speaks of none.

  Of the directives that speak of a diagnostic the most specific decides: the
  longest target, then the most fields, then the names of the fields, the last in
  their order; of equals the last.  Empty directives are skipped.  A blank is
  nowhere skipped: it makes a target match nothing, and a level unreadable.

  `Filter.shows_iff_level` is the reading of a filter as one level per diagnostic.
-/
import BrokerLoad.Alphanumeric
import BrokerLoad.Diagnostic

namespace BrokerLoad.Diagnostic

/-! ### Directives -/

/-- How much a directive shows: the severities up to this rank. -/
abbrev Level := Nat

structure Field where
  name : String
  hasValue : Bool
deriving DecidableEq, Repr

/-- One directive of a filter; without a target it is for all. -/
structure Directive where
  target : Option String
  span : Option String := none
  fields : List Field := []
  level : Level
deriving DecidableEq, Repr

/-- A filter is its directives, in the order of writing. -/
abbrev Filter := List Directive

namespace Directive

def everything : Level := 5

/-! ### Reading -/

def number? (word : List Char) : Option Nat :=
  let digits := match word with
    | '+' :: digits => digits
    | digits => digits
  if digits.isEmpty || !digits.all Char.isDigit then none
  else some (digits.foldl (fun n c => 10 * n + (c.toNat - '0'.toNat)) 0)

def level? (word : List Char) : Option Level :=
  match number? word with
  | some n => if n ≤ everything then some n else none
  | none =>
    match String.ofList (word.map Char.toLower) with
    | "off" => some 0
    | "error" => some 1
    | "warn" => some 2
    | "info" => some 3
    | "debug" => some 4
    | "trace" => some 5
    | _ => none

def beginsTarget (c : Char) : Bool := c == '-' || c == ':' || c == '_' || isAlphanumeric c

def isBlank (c : Char) : Bool :=
  c == ' ' || ('\t' ≤ c && c ≤ '\r') || c == '\u0085' || c == '\u00a0' || c == '\u1680' ||
    ('\u2000' ≤ c && c ≤ '\u200a') || c == '\u2028' || c == '\u2029' || c == '\u202f' ||
    c == '\u205f' || c == '\u3000'

structure Parts where
  target : List Char
  span : Option (List Char) := none
  field : Option (List Char) := none
  /-- What follows the equals sign. -/
  level : Option (List Char) := none
deriving DecidableEq, Repr

/-- What may follow a target and its brackets: nothing, or the equals sign and a
    level. -/
def Parts.withLevel (p : Parts) : List Char → Option Parts
  | [] => some p
  | '=' :: word => some { p with level := some word }
  | _ => none

/-- Reads on behind an opening bracket: the name of a span, which may be missing before
    an opening brace, and what is in the braces, up to the closing bracket. -/
def Parts.withBrackets (p : Parts) (cs : List Char) : Option Parts :=
  let ends (c : Char) : Bool := c == ']' || c == '\x7b'
  let span := cs.takeWhile (!ends ·)
  match cs.drop span.length with
  | ']' :: rest => { p with span := some span }.withLevel rest
  | '\x7b' :: inner =>
    let field := inner.takeWhile (· != '\x7d')
    match field, inner.drop field.length with
    | _ :: _, '\x7d' :: ']' :: rest =>
      { p with span := if span.isEmpty then none else some span, field := some field }.withLevel rest
    | _, _ => none
  | _ => none

def parts? : List Char → Option Parts
  | [] => none
  | '[' :: cs => Parts.withBrackets { target := [] } cs
  | c :: cs =>
    if beginsTarget c then
      let target := (c :: cs).takeWhile fun d => d != '=' && d != '['
      match (c :: cs).drop target.length with
      | '[' :: rest => Parts.withBrackets { target } rest
      | rest => Parts.withLevel { target } rest
    else none

def field (cs : List Char) : Field where
  name := String.ofList (cs.takeWhile (· != '='))
  hasValue := cs.contains '='

def ofText? (text : String) : Option Directive := do
  let cs := text.toList
  let before := cs.takeWhile isBlank
  let inner := ((cs.drop before.length).reverse.dropWhile isBlank).reverse
  let after := cs.drop (before.length + inner.length)
  let p ← parts? inner
  match before, p.level, p.span, p.field with
  | _ :: _, none, _, _ => return { target := some text, level := everything }
  | _ :: _, some _, _, _ => none
  | [], none, none, none =>
    match level? (inner ++ after) with
    | some level => return { target := none, level }
    | none => return { target := some text, level := everything }
  | [], word?, span?, field? =>
    let level ← match word?.map (· ++ after) with
      | none | some [] => some everything
      | some word => level? word
    return {
      target := if p.target.isEmpty then none else some (String.ofList p.target)
      span := span?.map String.ofList
      fields := field?.toList.map field
      level }

/-! ### What a directive speaks of -/

def covers (d : Directive) (diagnostic : Diagnostic) : Bool :=
  d.span.isNone &&
    (match d.target with
      | none => true
      | some own => own.toList.isPrefixOf diagnostic.origin.target.toList) &&
    d.fields.all fun f => !f.hasValue && diagnostic.fields.contains f.name

def weight (d : Directive) : Nat :=
  match d.target with
  | none => 0
  | some target => target.length + 1

/-- Whether a directive is more specific than another, where both speak of the same
    diagnostic. -/
def outweighs (d e : Directive) : Bool :=
  let names (d : Directive) : List String := d.fields.map (·.name)
  e.weight < d.weight ||
    (e.weight == d.weight &&
      (e.fields.length < d.fields.length ||
        (e.fields.length == d.fields.length && decide (names e < names d))))

end Directive

/-! ### Filters -/

namespace Filter

/-- What is shown unless something else is asked for: warnings and errors. -/
def standard : Filter := [{ target := none, level := 2 }]

def ofText? (text : String) : Option Filter :=
  ((text.splitOn ",").filter (!·.isEmpty)).mapM Directive.ofText?

/-- The filter that a setting asks for.  Without a setting, or with one that
    cannot be read, it is the standard one. -/
def ofSetting (setting? : Option String) : Filter :=
  (setting?.bind ofText?).getD standard

/-- The directive that decides about a diagnostic, if any speaks of it. -/
def decisive? (filter : Filter) (d : Diagnostic) : Option Directive :=
  (filter.filter (·.covers d)).foldl
    (fun best? candidate =>
      match best? with
      | some best => if best.outweighs candidate then some best else some candidate
      | none => some candidate)
    none

/-- The level up to which a diagnostic is shown; if no directive speaks of it, it is
    not shown. -/
def level (filter : Filter) (d : Diagnostic) : Level :=
  match filter.decisive? d with
  | some directive => directive.level
  | none => 0

def shows (filter : Filter) (d : Diagnostic) : Bool :=
  d.severity.rank ≤ filter.level d

theorem shows_iff_level (filter : Filter) (d : Diagnostic) :
    filter.shows d = true ↔ d.severity.rank ≤ filter.level d := by
  simp [shows]

end Filter

end BrokerLoad.Diagnostic

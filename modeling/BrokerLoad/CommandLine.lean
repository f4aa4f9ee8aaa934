/-
  BrokerLoad/CommandLine.lean
  ===========================
  What the words after a program's name ask for.

  Words are read from the left.  The first positional word is the topic, which may
  be empty and may begin with a hyphen; the second and everything after it is
  ignored, whatever it looks like.  Up to there, a word may ask for the help or
  the version, which is given at once, and two hyphens make everything after them
  positional.  Positional words have to be text, also the ignored ones; so have the
  names that begin with two hyphens.  That the topic is text is looked at when the
  next word is taken up, so a word that is wrong in itself is reported first.

  Words are quoted in error messages without control sequences.
-/
import BrokerLoad.CommandLine.Resemblance
import BrokerLoad.ControlSequence
import BrokerLoad.Endpoint
import BrokerLoad.Octets.Lenient

namespace BrokerLoad

inductive Program where
  | publish
  | subscribe
deriving DecidableEq, Repr

namespace Program

def name : Program → String
  | .publish => "publish"
  | .subscribe => "subscribe"

def about : Program → String
  | .publish =>
    "Publish 20,000 numbered messages (`mid1`..`mid20000`) at QoS 2 to a topic on localhost:1883"
  | .subscribe => "Subscribe to a topic on localhost:1883 and print every message received"

def ofName? : String → Option Program
  | "publish" => some .publish
  | "subscribe" => some .subscribe
  | _ => none

def version : String := "0.1.0"

def clientOptions (program : Program) (draw : UInt32) :
    Except Endpoint.OptionsError Endpoint.Options :=
  match program with
  | .publish => Endpoint.options program.name draw none
  | .subscribe => Endpoint.options program.name draw (some Endpoint.subscriberKeepAlive)

end Program

namespace CommandLine

/-! ### Words -/

inductive Inquiry where
  | help
  | version
deriving DecidableEq, Repr

namespace Inquiry

def name : Inquiry → String
  | help => "help"
  | version => "version"

/-- The inquiries, in the order in which the help lists them. -/
def all : List Inquiry := [help, version]

def word (inquiry : Inquiry) : String := "--" ++ inquiry.name

def ofName? (name : String) : Option Inquiry := all.find? (·.name == name)

/-- The inquiry that a name may have meant, if it is none. -/
def ofMistyped? (name : String) : Option Inquiry :=
  (closest? name (all.map Inquiry.name)).bind ofName?

end Inquiry

inductive UsageError where
  | unexpectedValue (inquiry : Inquiry) (value : String)
  /-- A name that is not text, read with replacements, and whether a topic was there
      before it. -/
  | unexpectedName (name : String) (topicGiven : Bool)
  | notText
deriving DecidableEq, Repr

/-- What a word is when it is not known to be positional. -/
inductive Word where
  | inquiry (inquiry : Inquiry)
  | inquiryWithValue (inquiry : Inquiry) (value : Octets)
  /-- Two hyphens and a name that is not text. -/
  | unreadableName (name : Octets)
  | separator
  | positional
deriving DecidableEq, Repr

def Inquiry.ofLetter? (letter : UInt8) : Option Inquiry :=
  if letter = 0x68 then some .help
  else if letter = 0x56 then some .version
  else none

def equalsSign : UInt8 := 0x3d

/-- What a word with two hyphens is, from what follows these.  A name that is text
    and none of an inquiry makes the word positional. -/
def Word.ofLong (rest : Octets) : Word :=
  let name := rest.takeWhile (· != equalsSign)
  match Octets.text? name with
  | none => .unreadableName name
  | some text =>
    match Inquiry.ofName? text with
    | none => .positional
    | some asked =>
      match rest.drop name.length with
      | [] => .inquiry asked
      | _ :: value => .inquiryWithValue asked value

/-- What a word with one hyphen is, from what follows it: nothing but letters of
    inquiries, of which the first counts, or a positional word. -/
def Word.ofShort (letters : Octets) : Word :=
  match letters.mapM Inquiry.ofLetter? with
  | some (asked :: _) => .inquiry asked
  | _ => .positional

def Word.ofOctets : Octets → Word
  | [0x2d, 0x2d] => .separator
  | 0x2d :: 0x2d :: rest => .ofLong rest
  | 0x2d :: letters => .ofShort letters
  | _ => .positional

/-! ### Invocations -/

inductive Invocation where
  | tell (inquiry : Inquiry)
  | run (topic : String)
  | missingTopic
  | refused (error : UsageError)
deriving DecidableEq, Repr

/-- Reads words that are all positional; the first is the topic. -/
def readPositionals (words : List Octets) : Invocation :=
  match words.mapM Octets.text? with
  | none => .refused .notText
  | some [] => .missingTopic
  | some (topic :: _) => .run topic

/-- Reads words after the topic, if there was one. -/
def readWords (topic? : Option Octets) : List Octets → Invocation
  | [] => readPositionals topic?.toList
  | word :: words =>
    match Word.ofOctets word with
    | .inquiry inquiry =>
      if topic?.all (Octets.text? · |>.isSome) then .tell inquiry else .refused .notText
    | .inquiryWithValue inquiry value =>
      .refused (.unexpectedValue inquiry (Octets.lenientText value))
    | .unreadableName name =>
      .refused (.unexpectedName (Octets.lenientText name) topic?.isSome)
    | .separator => readPositionals (topic?.toList ++ words)
    | .positional =>
      match topic? with
      | none => readWords (some word) words
      | some topic => readPositionals (topic :: word :: words)

def read (words : List Octets) : Invocation := readWords none words

/-! ### Answers -/

structure Answer where
  exitStatus : Nat
  stdout : String := ""
  stderr : String := ""
deriving DecidableEq, Repr

/-- The line about the use of a program: with an inquiry, if it is about one, and
    with the topic, which is optional unless it was given. -/
def usage (program : Program) (inquiry? : Option Inquiry) (topicGiven : Bool) : String :=
  let inquiry := match inquiry? with
    | some inquiry => inquiry.word ++ " "
    | none => ""
  let topic := if topicGiven then "<TOPIC>" else "[TOPIC]"
  "Usage: " ++ program.name ++ " " ++ inquiry ++ topic ++ "\n"

def help (program : Program) : String :=
  program.about ++ "\n\n" ++ usage program none false ++
    "\nArguments:\n  [TOPIC]  Topic to " ++ program.name ++ " to\n" ++
    "\nOptions:\n  -h, --help     Print help\n  -V, --version  Print version\n"

namespace UsageError

def message : UsageError → String
  | unexpectedValue inquiry value =>
    "unexpected value '" ++ ControlSequence.shown value ++ "' for '" ++ inquiry.word ++
      "' found; no more were expected"
  | unexpectedName name _ =>
    "unexpected argument '--" ++ ControlSequence.shown name ++ "' found"
  | notText => "invalid UTF-8 was detected in one or more arguments"

def tip? : UsageError → Option String
  | unexpectedName name _ =>
    match Inquiry.ofMistyped? name with
    | some inquiry => some ("a similar argument exists: '" ++ inquiry.word ++ "'")
    | none =>
      let word := "--" ++ ControlSequence.shown name
      some ("to pass '" ++ word ++ "' as a value, use '-- " ++ word ++ "'")
  | _ => none

def inquiry? : UsageError → Option Inquiry
  | unexpectedValue inquiry _ => some inquiry
  | unexpectedName name _ => Inquiry.ofMistyped? name
  | notText => none

def topicGiven : UsageError → Bool
  | unexpectedName _ topicGiven => topicGiven
  | _ => false

def report (program : Program) (error : UsageError) : String :=
  let tip := match error.tip? with
    | some tip => "  tip: " ++ tip ++ "\n\n"
    | none => ""
  "error: " ++ error.message ++ "\n\n" ++ tip ++
    usage program error.inquiry? error.topicGiven ++ "\nFor more information, try '--help'.\n"

end UsageError

/-- How a program ends that is not asked to work. -/
def Invocation.answer? (program : Program) : Invocation → Option Answer
  | .run _ => none
  | .tell .help => some { exitStatus := 0, stdout := help program }
  | .tell .version =>
    some { exitStatus := 0, stdout := program.name ++ " " ++ Program.version ++ "\n" }
  | .missingTopic =>
    some { exitStatus := 1, stdout := "please provide topic to " ++ program.name ++ "\n" }
  | .refused error => some { exitStatus := 2, stderr := error.report program }

end CommandLine

end BrokerLoad

/-
  BrokerLoad/Diagnostic.lean
  ==========================
  What the programs tell whoever looks after them, as opposed to the operator's
  lines: each diagnostic with its severity, its origin, its message and the one
  detail that some of them carry.

  The entries of level TRACE, one for each event of a client, are not among them:
  they repeat the event, and show only under a filter that asks for them.
-/
import BrokerLoad.Packet

namespace BrokerLoad

/-- How grave a diagnostic is, the gravest first. -/
inductive Severity where
  | error
  | warn
  | info
  | debug
  | trace
deriving DecidableEq, Repr

namespace Severity

/-- The place of a severity in the order; a filter at some level shows all
    severities up to that one. -/
def rank : Severity → Nat
  | .error => 1
  | .warn => 2
  | .info => 3
  | .debug => 4
  | .trace => 5

def label : Severity → String
  | .error => "ERROR"
  | .warn => "WARN"
  | .info => "INFO"
  | .debug => "DEBUG"
  | .trace => "TRACE"

end Severity

inductive Origin where
  | publisher
  | subscriber
  | pump
  | publishCommand
deriving DecidableEq, Repr

/-- The name by which filters know an origin: parts from the outside in, joined
    by two colons. -/
def Origin.target : Origin → String
  | .publisher => "loadgen::publisher"
  | .subscriber => "loadgen::subscriber"
  | .pump => "loadgen::link"
  | .publishCommand => "publish"

inductive Diagnostic where
  /-- The publisher looked at the signal and found it raised. -/
  | publisherInterrupted (submitted : UInt32)
  /-- The subscriber looked at the signal and found it raised. -/
  | subscriberInterrupted
  | publishRejected (reason : String)
  | subscribeRejected (reason : String)
  | connectionRefused (code : ReturnCode)
  /-- The connection failed otherwise.  The program adds the client's text about it to
      the message, after a colon; that text is left out here. -/
  | connectionFailed
  | noticesUnclaimed
  | sendingFinished (submitted : UInt32)
  | sendingInterrupted (submitted : UInt32)
deriving DecidableEq, Repr

inductive Detail where
  | number (n : Nat)
  | text (s : String)
deriving DecidableEq, Repr

namespace Diagnostic

def severity : Diagnostic → Severity
  | .publisherInterrupted _ => .info
  | .subscriberInterrupted => .info
  | .publishRejected _ => .warn
  | .subscribeRejected _ => .warn
  | .connectionRefused _ => .error
  | .connectionFailed => .error
  | .noticesUnclaimed => .debug
  | .sendingFinished _ => .info
  | .sendingInterrupted _ => .info

def origin : Diagnostic → Origin
  | .publisherInterrupted _ => .publisher
  | .subscriberInterrupted => .subscriber
  | .publishRejected _ => .publisher
  | .subscribeRejected _ => .subscriber
  | .connectionRefused _ => .pump
  | .connectionFailed => .pump
  | .noticesUnclaimed => .pump
  | .sendingFinished _ => .publishCommand
  | .sendingInterrupted _ => .publishCommand

def message : Diagnostic → String
  | .publisherInterrupted _ => "publisher interrupted"
  | .subscriberInterrupted => "subscriber interrupted"
  | .publishRejected reason => "publish rejected by client: " ++ reason
  | .subscribeRejected reason => "subscribe rejected by client: " ++ reason
  | .connectionRefused _ => "broker refused the connection"
  | .connectionFailed => "connection error"
  | .noticesUnclaimed => "notice receiver gone, stopping event loop"
  | .sendingFinished _ => "send loop finished"
  | .sendingInterrupted _ => "send loop interrupted"

def detail? : Diagnostic → Option (String × Detail)
  | .publisherInterrupted submitted => some ("submitted", .number submitted.toNat)
  | .connectionRefused code => some ("code", .text code.name)
  | .sendingFinished submitted => some ("submitted", .number submitted.toNat)
  | .sendingInterrupted submitted => some ("submitted", .number submitted.toNat)
  | _ => none

def fields (d : Diagnostic) : List String := "message" :: d.detail?.toList.map (·.1)

def fullLine (d : Diagnostic) : String :=
  let detail := match d.detail? with
    | some (name, .text s) => " " ++ name ++ "=" ++ s
    | some (name, .number n) => " " ++ name ++ "=" ++ toString n
    | none => ""
  d.severity.label ++ " " ++ d.message ++ detail

/-- The line of a diagnostic without numbers: how many messages had been submitted
    depends on the moment. -/
def line (d : Diagnostic) : String :=
  match d.detail? with
  | some (_, .number _) => d.severity.label ++ " " ++ d.message
  | _ => d.fullLine

end Diagnostic

end BrokerLoad

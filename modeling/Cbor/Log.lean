import Cbor.Text

/-!
# Log events

What the operations report beside their results.
-/

namespace Cbor

inductive Severity where
  | error
  | warn
  | info
  | debug
  | trace
  deriving DecidableEq, Repr

namespace Severity

def rank : Severity → Nat
  | .error => 0
  | .warn => 1
  | .info => 2
  | .debug => 3
  | .trace => 4

def name : Severity → String
  | .error => "ERROR"
  | .warn => "WARN"
  | .info => "INFO"
  | .debug => "DEBUG"
  | .trace => "TRACE"

end Severity

inductive Event where
  | depthRefused (limit : Nat)
  | recordMismatch (description mismatch : Text)
  | builtInMismatch (description mismatch : Text)
  | inputRead (length : Nat)
  | trailingIgnored (length : Nat)
  | checking (file : Text) (records : Nat)
  | wrote (path : Text) (records : Nat)
  deriving DecidableEq, Repr

namespace Event

def severity : Event → Severity
  | .depthRefused _ => .trace
  | .recordMismatch _ _ | .inputRead _ | .checking _ _ => .debug
  | .builtInMismatch _ _ => .error
  | .trailingIgnored _ => .warn
  | .wrote _ _ => .info

def message : Event → Text
  | .depthRefused _ => "Refusing to decode beyond maximum nesting depth".toList
  | .recordMismatch _ mismatch => "Fixture mismatch: ".toList ++ mismatch
  | .builtInMismatch _ mismatch => "Built-in case does not hold: ".toList ++ mismatch
  | .inputRead _ => "Read input".toList
  | .trailingIgnored _ =>
      "Ignoring bytes after the first item, use --sequence to decode them".toList
  | .checking file _ => "Checking ".toList ++ file
  | .wrote path _ => "Wrote ".toList ++ path

def fields : Event → List (String × Text)
  | .depthRefused limit => [("max_depth", Text.ofNat limit)]
  | .recordMismatch description _ | .builtInMismatch description _ =>
      [("description", description)]
  | .inputRead length => [("len", Text.ofNat length)]
  | .trailingIgnored length => [("trailing", Text.ofNat length)]
  | .checking _ records | .wrote _ records => [("records", Text.ofNat records)]

end Event

def eventsFrom (least : Severity) (events : List Event) : List Event :=
  events.filter fun event => event.severity.rank ≤ least.rank

end Cbor

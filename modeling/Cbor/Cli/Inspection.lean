import Cbor.Cli.Outcome
import Cbor.Item.Diagnostic
import Cbor.Item.Json
import Cbor.Wire.Sequence

/-!
# Inspection

Shows the first item of the data, or all of them, a line break between each two.  Nothing is
written unless every item that is to be shown decodes.
-/

namespace Cbor

namespace Inspection

inductive Format where
  | diagnostic
  | json
  | hex
  deriving DecidableEq, Repr

namespace Format

def write (format : Format) (step : Step) : Text :=
  match format with
  | .diagnostic => step.item.diagnostic
  | .json => step.item.toJson.pretty
  | .hex => Hex.encode step.bytes

end Format

/-- The first item of the data or, in a sequence, every item, of which there is at least one; or
the first fault and its offset. -/
def splitItems (options : Options) (sequence : Bool) (data : Bytes) :
    Except (Nat × DecodeError) (List Step) :=
  if sequence && !data.isEmpty then
    let found := walk options data
    match found.fault with
    | none => .ok found.steps
    | some fault => .error fault
  else
    match decodeWith options data with
    | .error error => .error (0, error)
    | .ok (item, length) => .ok [⟨0, data.take length, item⟩]

def trailing (data : Bytes) (steps : List Step) : Nat :=
  data.length - (steps.getLast?.map Step.stop).getD 0

def trailingEvents (data : Bytes) (steps : List Step) : List Event :=
  if trailing data steps = 0 then [] else [.trailingIgnored (trailing data steps)]

def report (format : Format) (steps : List Step) : Text :=
  Text.join ['\n'] (steps.map format.write)

end Inspection

structure Inspection where
  format : Inspection.Format := .diagnostic
  hex : Bool := false
  sequence : Bool := false
  options : Options := {}
  target : Target := .stdout
  source : Source
  deriving DecidableEq, Repr

namespace Inspection

def deliver (target : Target) (text : Text) (store : Store) (events : List Event) : Outcome :=
  match target with
  | .stdout => { stdout := text ++ ['\n'], store := store, events := events }
  | .file path =>
      match store.write path (Utf8.encode text) with
      | .ok store => { store := store, events := events }
      | .error error => .failed store events error.message

def inspectData (inspection : Inspection) (store : Store) (data : Bytes) : Outcome :=
  match splitItems inspection.options inspection.sequence data with
  | .error (offset, error) =>
      .failed store
        (.inputRead data.length :: decodeEvents (.error error : Except DecodeError Unit))
        (Text.because ("Failed to decode item at offset ".toList ++ Text.ofNat offset) error.message)
  | .ok steps =>
      deliver inspection.target (report inspection.format steps) store
        (.inputRead data.length :: trailingEvents data steps)

def run (inspection : Inspection) (stdin : Bytes) (store : Store) : Outcome :=
  match inspection.source.readData inspection.hex stdin store with
  | .error message =>
      .failed store [] (Text.because ("Failed to read ".toList ++ inspection.source.display) message)
  | .ok data => inspection.inspectData store data

end Inspection

end Cbor

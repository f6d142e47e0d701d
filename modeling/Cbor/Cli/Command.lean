import Cbor.Cli.Arguments
import Cbor.Cli.FixtureSet
import Cbor.Cli.Inspection
import Cbor.Cli.Verification

/-!
# Commands

The commands of the command line: their arguments, and what they do with a standard input and a
store of files.
-/

namespace Cbor

inductive Command where
  | inspect (inspection : Inspection)
  | verify (sources : List Source)
  | fixtures (directory : Text)
  deriving DecidableEq, Repr

namespace Command

/-! ## Values of options -/

def format? (text : Text) : Option Inspection.Format :=
  if text = "diag".toList ∨ text = "diagnostic".toList then some .diagnostic
  else if text = "json".toList then some .json
  else if text = "hex".toList then some .hex
  else none

/-- A count below 2^64 in decimal digits, which a plus sign may precede. -/
def count? (text : Text) : Option UInt64 :=
  let digits := match text with
    | '+' :: digits => digits
    | digits => digits
  let number := digits.foldl (fun number digit => 10 * number + (digit.toNat - '0'.toNat)) 0
  if !digits.isEmpty && digits.all Char.isDigit && number < UInt64.size then
    some (UInt64.ofNat number)
  else none

def checked {α : Type} (error : UsageError) (read : Text → Option α) (text : Text) :
    Except UsageError Unit :=
  if (read text).isSome then .ok () else .error error

/-! ## Signatures -/

def inspectSignature : Signature where
  switches := [
    ⟨"format".toList, none, some (checked .invalidValue format?)⟩,
    ⟨"hex".toList, none, none⟩,
    ⟨"sequence".toList, some 's', none⟩,
    ⟨"max-depth".toList, none, some (checked .valueValidation count?)⟩,
    ⟨"output".toList, some 'o', some fun _ => .ok ()⟩]
  most := some 1

def verifySignature : Signature where
  switches := []
  most := none

def fixturesSignature : Signature where
  switches := [
    ⟨"output".toList, some 'o', some fun text =>
      if text.isEmpty then .error .invalidValue else .ok ()⟩]
  most := some 0

/-! ## Commands from arguments -/

def parseInspect (texts : List Text) : Except UsageError Command := do
  let arguments ← Arguments.parse inspectSignature 1 texts
  .ok (.inspect {
    format := ((arguments.value? "format").bind format?).getD .diagnostic
    hex := (arguments.value? "hex").isSome
    sequence := (arguments.value? "sequence").isSome
    options := match (arguments.value? "max-depth").bind count? with
      | some maxDepth => { maxDepth }
      | none => {}
    target := ((arguments.value? "output").map Target.ofArgument).getD .stdout
    source := .ofArgument (arguments.positional.head?.getD []) })

def parseVerify (texts : List Text) : Except UsageError Command := do
  let arguments ← Arguments.parse verifySignature 1 texts
  .ok (.verify (arguments.positional.map Source.ofArgument))

def parseFixtures (texts : List Text) : Except UsageError Command := do
  let arguments ← Arguments.parse fixturesSignature 0 texts
  .ok (.fixtures ((arguments.value? "output").getD ['.']))

def parse? (name : Text) (texts : List Text) : Option (Except UsageError Command) :=
  if name = "inspect".toList then some (parseInspect texts)
  else if name = "verify".toList then some (parseVerify texts)
  else if name = "fixtures".toList then some (parseFixtures texts)
  else none

/-! ## Running -/

def sources : Command → List Source
  | .inspect inspection => [inspection.source]
  | .verify sources => sources
  | .fixtures _ => []

/-- The directory that a command writes a file to, which has to be there. -/
def directory? : Command → Option Text
  | .inspect { target := .file path, .. } =>
      let names := (path.reverse.dropWhile (· != '/')).reverse
      some (if names.isEmpty then ['.'] else names)
  | _ => none

def run (command : Command) (stdin : Bytes) (store : Store) : Outcome :=
  match command with
  | .inspect inspection => inspection.run stdin store
  | .verify sources => Verification.run sources stdin store
  | .fixtures directory => FixtureSet.run directory store

end Command

end Cbor

import Cbor.Conformance.ExpectationJson
import Cbor.Item.Diagnostic
import Cbor.Json.Written
import Cbor.Wire.Item

/-!
# Conformance records

A record gives an input in hexadecimal and either the item that it has to decode to, or no more,
which says that it has to fail.  Verifying a record yields how it does not hold.
-/

namespace Cbor

inductive Record where
  | success (description input : Text) (expect : Expectation)
  | failure (description input : Text)
  deriving DecidableEq, Repr, Inhabited

inductive Mismatch where
  | invalidInput (error : HexError)
  | unexpectedSuccess (item : Item)
  | decode (error : DecodeError)
  | incomplete (consumed length : Nat)
  | wrongValue (expected actual : Expectation)
  deriving DecidableEq, Repr

namespace Mismatch

def message : Mismatch → Text
  | .invalidInput error => "Invalid hex input: ".toList ++ error.message
  | .unexpectedSuccess item => "Expected a decode error, got ".toList ++ item.diagnostic
  | .decode error => "Decode failed: ".toList ++ error.message
  | .incomplete consumed length =>
      "Decoded ".toList ++ Text.ofNat consumed ++ " of ".toList ++ Text.ofNat length ++
        " bytes".toList
  | .wrongValue expected actual =>
      "Expected ".toList ++ expected.describe ++ ", got ".toList ++ actual.describe

end Mismatch

namespace Record

def decodesTo (description : Text) (data : Bytes) (item : Item) : Record :=
  .success description (Hex.encode data) (.ofItem item)

def fails (description : Text) (data : Bytes) : Record :=
  .failure description (Hex.encode data)

def description : Record → Text
  | .success description _ _ | .failure description _ => description

def input : Record → Text
  | .success _ input _ | .failure _ input => input

/-! ## Verification -/

def decoding (record : Record) : Except HexError (Except DecodeError (Item × Nat) × Nat) := do
  let data ← Hex.decode record.input
  .ok (decode data, data.length)

def verifyExpected (expect : Expectation) (length : Nat) :
    Except DecodeError (Item × Nat) → Except Mismatch Unit
  | .error error => .error (.decode error)
  | .ok (item, consumed) =>
      if consumed ≠ length then .error (.incomplete consumed length)
      else if .ofItem item = expect then .ok ()
      else .error (.wrongValue expect (.ofItem item))

def verifyFailure : Except DecodeError (Item × Nat) → Except Mismatch Unit
  | .error _ => .ok ()
  | .ok (item, _) => .error (.unexpectedSuccess item)

def verify (record : Record) : Except Mismatch Unit :=
  match record.decoding with
  | .error error => .error (.invalidInput error)
  | .ok (result, length) =>
      match record with
      | .success _ _ expect => verifyExpected expect length result
      | .failure _ _ => verifyFailure result

def decodeError? : Record → Option DecodeError
  | .success _ _ _ => none
  | .failure description input =>
      match decoding (.failure description input) with
      | .ok (.error error, _) => some error
      | _ => none

def decodingEvents (record : Record) : List Event :=
  match record.decoding with
  | .ok (result, _) => decodeEvents result
  | .error _ => []

def decodeErrorEvents : Record → List Event
  | .success _ _ _ => []
  | .failure description input => decodingEvents (.failure description input)

def verifyEvents (record : Record) : List Event :=
  record.decodingEvents ++
    match record.verify with
    | .ok () => []
    | .error mismatch => [.recordMismatch record.description mismatch.message]

/-! ## JSON -/

def toJson : Record → Json
  | .success description input expect => .object [
      ("description".toList, .string description), ("input".toList, .string input),
      ("expect".toList, expect.toJson)]
  | .failure description input =>
      .object [("description".toList, .string description), ("input".toList, .string input)]

def successOfJson? (json : Json) : Option Record := do
  match ← json.fields? ["description".toList, "input".toList, "expect".toList] with
  | [description, input, expect] =>
      return .success (← description.toText?) (← input.toText?) (← Expectation.ofJson? expect)
  | _ => none

def failureOfJson? (json : Json) : Option Record := do
  match ← json.fields? ["description".toList, "input".toList] with
  | [description, input] => return .failure (← description.toText?) (← input.toText?)
  | _ => none

/-- A tree that fits no record with an expectation may still fit one without. -/
def ofJson? (json : Json) : Option Record :=
  (successOfJson? json).or (failureOfJson? json)

def read (depth : Nat) : Json.Reader Record := fun text => do
  let (json, text) ← Json.read depth text
  match ofJson? json with
  | some record => .ok (record, text)
  | none => .error .mismatched

def readList : (depth : Nat) → Json.Reader (List Record)
  | 0 => Json.readArray false (read 0)
  | depth + 1 => Json.readArray true (read depth)

def parse (text : Text) : Except JsonFault Record :=
  Json.whole (read Json.nestingLimit) text

def parseList (text : Text) : Except JsonFault (List Record) :=
  Json.whole (readList Json.nestingLimit) text

end Record

end Cbor

import Cbor.Conformance.Expectation
import Cbor.Json.Shape

/-!
# Expectations in JSON

An expectation is an object with one member, whose name is the kind of item.  It is read from a
tree, where all that does not fit is left out, or straight from a text, where the first fault
is named.
-/

namespace Cbor

namespace Expectation

inductive Kind where
  | unsigned
  | negative
  | bytes
  | text
  | array
  | map
  | tagged
  | bool
  | null
  | undefined
  | single
  | double
  deriving DecidableEq, Repr

namespace Kind

def name : Kind → Text
  | .unsigned => "uint".toList
  | .negative => "negint".toList
  | .bytes => "bytestring".toList
  | .text => "string".toList
  | .array => "list".toList
  | .map => "map".toList
  | .tagged => "tag".toList
  | .bool => "bool".toList
  | .null => "null".toList
  | .undefined => "undefined".toList
  | .single => "float32".toList
  | .double => "float64".toList

def all : List Kind :=
  [.unsigned, .negative, .bytes, .text, .array, .map, .tagged, .bool, .null, .undefined, .single,
    .double]

def ofName? (name : Text) : Option Kind := all.find? fun kind => kind.name == name

theorem ofName?_name (kind : Kind) : ofName? kind.name = some kind := by
  cases kind <;> decide

end Kind

/-! ## Writing -/

def kindJson (kind : Kind) (content : Json) : Json := .object [(kind.name, content)]

mutual

def toJson : Expectation → Json
  | .unsigned number => kindJson .unsigned (.integer number.toNat)
  | .negative argument => kindJson .negative (.integer argument.toNat)
  | .bytes content => kindJson .bytes (.array (content.map fun byte => .integer byte.toNat))
  | .text content => kindJson .text (.string content)
  | .array items => kindJson .array (.array (itemsToJson items))
  | .map entries => kindJson .map (.object (entriesToJson entries))
  | .tagged tag content =>
      kindJson .tagged
        (.object [("id".toList, .integer tag.toNat), ("value".toList, toJson content)])
  | .bool truth => kindJson .bool (.bool truth)
  | .null => kindJson .null (.object [])
  | .undefined => kindJson .undefined (.object [])
  | .single bits => kindJson .single (.integer bits.toNat)
  | .double bits => kindJson .double (.integer bits.toNat)

def itemsToJson : List Expectation → List Json
  | [] => []
  | item :: items => toJson item :: itemsToJson items

def entriesToJson : List (Text × Expectation) → List (Text × Json)
  | [] => []
  | (key, value) :: entries => (key, toJson value) :: entriesToJson entries

end

/-! ## Reading from a tree -/

def bytes? : Json → Option Bytes
  | .array elements => elements.mapM fun element => (element.toNatural? 256).map UInt8.ofNat
  | _ => none

def ofScalar? (kind : Kind) (content : Json) : Option Expectation :=
  match kind with
  | .unsigned => return .unsigned (UInt64.ofNat (← content.toNatural? UInt64.size))
  | .negative => return .negative (UInt64.ofNat (← content.toNatural? UInt64.size))
  | .bytes => return .bytes (← bytes? content)
  | .text => return .text (← content.toText?)
  | .bool => match content with
      | .bool truth => return .bool truth
      | _ => none
  | .null => match content with
      | .object _ | .array [] => return .null
      | _ => none
  | .undefined => match content with
      | .object _ | .array [] => return .undefined
      | _ => none
  | .single => return .single (UInt32.ofNat (← content.toNatural? UInt32.size))
  | .double => return .double (UInt64.ofNat (← content.toNatural? UInt64.size))
  | .array | .map | .tagged => none

mutual

def ofJson? : Json → Option Expectation
  | .object [(name, content)] => do
      match ← Kind.ofName? name with
      | .array => ofList? content
      | .map => ofMap? content
      | .tagged => ofTag? content
      | kind => ofScalar? kind content
  | _ => none

def ofList? : Json → Option Expectation
  | .array elements => return .array (← ofElements? elements)
  | _ => none

def ofMap? : Json → Option Expectation
  | .object members => return .map (Entries.ofPairs (← ofMembers? members))
  | _ => none

def ofTag? : Json → Option Expectation
  | .object members => ofTagMembers? members none none
  | .array [tag, value] =>
      return .tagged (UInt64.ofNat (← tag.toNatural? UInt64.size)) (← ofJson? value)
  | _ => none

def ofElements? : List Json → Option (List Expectation)
  | [] => some []
  | element :: elements => return (← ofJson? element) :: (← ofElements? elements)

def ofMembers? : List (Text × Json) → Option (List (Text × Expectation))
  | [] => some []
  | (key, value) :: members => return (key, ← ofJson? value) :: (← ofMembers? members)

def ofTagMembers? (members : List (Text × Json)) (tag : Option UInt64)
    (content : Option Expectation) : Option Expectation :=
  match members with
  | [] => return .tagged (← tag) (← content)
  | (name, value) :: members =>
      if name = "id".toList then
        if tag.isSome then none
        else do
          let found ← value.toNatural? UInt64.size
          ofTagMembers? members (some (UInt64.ofNat found)) content
      else if name = "value".toList then
        if content.isSome then none
        else do
          let found ← ofJson? value
          ofTagMembers? members tag (some found)
      else ofTagMembers? members tag content

end

/-! ## Reading from a text -/

def tagFields (inner : Json.Reader Expectation) :
    List (Json.Field (Option UInt64 × Option Expectation)) := [
  { name := "id".toList
    isSet := fun state => state.1.isSome
    read := fun state input => do
      let (tag, input) ← Json.readNatural UInt64.size input
      .ok ((some (UInt64.ofNat tag), state.2), input) },
  { name := "value".toList
    isSet := fun state => state.2.isSome
    read := fun state input => do
      let (content, input) ← inner input
      .ok ((state.1, some content), input) }]

def readNothing (allowed : Bool) : Json.Reader Unit :=
  Json.readStructure allowed [] () some

/-- Reads the content of an expectation, and with `inner` those that it contains; `none` where
nothing may be opened. -/
def readContent (inner : Option (Json.Reader Expectation)) : Kind → Json.Reader Expectation :=
  let allowed := inner.isSome
  let inner := inner.getD fun _ => .error .malformed
  fun kind input => do
    match kind with
    | .unsigned =>
        let (number, input) ← Json.readNatural UInt64.size input
        .ok (.unsigned (UInt64.ofNat number), input)
    | .negative =>
        let (number, input) ← Json.readNatural UInt64.size input
        .ok (.negative (UInt64.ofNat number), input)
    | .bytes =>
        let (content, input) ← Json.readArray allowed (Json.readNatural 256) input
        .ok (.bytes (content.map UInt8.ofNat), input)
    | .text =>
        let (content, input) ← Json.readText input
        .ok (.text content, input)
    | .array =>
        let (items, input) ← Json.readArray allowed inner input
        .ok (.array items, input)
    | .map =>
        let (pairs, input) ← Json.readObject allowed inner input
        .ok (.map (Entries.ofPairs pairs), input)
    | .tagged =>
        Json.readStructure allowed (tagFields inner) (none, none)
          (fun state => return .tagged (← state.1) (← state.2)) input
    | .bool =>
        let (truth, input) ← Json.readBool input
        .ok (.bool truth, input)
    | .null =>
        let (_, input) ← readNothing allowed input
        .ok (.null, input)
    | .undefined =>
        let (_, input) ← readNothing allowed input
        .ok (.undefined, input)
    | .single =>
        let (bits, input) ← Json.readNatural UInt32.size input
        .ok (.single (UInt32.ofNat bits), input)
    | .double =>
        let (bits, input) ← Json.readNatural UInt64.size input
        .ok (.double (UInt64.ofNat bits), input)

def readKind : Json.Reader Kind := fun input =>
  match Json.afterBlanks input with
  | [] => .error .early
  | '"' :: input => do
      let (name, input) ← Json.readString input
      match Kind.ofName? name with
      | some kind => .ok (kind, input)
      | none => .error .mismatched
  | _ => .error .malformed

def readOne (content : Option (Kind → Json.Reader Expectation)) : Json.Reader Expectation :=
  fun input =>
    match Json.afterBlanks input, content with
    | [], _ => .error .early
    | '{' :: _, none => .error .malformed
    | '{' :: input, some content => do
        let (kind, input) ← readKind input
        let (_, input) ← Json.readColon input
        let (found, input) ← content kind input
        let (_, input) ← Json.endObject input
        .ok (found, input)
    | '"' :: input, _ => do
        let _ ← Json.readString input
        .error .mismatched
    | _, _ => .error .malformed

/-- Reads an expectation that opens at most `depth` containers at once: each takes an object, and
what it contains stands in another container. -/
def read : (depth : Nat) → Json.Reader Expectation
  | 0, input => readOne none input
  | 1, input => readOne (some (readContent none)) input
  | depth + 2, input => readOne (some (readContent (some (read depth)))) input

def parse (input : Text) : Except JsonFault Expectation :=
  Json.whole (read Json.nestingLimit) input

end Expectation

end Cbor

import Cbor.Json.Reader

/-!
# JSON of a given shape

Values that are to be of one shape, read straight from the text, so that a wrong shape is a fault
before any later fault of the text.  Structures are written as objects or as arrays of their
fields in order.
-/

namespace Cbor.Json

/-- The fault of a value of another kind than the one asked for: a scalar has to be whole. -/
def readOther {α : Type} : Reader α := fun text =>
  match text with
  | 'n' :: text => do
      let _ ← readWord () "ull".toList text
      .error .mismatched
  | 't' :: text => do
      let _ ← readWord () "rue".toList text
      .error .mismatched
  | 'f' :: text => do
      let _ ← readWord () "alse".toList text
      .error .mismatched
  | '"' :: text => do
      let _ ← readString text
      .error .mismatched
  | '[' :: _ | '{' :: _ => .error .mismatched
  | c :: _ =>
      if c = '-' ∨ c.isDigit then do
        let _ ← readNumber text
        .error .mismatched
      else .error .malformed
  | [] => .error .early

def readNatural (bound : Nat) : Reader Nat := fun text =>
  match afterBlanks text with
  | [] => .error .early
  | c :: rest =>
      if c = '-' ∨ c.isDigit then do
        match ← readNumber (c :: rest) with
        | (.integer (.ofNat number), text) =>
            if number < bound then .ok (number, text) else .error .mismatched
        | _ => .error .mismatched
      else readOther (c :: rest)

def readBool : Reader Bool := fun text =>
  match afterBlanks text with
  | [] => .error .early
  | 't' :: text => readWord true "rue".toList text
  | 'f' :: text => readWord false "alse".toList text
  | text => readOther text

def readText : Reader Text := fun text =>
  match afterBlanks text with
  | [] => .error .early
  | '"' :: text => readString text
  | text => readOther text

def readArray {α : Type} (allowed : Bool) (element : Reader α) : Reader (List α) := fun text =>
  match afterBlanks text with
  | [] => .error .early
  | '[' :: text => if allowed then readElements element text else .error .malformed
  | text => readOther text

def readObject {α : Type} (allowed : Bool) (value : Reader α) : Reader (List (Text × α)) :=
  fun text =>
    match afterBlanks text with
    | [] => .error .early
    | '{' :: text => if allowed then readMembers value text else .error .malformed
    | text => readOther text

/-! ## Structures -/

structure Field (σ : Type) where
  name : Text
  isSet : σ → Bool
  read : σ → Reader σ

def readField {σ : Type} (fields : List (Field σ)) (state : σ) (name : Text) : Reader σ :=
  fun text =>
    match fields.find? fun field => field.name == name with
    | none => do
        let (_, text) ← readColon text
        let (_, text) ← skip text
        .ok (state, text)
    | some field =>
        if field.isSet state then .error .mismatched
        else do
          let (_, text) ← readColon text
          field.read state text

def readFieldsInOrder {σ : Type} (first : Bool) : List (Field σ) → σ → Reader σ
  | [], state, text => .ok (state, text)
  | field :: fields, state, text => do
      match ← nextElement? first text with
      | none => .ok (state, text)
      | some text => do
          let (state, text) ← field.read state text
          readFieldsInOrder false fields state text

/-- Reads a structure, if a container may be opened; `finish` is `none` if a field is missing. -/
def readStructure {σ α : Type} (allowed : Bool) (fields : List (Field σ)) (start : σ)
    (finish : σ → Option α) : Reader α := fun text =>
  match afterBlanks text with
  | [] => .error .early
  | '[' :: text =>
      if allowed then do
        let (state, text) ← readFieldsInOrder true fields start text
        match finish state with
        | none => .error .mismatched
        | some x => do
            let (_, text) ← endArray text
            .ok (x, text)
      else .error .malformed
  | '{' :: text =>
      if allowed then do
        let (state, text) ← foldMembers (readField fields) start text
        match finish state with
        | none => .error .mismatched
        | some x => do
            let (_, text) ← endObject text
            .ok (x, text)
      else .error .malformed
  | text => readOther text

/-! ## Trees of a given shape -/

def toNatural? (bound : Nat) : Json → Option Nat
  | .integer (.ofNat number) => if number < bound then some number else none
  | _ => none

def toText? : Json → Option Text
  | .string text => some text
  | _ => none

/-- The values of the named fields, each of which an object has once, among any others, and an
array has in order and alone. -/
def fields? (names : List Text) : Json → Option (List Json)
  | .object members => names.mapM fun name =>
      match members.filter fun member => member.1 == name with
      | [(_, value)] => some value
      | _ => none
  | .array elements => if elements.length = names.length then some elements else none
  | _ => none

end Cbor.Json

import Cbor.Json.Skip

/-!
# Reading JSON

The steps through arrays and objects that all readers share, and the reader of trees.  Containers
nest at most `nestingLimit` deep.
-/

namespace Cbor.Json

def nestingLimit : Nat := 127

/-! ## Steps -/

def nextElement? (first : Bool) (text : Text) : Except JsonFault (Option Text) :=
  match afterBlanks text with
  | [] => .error .early
  | ']' :: _ => .ok none
  | c :: rest =>
      if first then .ok (some (c :: rest))
      else if c = ',' then
        match afterBlanks rest with
        | [] => .error .early
        | ']' :: _ => .error .malformed
        | text => .ok (some text)
      else .error .malformed

def endArray : Reader Unit := fun text =>
  match afterBlanks text with
  | [] => .error .early
  | ']' :: text => .ok ((), text)
  | _ => .error .malformed

def nextName? (first : Bool) : Reader (Option Text) := fun text =>
  match afterBlanks text with
  | [] => .error .early
  | '}' :: rest => .ok (none, '}' :: rest)
  | c :: rest =>
      if first then name (c :: rest)
      else if c = ',' then
        match afterBlanks rest with
        | [] => .error .early
        | text => name text
      else .error .malformed
where
  name : Reader (Option Text) := fun text =>
    match text with
    | '"' :: text => do
        let (found, text) ← readString text
        .ok (some found, text)
    | _ => .error .malformed

def readColon : Reader Unit := fun text =>
  match afterBlanks text with
  | [] => .error .early
  | ':' :: text => .ok ((), text)
  | _ => .error .malformed

def endObject : Reader Unit := fun text =>
  match afterBlanks text with
  | [] => .error .early
  | '}' :: text => .ok ((), text)
  | _ => .error .malformed

/-! ## Containers -/

def readElements {α : Type} (element : Reader α) : Reader (List α) := fun text =>
  loop text true [] text
where
  loop (rounds : Text) (first : Bool) (found : List α) : Reader (List α) := fun text =>
    match rounds with
    | [] => .error .early
    | _ :: rounds => do
        match ← nextElement? first text with
        | none => do
            let (_, text) ← endArray text
            .ok (found.reverse, text)
        | some text => do
            let (x, text) ← element text
            loop rounds false (x :: found) text

/-- Reads the members of an object whose opening brace has been read, but not its end.  What was
read so far and the name say how to read from the colon on. -/
def foldMembers {σ : Type} (member : σ → Text → Reader σ) (start : σ) : Reader σ := fun text =>
  loop text true start text
where
  loop (rounds : Text) (first : Bool) (state : σ) : Reader σ := fun text =>
    match rounds with
    | [] => .error .early
    | _ :: rounds => do
        match ← nextName? first text with
        | (none, text) => .ok (state, text)
        | (some name, text) => do
            let (state, text) ← member state name text
            loop rounds false state text

def readMembers {α : Type} (value : Reader α) : Reader (List (Text × α)) := fun text => do
  let member (found : List (Text × α)) (name : Text) : Reader (List (Text × α)) := fun text => do
    let (_, text) ← readColon text
    let (x, text) ← value text
    .ok ((name, x) :: found, text)
  let (found, text) ← foldMembers member [] text
  let (_, text) ← endObject text
  .ok (found.reverse, text)

/-! ## Trees -/

/-- Reads one value, and with `inner` what it contains; `none` where nothing may be opened. -/
def readOne (inner : Option (Reader Json)) : Reader Json := fun text =>
  match afterBlanks text, inner with
  | [], _ => .error .early
  | 'n' :: text, _ => readWord .null "ull".toList text
  | 't' :: text, _ => readWord (.bool true) "rue".toList text
  | 'f' :: text, _ => readWord (.bool false) "alse".toList text
  | '"' :: text, _ => do
      let (found, text) ← readString text
      .ok (.string found, text)
  | '[' :: _, none | '{' :: _, none => .error .malformed
  | '[' :: text, some inner => do
      let (elements, text) ← readElements inner text
      .ok (.array elements, text)
  | '{' :: text, some inner => do
      let (members, text) ← readMembers inner text
      .ok (.object members, text)
  | c :: text, _ => if c = '-' ∨ c.isDigit then readNumber (c :: text) else .error .malformed

def read : (depth : Nat) → Reader Json
  | 0, text => readOne none text
  | depth + 1, text => readOne (some (read depth)) text

def whole {α : Type} (reader : Reader α) (text : Text) : Except JsonFault α := do
  let (x, text) ← reader text
  if (afterBlanks text).isEmpty then .ok x else .error .malformed

end Cbor.Json

import Cbor.Json.Lexeme

/-!
# Skipped JSON

Reading past a value that nobody asks for.  Its grammar is checked, but neither how deep it
nests, nor whether its numbers and escapes stand for anything.
-/

namespace Cbor.Json

inductive Container where
  | array
  | object
  deriving DecidableEq, Repr

namespace Container

def closing : Container → Char
  | .array => ']'
  | .object => '}'

def skipLabel : Container → Reader Unit
  | .array, text => .ok ((), text)
  | .object, text =>
      match afterBlanks text with
      | [] => .error .early
      | '"' :: text => do
          let (_, text) ← skipString text
          match afterBlanks text with
          | [] => .error .early
          | ':' :: text => .ok ((), text)
          | _ => .error .malformed
      | _ => .error .malformed

/-- Goes on behind a value: out of the containers that end there, and up to the next value of
the first one that goes on. -/
def leave : (containers : List Container) → Reader (List Container)
  | [], text => .ok ([], text)
  | container :: outer, text =>
      match afterBlanks text with
      | [] => .error .early
      | c :: text =>
          if c = ',' then do
            let (_, text) ← container.skipLabel text
            .ok (container :: outer, text)
          else if c = container.closing then leave outer text
          else .error .malformed

end Container

def skipScalar : Reader Unit := fun text =>
  match text with
  | 'n' :: text => readWord () "ull".toList text
  | 't' :: text => readWord () "rue".toList text
  | 'f' :: text => readWord () "alse".toList text
  | '"' :: text => skipString text
  | '-' :: _ => do
      let (_, text) ← Numeral.read .malformed text
      .ok ((), text)
  | c :: _ =>
      if c.isDigit then do
        let (_, text) ← Numeral.read .malformed text
        .ok ((), text)
      else .error .malformed
  | [] => .error .early

/-- Reads past the next value in the open containers and all that follows in them.  Every value
takes part of the text, so a round for each character is enough. -/
def skipRest (rounds : Text) (containers : List Container) : Reader Unit := fun text =>
  match rounds with
  | [] => .error .early
  | _ :: rounds => do
      let resume : Reader Unit := fun text => do
        match ← Container.leave containers text with
        | ([], text) => .ok ((), text)
        | (containers, text) => skipRest rounds containers text
      let enter (container : Container) : Reader Unit := fun text =>
        match afterBlanks text with
        | [] => .error .early
        | c :: rest =>
            if c = container.closing then resume rest
            else do
              let (_, text) ← container.skipLabel text
              skipRest rounds (container :: containers) text
      match afterBlanks text with
      | [] => .error .early
      | '[' :: text => enter .array text
      | '{' :: text => enter .object text
      | text => do
          let (_, text) ← skipScalar text
          resume text

def skip : Reader Unit := fun text => skipRest text [] text

end Cbor.Json

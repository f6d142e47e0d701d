import Cbor.Cli.Store
import Cbor.Text.Hex

/-!
# Sources and targets

Where a command reads from and writes to: a file, or a standard stream, which a dash names.
-/

namespace Cbor

inductive Source where
  | stdin
  | file (path : Text)
  deriving DecidableEq, Repr

namespace Source

def ofArgument (text : Text) : Source := if text = ['-'] then .stdin else .file text

def display : Source → Text
  | .stdin => "<stdin>".toList
  | .file path => path

def read (stdin : Bytes) (store : Store) : Source → Except StoreError Bytes
  | .stdin => .ok stdin
  | .file path => store.read path

def readText (stdin : Bytes) (store : Store) (source : Source) : Except StoreError Text := do
  match Utf8.decode? (← source.read stdin store) with
  | some text => .ok text
  | none => .error .notText

def leave (stdin : Bytes) : Source → Bytes
  | .stdin => []
  | .file _ => stdin

/-- Reads bytes that are written in hexadecimal if `hex` is set; the error is a message. -/
def readData (hex : Bool) (stdin : Bytes) (store : Store) (source : Source) : Except Text Bytes :=
  if hex then do
    let text ← (source.readText stdin store).mapError StoreError.message
    (Hex.decodeSpaced text).mapError HexError.message
  else (source.read stdin store).mapError StoreError.message

end Source

inductive Target where
  | stdout
  | file (path : Text)
  deriving DecidableEq, Repr

namespace Target

/-- An empty argument names standard output too. -/
def ofArgument (text : Text) : Target := if text = [] ∨ text = ['-'] then .stdout else .file text

end Target

end Cbor

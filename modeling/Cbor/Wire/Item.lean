import Cbor.Float.Binary
import Cbor.Item.Entries
import Cbor.Log
import Cbor.Wire.Head

/-!
# Reading items

The reader of one item.  The faults of an item are met in this order: its head, then the
nesting limit, then its content from left to right.
-/

namespace Cbor

/-! ## Strings -/

namespace StringContent

def readDefinite (length : UInt64) : Reader Bytes := fun cursor =>
  match cursor.take? length.toNat with
  | some found => .ok found
  | none => .error (.contentTooShort length.toNat)

def readChunk (major : Major) : Reader Bytes := fun cursor =>
  match cursor.next? with
  | none => .error .expectedBreak
  | some (byte, cursor) => do
      let head := Head.ofByte byte
      if head.major ≠ major then .error (.unexpectedChunkType head.major.code)
      else match ← (Argument.read head.info cursor).mapError .inChunk with
        | (.number length, cursor) => (readDefinite length cursor).mapError .inChunk
        | (.indefinite, _) => .error .nestedIndefiniteChunk

def read (head : Head) : Reader Bytes := fun cursor => do
  match ← Argument.read head.info cursor with
  | (.number length, cursor) => readDefinite length cursor
  | (.indefinite, cursor) =>
      let (chunks, cursor) ← Reader.untilBreak (readChunk head.major) cursor
      .ok (chunks.flatten, cursor)

end StringContent

/-! ## Simple values and floats -/

namespace Simple

def readFloat (width : Nat) : Reader UInt64 := fun cursor =>
  match cursor.take? width with
  | some (digits, cursor) => .ok (Bytes.toUInt64 digits, cursor)
  | none => .error (.incompleteFloat (8 * width))

def read (info : Nat) : Reader Item := fun cursor =>
  match info with
  | 20 => .ok (.bool false, cursor)
  | 21 => .ok (.bool true, cursor)
  | 22 => .ok (.null, cursor)
  | 23 => .ok (.undefined, cursor)
  | 25 => do
      let (bits, cursor) ← readFloat 2 cursor
      .ok (.single (UInt32.ofNat (FloatFormat.half.widen .single bits.toNat)), cursor)
  | 26 => do
      let (bits, cursor) ← readFloat 4 cursor
      .ok (.single bits.toUInt32, cursor)
  | 27 => do
      let (bits, cursor) ← readFloat 8 cursor
      .ok (.double bits, cursor)
  | _ => .error (.invalidInfo info)

end Simple

/-! ## Items -/

namespace Item

def readElements {α : Type} (element : Reader α) : Argument → Reader (List α)
  | .number count => Reader.exactly element count.toNat
  | .indefinite => Reader.untilBreak element

def readEntry (value : Reader Item) : Reader (Bytes × Item) := fun cursor =>
  match cursor.next? with
  | none => .error .unexpectedEnd
  | some (byte, cursor) => do
      let head := Head.ofByte byte
      if head.major ≠ .text then .error (.unexpectedKeyType head.major.code)
      else
        let (key, cursor) ← StringContent.read head cursor
        let (value, cursor) ← value cursor
        .ok ((key, value), cursor)

/-- The reader of what a container holds; `none` where the limit allows no further level. -/
def descend (limit : Nat) : Option (Reader Item) → Except DecodeError (Reader Item)
  | none => .error (.depthExceeded limit)
  | some inner => .ok inner

def readOne (limit : Nat) (inner : Option (Reader Item)) : Reader Item := fun cursor =>
  match cursor.next? with
  | none => .error .unexpectedEnd
  | some (byte, cursor) => do
      let head := Head.ofByte byte
      match head.major with
      | .unsigned =>
          let (number, cursor) ← Argument.readNumber head.info cursor
          .ok (.unsigned number, cursor)
      | .negative =>
          let (number, cursor) ← Argument.readNumber head.info cursor
          if number.toNat + 1 < UInt64.size then .ok (.negative (number + 1), cursor)
          else .error .negativeOverflow
      | .bytes =>
          let (content, cursor) ← StringContent.read head cursor
          .ok (.bytes content, cursor)
      | .text =>
          let (content, cursor) ← StringContent.read head cursor
          .ok (.text content, cursor)
      | .array =>
          let (argument, cursor) ← Argument.read head.info cursor
          let inner ← descend limit inner
          let (items, cursor) ← readElements inner argument cursor
          .ok (.array items, cursor)
      | .map =>
          let (argument, cursor) ← Argument.read head.info cursor
          let inner ← descend limit inner
          let (pairs, cursor) ← readElements (readEntry inner) argument cursor
          .ok (.map (Entries.ofPairs pairs), cursor)
      | .tag =>
          let (tag, cursor) ← Argument.readNumber head.info cursor
          let inner ← descend limit inner
          let (content, cursor) ← inner cursor
          .ok (.tagged tag content, cursor)
      | .simple => Simple.read head.info cursor

/--
Reads one item, with `budget` levels of arrays, maps and tags still allowed of the `limit` that
an error names.
-/
def read (limit : Nat) : (budget : Nat) → Reader Item
  | 0, cursor => readOne limit none cursor
  | budget + 1, cursor => readOne limit (some (read limit budget)) cursor

end Item

/-! ## Decoding -/

structure Options where
  maxDepth : UInt64 := 128
  deriving DecidableEq, Repr

def decodeWith (options : Options) (data : Bytes) : Except DecodeError (Item × Nat) := do
  let (item, cursor) ← Item.read options.maxDepth.toNat options.maxDepth.toNat (.start data)
  .ok (item, cursor.offset)

def decode (data : Bytes) : Except DecodeError (Item × Nat) := decodeWith {} data

def decodeEvents {α : Type} : Except DecodeError α → List Event
  | .error (.depthExceeded limit) => [.depthRefused limit]
  | _ => []

end Cbor

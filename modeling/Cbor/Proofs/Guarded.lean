import Cbor.Proofs.Readers
import Cbor.Wire.Sequence

/-!
# Guarded runs

The decoding of a buffer that all readers share, each at an offset of its own.  Every step is
guarded: a slice that would begin outside of the buffer, a sum that takes more than 64 bits, room
for more elements than bytes are left, an item below the nesting limit and a loop that goes on for
more rounds than there are bytes left, and one, are breaches, which end the run and are no decoding
errors.
-/

namespace Cbor

inductive Breach where
  | outside (offset : Nat)
  | overflow
  | oversized (room : Nat)
  | tooDeep (depth : Nat)
  | endless
  deriving DecidableEq, Repr

/-- A result, or the breach or decoding error that the run ends with. -/
abbrev Guarded (α : Type) := Except (Breach ⊕ DecodeError) α

namespace Guarded

variable {α : Type}

def breach (found : Breach) : Guarded α := .error (.inl found)

def fault (error : DecodeError) : Guarded α := .error (.inr error)

def lift (result : Except DecodeError α) : Guarded α := result.mapError .inr

/-! ## Guarded steps -/

def add (first second : Nat) : Guarded Nat :=
  if first + second < 2 ^ 64 then .ok (first + second) else breach .overflow

def slice (data : Bytes) (offset : Nat) : Guarded Bytes :=
  if offset ≤ data.length then .ok (data.drop offset) else breach (.outside offset)

def inSlice (data : Bytes) (reader : Reader α) (offset : Nat) : Guarded (α × Nat) := do
  let rest ← slice data offset
  let (x, cursor) ← lift (reader (.start rest))
  let stop ← add offset cursor.offset
  .ok (x, stop)

def descend (limit depth : Nat) : Guarded Nat :=
  if limit ≤ depth then fault (.depthExceeded limit) else add depth 1

/-! ## Loops -/

/-- The rounds that a loop may take: one for each byte that is left, and one. -/
def rounds (data : Bytes) (offset : Nat) : Nat := data.length - offset + 1

def exactly (element : Nat → Guarded (α × Nat)) :
    (rounds count : Nat) → List α → Nat → Guarded (List α × Nat)
  | _, 0, found, offset => .ok (found.reverse, offset)
  | 0, _ + 1, _, _ => breach .endless
  | rounds + 1, count + 1, found, offset => do
      let (x, next) ← element offset
      exactly element rounds count (x :: found) next

def untilBreak (data : Bytes) (element : Nat → Guarded (α × Nat)) :
    (rounds : Nat) → List α → Nat → Guarded (List α × Nat)
  | 0, _, _ => breach .endless
  | rounds + 1, found, offset =>
      match data[offset]? with
      | none => fault .expectedBreak
      | some byte =>
          if byte = breakByte then do
            let stop ← add offset 1
            .ok (found.reverse, stop)
          else do
            let (x, next) ← element offset
            untilBreak data element rounds (x :: found) next

def elements (data : Bytes) (element : Nat → Guarded (α × Nat)) (argument : Argument)
    (offset : Nat) : Guarded (List α × Nat) :=
  match argument with
  | .number count => exactly element (rounds data offset) count.toNat [] offset
  | .indefinite => untilBreak data element (rounds data offset) [] offset

/-! ## Strings -/

def argument (data : Bytes) (info : Nat) : Nat → Guarded (Argument × Nat) :=
  inSlice data (Argument.read info)

def number (data : Bytes) (info offset : Nat) : Guarded (UInt64 × Nat) := do
  match ← argument data info offset with
  | (.number value, stop) => .ok (value, stop)
  | (.indefinite, _) => fault (.invalidInfo info)

def content (data : Bytes) (length : UInt64) : Nat → Guarded (Bytes × Nat) :=
  inSlice data (StringContent.readDefinite length)

def inChunk : Guarded α → Guarded α
  | .error (.inr error) => fault (.inChunk error)
  | result => result

def chunk (data : Bytes) (major : Major) (offset : Nat) : Guarded (Bytes × Nat) :=
  match data[offset]? with
  | none => fault .expectedBreak
  | some byte => do
      let behind ← add offset 1
      let head := Head.ofByte byte
      if head.major ≠ major then fault (.unexpectedChunkType head.major.code)
      else match ← inChunk (argument data head.info behind) with
        | (.number length, start) => inChunk (content data length start)
        | (.indefinite, _) => fault .nestedIndefiniteChunk

def string (data : Bytes) (head : Head) (offset : Nat) : Guarded (Bytes × Nat) := do
  match ← argument data head.info offset with
  | (.number length, start) => content data length start
  | (.indefinite, start) =>
      let (chunks, stop) ← untilBreak data (chunk data head.major) (rounds data start) [] start
      .ok (chunks.flatten, stop)

/-! ## Simple values -/

/-- The end of a float is computed before it is known to be in the data. -/
def float (data : Bytes) (width offset : Nat) : Guarded (UInt64 × Nat) := do
  let stop ← add offset width
  if stop ≤ data.length then .ok (Bytes.toUInt64 ((data.drop offset).take width), stop)
  else fault (.incompleteFloat (8 * width))

def simple (data : Bytes) (info offset : Nat) : Guarded (Item × Nat) :=
  match info with
  | 20 => .ok (.bool false, offset)
  | 21 => .ok (.bool true, offset)
  | 22 => .ok (.null, offset)
  | 23 => .ok (.undefined, offset)
  | 25 => do
      let (bits, stop) ← float data 2 offset
      .ok (.single (UInt32.ofNat (FloatFormat.half.widen .single bits.toNat)), stop)
  | 26 => do
      let (bits, stop) ← float data 4 offset
      .ok (.single bits.toUInt32, stop)
  | 27 => do
      let (bits, stop) ← float data 8 offset
      .ok (.double bits, stop)
  | _ => fault (.invalidInfo info)

/-! ## Items -/

/-- The number of elements to make room for: those that are announced, but no more than bytes are
left. -/
def capacity (data : Bytes) (argument : Argument) (offset : Nat) : Guarded Nat := do
  match argument with
  | .number count =>
      let rest ← slice data offset
      .ok (min count.toNat rest.length)
  | .indefinite => .ok 0

def reserve (data : Bytes) (room offset : Nat) : Guarded Unit :=
  if room ≤ data.length - offset then .ok () else breach (.oversized room)

def list (data : Bytes) (element : Nat → Guarded (Item × Nat)) (argument : Argument)
    (offset : Nat) : Guarded (Item × Nat) := do
  let room ← capacity data argument offset
  reserve data room offset
  let (items, stop) ← elements data element argument offset
  .ok (.array items, stop)

def entry (data : Bytes) (value : Nat → Guarded (Item × Nat)) (offset : Nat) :
    Guarded ((Bytes × Item) × Nat) :=
  match data[offset]? with
  | none => fault .unexpectedEnd
  | some byte => do
      let behind ← add offset 1
      let head := Head.ofByte byte
      if head.major ≠ .text then fault (.unexpectedKeyType head.major.code)
      else
        let (key, start) ← string data head behind
        let (value, stop) ← value start
        .ok ((key, value), stop)

def map (data : Bytes) (value : Nat → Guarded (Item × Nat)) (argument : Argument) (offset : Nat) :
    Guarded (Item × Nat) := do
  let (pairs, stop) ← elements data (entry data value) argument offset
  .ok (.map (Entries.ofPairs pairs), stop)

def tag (id : UInt64) (value : Nat → Guarded (Item × Nat)) (offset : Nat) :
    Guarded (Item × Nat) := do
  let (content, stop) ← value offset
  .ok (.tagged id content, stop)

/-- The item at an offset, inside of `depth` levels; `levels` bounds the calls that are open. -/
def value (data : Bytes) (limit : Nat) : (levels depth offset : Nat) → Guarded (Item × Nat)
  | 0, depth, _ => breach (.tooDeep depth)
  | levels + 1, depth, offset =>
      if limit < depth then breach (.tooDeep depth)
      else match data[offset]? with
        | none => fault .unexpectedEnd
        | some byte => do
            let behind ← add offset 1
            let head := Head.ofByte byte
            match head.major with
            | .unsigned =>
                let (number, stop) ← number data head.info behind
                .ok (.unsigned number, stop)
            | .negative =>
                let (number, stop) ← number data head.info behind
                if number.toNat + 1 < UInt64.size then .ok (.negative (number + 1), stop)
                else fault .negativeOverflow
            | .bytes =>
                let (content, stop) ← string data head behind
                .ok (.bytes content, stop)
            | .text =>
                let (content, stop) ← string data head behind
                .ok (.text content, stop)
            | .array =>
                let (argument, start) ← argument data head.info behind
                let depth ← descend limit depth
                list data (value data limit levels depth) argument start
            | .map =>
                let (argument, start) ← argument data head.info behind
                let depth ← descend limit depth
                map data (value data limit levels depth) argument start
            | .tag =>
                let (id, start) ← number data head.info behind
                let depth ← descend limit depth
                tag id (value data limit levels depth) start
            | .simple => simple data head.info behind

def decodeWith (options : Options) (data : Bytes) : Guarded (Item × Nat) :=
  value data options.maxDepth.toNat (options.maxDepth.toNat + 1) 0 0

def all (data : Bytes) (limit : Nat) : (rounds : Nat) → List Item → Nat → Guarded (List Item)
  | 0, _, _ => breach .endless
  | rounds + 1, found, offset =>
      if offset < data.length then do
        let (item, next) ← value data limit (limit + 1) 0 offset
        all data limit rounds (item :: found) next
      else .ok found.reverse

def decodeAllWith (options : Options) (data : Bytes) : Guarded (List Item) :=
  all data options.maxDepth.toNat (rounds data 0) [] 0

end Guarded

end Cbor

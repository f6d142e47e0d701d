import Cbor.Proofs.Readers

/-!
# First faults

What is wrong with bytes that are not an item: an open context, which is the part that is read
before the fault, and behind it bytes that no reading of the slot it leaves open can go on with.
-/

namespace Cbor

/-! ## Faults of one head -/

/-- The bytes behind a first byte with the additional information `info` are no argument. -/
inductive Argument.Fault (info : Nat) (input : Bytes) : DecodeError → Prop
  | reserved (hlower : 28 ≤ info) (hupper : info < 31) : Fault info input (.invalidInfo info)
  | cut {width : Nat} (hwidth : (info, width) ∈ widths) (hcut : input.length < width) :
      Fault info input (.argumentTooShort width)

inductive Head.Fault (major : Major) : Bytes → DecodeError → Prop
  | mk {info : Nat} {rest : Bytes} {error : DecodeError} :
      Argument.Fault info rest error →
      Head.Fault major (Head.toByte ⟨major, info⟩ :: rest) error

inductive ContentFault (major : Major) : Bytes → DecodeError → Prop
  | mk {head rest : Bytes} {length : UInt64} :
      Head.Spells major head (.number length) → rest.length < length.toNat →
      ContentFault major (head ++ rest) (.contentTooShort length.toNat)

inductive Head.OpensLevel : Bytes → Prop
  | array {head : Bytes} {argument : Argument} :
      Head.Spells .array head argument → OpensLevel head
  | map {head : Bytes} {argument : Argument} : Head.Spells .map head argument → OpensLevel head
  | tag {head : Bytes} {tag : UInt64} : Head.Spells .tag head (.number tag) → OpensLevel head

/-! ## Immediate faults -/

def Simple.widths : List (Nat × Nat) := [(25, 2), (26, 4), (27, 8)]

/-- No item begins here, or none that `budget` levels are enough for. -/
inductive ItemFault (limit budget : Nat) : Bytes → DecodeError → Prop
  | ended : ItemFault limit budget [] .unexpectedEnd
  | head {major : Major} {input : Bytes} {error : DecodeError} (hmajor : major ≠ .simple) :
      Head.Fault major input error → ItemFault limit budget input error
  | indefinite {major : Major} {head rest : Bytes}
      (hmajor : major ∈ [Major.unsigned, .negative, .tag]) :
      Head.Spells major head .indefinite →
      ItemFault limit budget (head ++ rest) (.invalidInfo 31)
  | overflow {head rest : Bytes} {number : UInt64} :
      Head.Spells .negative head (.number number) → number.toNat = 2 ^ 64 - 1 →
      ItemFault limit budget (head ++ rest) .negativeOverflow
  | content {major : Major} {input : Bytes} {error : DecodeError}
      (hmajor : major ∈ [Major.bytes, .text]) :
      ContentFault major input error → ItemFault limit budget input error
  | simple {info : Nat} {rest : Bytes} (hinfo : info < 20 ∨ info = 24 ∨ 28 ≤ info ∧ info < 32) :
      ItemFault limit budget (Head.toByte ⟨.simple, info⟩ :: rest) (.invalidInfo info)
  | float {info width : Nat} {rest : Bytes} (hwidth : (info, width) ∈ Simple.widths)
      (hcut : rest.length < width) :
      ItemFault limit budget (Head.toByte ⟨.simple, info⟩ :: rest) (.incompleteFloat (8 * width))
  | depth {head rest : Bytes} (hbudget : budget = 0) :
      Head.OpensLevel head → ItemFault limit budget (head ++ rest) (.depthExceeded limit)

inductive KeyFault : Bytes → DecodeError → Prop
  | ended : KeyFault [] .unexpectedEnd
  | major {major : Major} {info : Nat} {rest : Bytes} (hinfo : info < 32) (hmajor : major ≠ .text) :
      KeyFault (Head.toByte ⟨major, info⟩ :: rest) (.unexpectedKeyType major.code)
  | head {input : Bytes} {error : DecodeError} : Head.Fault .text input error → KeyFault input error
  | content {input : Bytes} {error : DecodeError} :
      ContentFault .text input error → KeyFault input error

inductive ChunkFault (string : Major) : Bytes → DecodeError → Prop
  | major {major : Major} {info : Nat} {rest : Bytes} (hinfo : info < 32)
      (hmajor : major ≠ string) :
      ChunkFault string (Head.toByte ⟨major, info⟩ :: rest) (.unexpectedChunkType major.code)
  | head {input : Bytes} {error : DecodeError} :
      Head.Fault string input error → ChunkFault string input (.inChunk error)
  | indefinite {head rest : Bytes} :
      Head.Spells string head .indefinite →
      ChunkFault string (head ++ rest) .nestedIndefiniteChunk
  | content {input : Bytes} {error : DecodeError} :
      ContentFault string input error → ChunkFault string input (.inChunk error)

/-! ## Open contexts -/

/-- What may stand next; if `closable`, also the break byte. -/
inductive Slot where
  | item (closable : Bool)
  | key (closable : Bool)
  | chunk (string : Major)
  deriving DecidableEq, Repr

/-- A fault that shows where the slot begins. -/
def ImmediateFault (limit budget : Nat) : Slot → Bytes → DecodeError → Prop
  | .item closable => SlotFault (ItemFault limit budget) closable
  | .key closable => SlotFault KeyFault closable
  | .chunk string => SlotFault (ChunkFault string) true

/-- An open array, map or tag with the complete items in it, and the slot behind them. -/
inductive Level (budget : Nat) : Bytes → Slot → Prop
  | array {head body : Bytes} {argument : Argument} {items : List Item} :
      Head.Spells .array head argument → EncodesItems budget body items →
      argument.Allows items.length → Level budget (head ++ body) (.item argument.isIndefinite)
  | key {head body : Bytes} {argument : Argument} {pairs : List (Bytes × Item)} :
      Head.Spells .map head argument → EncodesPairs budget body pairs →
      argument.Allows pairs.length → Level budget (head ++ body) (.key argument.isIndefinite)
  | value {head body word key : Bytes} {argument : Argument} {pairs : List (Bytes × Item)} :
      Head.Spells .map head argument → EncodesPairs budget body pairs →
      argument.Allows pairs.length → EncodesString .text word key →
      Level budget (head ++ (body ++ word)) (.item false)
  | tag {head : Bytes} {tag : UInt64} :
      Head.Spells .tag head (.number tag) → Level budget head (.item false)

/-- Open levels one inside the other, and at the end perhaps an open string, from slot to slot. -/
inductive OpenContext : (budget levels : Nat) → Slot → Bytes → Slot → Prop
  | here {budget : Nat} {slot : Slot} : OpenContext budget 0 slot [] slot
  | level {budget levels : Nat} {closable : Bool} {slot last : Slot} {outer inner : Bytes} :
      Level budget outer slot → OpenContext budget levels slot inner last →
      OpenContext (budget + 1) (levels + 1) (.item closable) (outer ++ inner) last
  | string {budget : Nat} {closable : Bool} {major : Major} {head body : Bytes}
      {chunks : List Bytes} (hmajor : major ∈ [Major.bytes, .text]) :
      Head.Spells major head .indefinite → Row (EncodesChunk major) body chunks →
      OpenContext budget 0 (.item closable) (head ++ body) (.chunk major)
  | keyString {budget : Nat} {closable : Bool} {head body : Bytes} {chunks : List Bytes} :
      Head.Spells .text head .indefinite → Row (EncodesChunk .text) body chunks →
      OpenContext budget 0 (.key closable) (head ++ body) (.chunk .text)

inductive FirstFault (limit budget : Nat) (slot : Slot) : Bytes → DecodeError → Prop
  | mk {levels : Nat} {context rest : Bytes} {last : Slot} {error : DecodeError} :
      OpenContext budget levels slot context last →
      ImmediateFault limit (budget - levels) last rest error →
      FirstFault limit budget slot (context ++ rest) error

end Cbor

import Cbor.Wire.Cursor

/-!
# Item heads

Every item starts with a byte that names its major type (three bits) and additional information
(five bits).  The information is a small number itself, or announces a number of one, two, four
or eight bytes, or marks an indefinite length.
-/

namespace Cbor

inductive Major where
  | unsigned
  | negative
  | bytes
  | text
  | array
  | map
  | tag
  | simple
  deriving DecidableEq, Repr

namespace Major

def code : Major → Nat
  | .unsigned => 0
  | .negative => 1
  | .bytes => 2
  | .text => 3
  | .array => 4
  | .map => 5
  | .tag => 6
  | .simple => 7

def ofCode : Nat → Major
  | 0 => .unsigned
  | 1 => .negative
  | 2 => .bytes
  | 3 => .text
  | 4 => .array
  | 5 => .map
  | 6 => .tag
  | _ => .simple

@[simp] theorem ofCode_code (major : Major) : ofCode major.code = major := by
  cases major <;> rfl

end Major

structure Head where
  major : Major
  info : Nat
  deriving DecidableEq, Repr

namespace Head

def ofByte (byte : UInt8) : Head := ⟨.ofCode (byte.toNat / 32), byte.toNat % 32⟩

theorem info_lt (byte : UInt8) : (ofByte byte).info < 32 := Nat.mod_lt _ (by decide)

end Head

inductive Argument where
  | number (value : UInt64)
  | indefinite
  deriving DecidableEq, Repr

namespace Argument

def readWide (width : Nat) : Reader Argument := fun cursor =>
  match cursor.take? width with
  | some (digits, cursor) => .ok (.number (Bytes.toUInt64 digits), cursor)
  | none => .error (.argumentTooShort width)

def read (info : Nat) : Reader Argument := fun cursor =>
  if info < 24 then .ok (.number (UInt64.ofNat info), cursor)
  else match info with
    | 24 => readWide 1 cursor
    | 25 => readWide 2 cursor
    | 26 => readWide 4 cursor
    | 27 => readWide 8 cursor
    | 31 => .ok (.indefinite, cursor)
    | _ => .error (.invalidInfo info)

def readNumber (info : Nat) : Reader UInt64 := fun cursor => do
  match ← read info cursor with
  | (.number value, cursor) => .ok (value, cursor)
  | (.indefinite, _) => .error (.invalidInfo info)

end Argument

end Cbor

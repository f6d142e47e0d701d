import Cbor.Conformance.Record
import Cbor.Proofs.Hexadecimal
import Cbor.Proofs.Parts
import Cbor.Proofs.Progress

/-!
# Checked forms

A negative integer is recorded as its magnitude less one, which is below zero for the magnitude
zero.  No decoded item has that magnitude in it.  So records are verified without the subtraction
ever going wrong, whatever they say, and an answer is given for all of them.
-/

namespace Cbor

/-! ## Magnitudes -/

/-- The magnitude of the item, if it is a negative integer, is neither zero nor too large. -/
def Item.InRange : Item → Prop
  | .negative magnitude => 1 ≤ magnitude.toNat ∧ magnitude.toNat ≤ 2 ^ 64 - 1
  | _ => True

theorem EncodesLeaf.inRange {word : Bytes} {item : Item} (h : EncodesLeaf word item) :
    item.InRange := by
  cases h with
  | @negative head number _ hnumber =>
      have hmagnitude : (number + 1).toNat = number.toNat + 1 := by
        rw [UInt64.toNat_add, UInt64.toNat_one]
        exact Nat.mod_eq_of_lt (by omega)
      rw [Item.InRange, hmagnitude]
      omega
  | unsigned | bytes | text | no | yes | null | undefined | half | single | double => trivial

theorem inRange_of_decodeWith {options : Options} {data : Bytes} {item : Item} {length : Nat}
    (h : decodeWith options data = .ok (item, length)) : item.Throughout Item.InRange := by
  obtain ⟨word, rest, -, hword, -⟩ := (decodeWith_eq_ok_iff_append ..).mp h
  exact hword.throughout (fun hleaf => hleaf.inRange) (fun _ => trivial) (fun _ => trivial)
    (fun _ _ => trivial)

/-! ## Forms that are checked -/

namespace Expectation

mutual

/-- The recorded form of an item, unless one would have to be taken from the magnitude zero, be it
in a value that a later key replaces. -/
def checked : Item → Option Expectation
  | .unsigned number => some (.unsigned number)
  | .negative magnitude => if magnitude = 0 then none else some (.negative (magnitude - 1))
  | .bytes content => some (.bytes content)
  | .text content => some (.text (Utf8.lossy content))
  | .array items => (checkedItems items).map .array
  | .map entries => (checkedEntries entries).map fun pairs => .map (Entries.ofPairs pairs)
  | .tagged tag content => (checked content).map (.tagged tag)
  | .bool truth => some (.bool truth)
  | .null => some .null
  | .undefined => some .undefined
  | .single bits => some (.single bits)
  | .double bits => some (.double bits)

def checkedItems : List Item → Option (List Expectation)
  | [] => some []
  | item :: items => do return (← checked item) :: (← checkedItems items)

def checkedEntries : List (Bytes × Item) → Option (List (Text × Expectation))
  | [] => some []
  | (key, value) :: entries => do
      return (Utf8.lossy key, ← checked value) :: (← checkedEntries entries)

end

theorem checkedItems_eq {items : List Item}
    (h : ∀ item ∈ items, checked item = some (ofItem item)) :
    checkedItems items = some (ofItems items) := by
  induction items with
  | nil => rfl
  | cons item items ih =>
      obtain ⟨hitem, hitems⟩ := List.forall_mem_cons.mp h
      rw [checkedItems, hitem, ih hitems]
      rfl

theorem checkedEntries_eq {entries : List (Bytes × Item)}
    (h : ∀ entry ∈ entries, checked entry.2 = some (ofItem entry.2)) :
    checkedEntries entries = some (ofEntries entries) := by
  induction entries with
  | nil => rfl
  | cons entry entries ih =>
      obtain ⟨hentry, hentries⟩ := List.forall_mem_cons.mp h
      rw [checkedEntries, hentry, ih hentries]
      rfl

theorem checked_eq {item : Item} (h : item.Throughout Item.InRange) :
    checked item = some (ofItem item) := by
  induction h with
  | @mk item hhere _ ih =>
      cases item with
      | negative magnitude =>
          have hne : magnitude ≠ 0 := by
            rintro rfl
            exact absurd hhere.1 (by decide)
          rw [checked, if_neg hne, ofItem]
      | array items =>
          have hitems : checkedItems items = some (ofItems items) := checkedItems_eq ih
          rw [checked, hitems, ofItem, Option.map_some]
      | map entries =>
          have hentries : checkedEntries entries = some (ofEntries entries) :=
            checkedEntries_eq (List.forall_mem_map.mp ih)
          rw [checked, hentries, ofItem, Option.map_some]
      | tagged tag content =>
          rw [checked, List.forall_mem_singleton.mp ih, ofItem, Option.map_some]
      | unsigned | bytes | text | bool | null | undefined | single | double => rfl

end Expectation

/-! ## Verifications that are guarded -/

namespace Record

inductive Halt where
  | decoding (found : Breach)
  | underflow
  deriving DecidableEq, Repr

def guardedVerify (run : Bytes → Guarded (Item × Nat)) (record : Record) :
    Except Halt (Except Mismatch Unit) :=
  match Hex.decode record.input with
  | .error error => .ok (.error (.invalidInput error))
  | .ok data =>
      match run data, record with
      | .error (.inl found), _ => .error (.decoding found)
      | .error (.inr error), .success _ _ _ => .ok (.error (.decode error))
      | .error (.inr _), .failure _ _ => .ok (.ok ())
      | .ok (item, _), .failure _ _ => .ok (.error (.unexpectedSuccess item))
      | .ok (item, consumed), .success _ _ expect =>
          if consumed ≠ data.length then .ok (.error (.incomplete consumed data.length))
          else match Expectation.checked item with
            | none => .error .underflow
            | some actual =>
                .ok (if actual = expect then .ok () else .error (.wrongValue expect actual))

theorem guardedVerify_eq {run : Bytes → Guarded (Item × Nat)} {record : Record}
    (hrun : ∀ data, Hex.decode record.input = .ok data → run data = Guarded.lift (decode data)) :
    record.guardedVerify run = .ok record.verify := by
  rw [guardedVerify, verify, decoding]
  cases hinput : Hex.decode record.input with
  | error error => rfl
  | ok data =>
      simp only [hrun data hinput, ok_bind]
      cases hdecode : decode data with
      | error error => cases record <;> rfl
      | ok found =>
          obtain ⟨item, consumed⟩ := found
          cases record with
          | failure description input => rfl
          | success description input expect =>
              have hchecked := Expectation.checked_eq (inRange_of_decodeWith hdecode)
              simp only [Guarded.lift, Except.mapError, verifyExpected, hchecked]
              split <;> rfl

theorem length_lt_of_decode_input {record : Record} {data : Bytes}
    (hinput : (Utf8.encode record.input).length < 2 ^ 63)
    (h : Hex.decode record.input = .ok data) : data.length < 2 ^ 63 := by
  have hlength := (Hex.decode_eq_ok_iff.mp h).length_utf8Encode
  omega

/--
The magnitudes of all negative integers in a decoded item, however deep, are in range, so that none
of them is zero when its form is taken.  So every record gets an answer: its verification never
comes to a magnitude zero, and if its input is shorter than `2 ^ 63` bytes the decoder has no
breach either.
-/
theorem guardedVerify_eq_verify :
    (∀ options data item length, decodeWith options data = .ok (item, length) →
      item.Throughout Item.InRange ∧ Expectation.checked item = some (.ofItem item)) ∧
    (∀ record : Record,
      record.guardedVerify (fun data => Guarded.lift (decode data)) = .ok record.verify) ∧
    ∀ record : Record, (Utf8.encode record.input).length < 2 ^ 63 →
      record.guardedVerify (Guarded.decodeWith {}) = .ok record.verify := by
  refine ⟨fun options data item length h => ?_, fun record => ?_, fun record hinput => ?_⟩
  · have hrange := inRange_of_decodeWith h
    exact ⟨hrange, Expectation.checked_eq hrange⟩
  · exact guardedVerify_eq fun _ _ => rfl
  · refine guardedVerify_eq fun data hdata => ?_
    exact Guarded.decodeWith_eq (length_lt_of_decode_input hinput hdata) {}

/-- The largest argument but one inside a map, and a record with an input that ends at the largest,
which is refused. -/
theorem guardedVerify_eq_verify_largest :
    let head : Bytes := [0x3B, 0xFF, 0xFF, 0xFF, 0xFF, 0xFF, 0xFF, 0xFF]
    let item : Item := .map [([], .tagged 1 (.negative 0xFFFFFFFFFFFFFFFF))]
    let record : Record := .success [] "3bffffffffffffffff".toList (.negative 0)
    decodeWith {} ([0xA1, 0x60, 0xC1] ++ head ++ [0xFE]) = .ok (item, 12) ∧
      item.Throughout Item.InRange ∧
      Expectation.checked item = some (.map [([], .tagged 1 (.negative 0xFFFFFFFFFFFFFFFE))]) ∧
      Expectation.checked (.array [.negative 0]) = none ∧
      record.guardedVerify (Guarded.decodeWith {}) = .ok (.error (.decode .negativeOverflow)) := by
  intro head item record
  have hdecode : decodeWith {} ([0xA1, 0x60, 0xC1] ++ head ++ [0xFE]) = .ok (item, 12) := by decide
  obtain ⟨hrange, hchecked⟩ := guardedVerify_eq_verify.1 _ _ _ _ hdecode
  have hverify : record.verify = .error (.decode .negativeOverflow) := by decide
  have hguarded := guardedVerify_eq_verify.2.2 record (by decide)
  rw [hverify] at hguarded
  exact ⟨hdecode, hrange, hchecked, rfl, hguarded⟩

end Record

end Cbor

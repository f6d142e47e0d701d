import Cbor.Proofs.Hexadecimal
import Cbor.Proofs.ReadValues
import Cbor.Proofs.RecordReading
import Cbor.Proofs.Separation

/-!
# Verified records

What a record says that holds, and which record the members of an object are read as.  A record
with the form of an item holds if the input decodes to that very item, provided that its text is
plain.  An object whose expectation cannot be read is taken for a record that has to fail.
-/

namespace Cbor

namespace Record

/-! ## Records that hold -/

section

variable {description input : Text} {expect : Expectation}

theorem verify_success_iff :
    (success description input expect).verify = .ok () ↔
      ∃ data item, Hex.decode input = .ok data ∧ decode data = .ok (item, data.length) ∧
        .ofItem item = expect := by
  cases hdata : Hex.decode input with
  | error error => simp [verify, decoding, Record.input, hdata]
  | ok data =>
      cases hitem : decode data with
      | error error => simp [verify, decoding, Record.input, hdata, hitem, verifyExpected]
      | ok found =>
          obtain ⟨item, length⟩ := found
          simp only [verify, decoding, Record.input, hdata, ok_bind, hitem, verifyExpected]
          grind

theorem verify_failure_iff :
    (failure description input).verify = .ok () ↔
      ∃ data error, Hex.decode input = .ok data ∧ decode data = .error error := by
  cases hdata : Hex.decode input with
  | error error => simp [verify, decoding, Record.input, hdata]
  | ok data =>
      cases hitem : decode data with
      | error error => simp [verify, decoding, Record.input, hdata, hitem, verifyFailure]
      | ok found => simp [verify, decoding, Record.input, hdata, hitem, verifyFailure]

end

/--
The record of an item whose text is plain holds exactly if the data decodes, to its last byte, to
an item that is the same.  The maps of the item are in order, as those of every decoded item are; of
the item that the data decodes to nothing is assumed.
-/
theorem verify_decodesTo_iff (description : Text) (data : Bytes) {item : Item}
    (hlegible : item.Throughout Item.Legible) (hordered : item.Throughout Item.KeysAscend) :
    (decodesTo description data item).verify = .ok () ↔
      ∃ other, decode data = .ok (other, data.length) ∧ other.same item = true := by
  rw [decodesTo, verify_success_iff]
  constructor
  · rintro ⟨found, other, hfound, hdecode, hform⟩
    rw [Hex.decode_encode, Except.ok.injEq] at hfound
    subst hfound
    have hseparates := Expectation.separates_of_legible hlegible hordered
    have hsame : other = item := hseparates other (keysAscend_of_decodeWith hdecode) hform
    exact ⟨other, hdecode, (Item.same_iff ..).mpr hsame⟩
  · rintro ⟨other, hdecode, hsame⟩
    rw [Item.same_iff] at hsame
    subst hsame
    exact ⟨data, other, Hex.decode_encode data, hdecode, rfl⟩

/-- A map with a tagged array and a float that is no number: its data decodes to it, so that the
record of both holds. -/
theorem verify_decodesTo_iff_map :
    let item := Item.map
      [([0x61], .tagged 1 (.array [.text [0xC3, 0xA9], .negative 1])), ([0x62], .single 0x7FC00001)]
    let data : Bytes :=
      [0xA2, 0x61, 0x61, 0xC1, 0x82, 0x62, 0xC3, 0xA9, 0x20, 0x61, 0x62, 0xFA, 0x7F, 0xC0, 0, 1]
    item.Throughout Item.Legible ∧ item.Throughout Item.KeysAscend ∧
      ((decodesTo [] data item).verify = .ok () ↔
        ∃ other, decode data = .ok (other, data.length) ∧ other.same item = true) ∧
      (decodesTo [] data item).verify = .ok () := by
  intro item data
  have hplain : ∀ bytes ∈ ([[0x61], [0x62], [0xC3, 0xA9]] : List Bytes), Utf8.IsPlain bytes := by
    simp only [Utf8.isPlain_iff]
    decide
  have hlegible : item.Throughout Item.Legible := by
    have hitems : ∀ child ∈ [Item.text [0xC3, 0xA9], .negative 1],
        child.Throughout Item.Legible := by
      rw [List.forall_mem_cons, List.forall_mem_singleton]
      exact ⟨.leaf rfl (hplain _ (by decide)), .leaf rfl (Nat.le_refl 1)⟩
    have hkeys : item.Legible := by
      rw [Item.Legible, List.forall_mem_cons, List.forall_mem_singleton]
      exact ⟨hplain _ (by decide), hplain _ (by decide)⟩
    refine .mk hkeys (List.forall_mem_cons.mpr ⟨.mk trivial ?_, ?_⟩)
    · exact List.forall_mem_singleton.mpr (.mk trivial hitems)
    · exact List.forall_mem_singleton.mpr (.leaf rfl trivial)
  have hdecode : decode data = .ok (item, data.length) := by decide
  have hordered : item.Throughout Item.KeysAscend := keysAscend_of_decodeWith hdecode
  have hverify := verify_decodesTo_iff [] data hlegible hordered
  exact ⟨hlegible, hordered, hverify, hverify.mpr ⟨item, hdecode, (Item.same_iff ..).mpr rfl⟩⟩

end Record

/-! ## Records from objects -/

namespace Record

/-- The expectation that the members of an object state, if they have one that can be read. -/
def statedExpectation? (members : List (Text × Json)) : Option Expectation := do
  Expectation.ofJson? (← Json.member? members "expect".toList)

variable {members : List (Text × Json)} {record : Record}

theorem successOfJson?_object_iff :
    successOfJson? (.object members) = some record ↔
      ∃ description input expect,
        Json.member? members "description".toList = some (.string description) ∧
        Json.member? members "input".toList = some (.string input) ∧
        statedExpectation? members = some expect ∧
        record = .success description input expect := by
  constructor
  · intro h
    obtain ⟨values, hvalues, h⟩ := Option.bind_eq_some_iff.mp h
    rcases Json.fields?_object_iff.mp hvalues with
      _ | ⟨hdescription, _ | ⟨hinput, _ | ⟨hexpect, ⟨⟩⟩⟩⟩
    simp only [Option.bind_eq_bind, Option.bind_eq_some_iff, Json.toText?_eq_some_iff] at h
    obtain ⟨description, rfl, input, rfl, expect, hread, hrecord⟩ := h
    refine ⟨description, input, expect, hdescription, hinput, ?_, (Option.some.inj hrecord).symm⟩
    exact Option.bind_eq_some_iff.mpr ⟨_, hexpect, hread⟩
  · rintro ⟨description, input, expect, hdescription, hinput, hstated, rfl⟩
    obtain ⟨value, hexpect, hread⟩ := Option.bind_eq_some_iff.mp hstated
    have hfields := Json.fields?_object_iff.mpr
      (.cons hdescription (.cons hinput (.cons hexpect .nil)))
    rw [successOfJson?, hfields]
    simp [Json.toText?, hread]

theorem failureOfJson?_object_iff :
    failureOfJson? (.object members) = some record ↔
      ∃ description input,
        Json.member? members "description".toList = some (.string description) ∧
        Json.member? members "input".toList = some (.string input) ∧
        record = .failure description input := by
  constructor
  · intro h
    obtain ⟨values, hvalues, h⟩ := Option.bind_eq_some_iff.mp h
    rcases Json.fields?_object_iff.mp hvalues with _ | ⟨hdescription, _ | ⟨hinput, ⟨⟩⟩⟩
    simp only [Option.bind_eq_bind, Option.bind_eq_some_iff, Json.toText?_eq_some_iff] at h
    obtain ⟨description, rfl, input, rfl, hrecord⟩ := h
    exact ⟨description, input, hdescription, hinput, (Option.some.inj hrecord).symm⟩
  · rintro ⟨description, input, hdescription, hinput, rfl⟩
    have hfields := Json.fields?_object_iff.mpr (.cons hdescription (.cons hinput .nil))
    rw [failureOfJson?, hfields]
    rfl

theorem ofJson?_object_iff :
    ofJson? (.object members) = some record ↔
      ∃ description input,
        Json.member? members "description".toList = some (.string description) ∧
        Json.member? members "input".toList = some (.string input) ∧
        record = match statedExpectation? members with
          | some expect => .success description input expect
          | none => .failure description input := by
  rw [ofJson?, Option.or_eq_some_iff]
  constructor
  · rintro (h | ⟨hnone, h⟩)
    · obtain ⟨description, input, expect, hdescription, hinput, hstated, rfl⟩ :=
        successOfJson?_object_iff.mp h
      exact ⟨description, input, hdescription, hinput, by rw [hstated]⟩
    · obtain ⟨description, input, hdescription, hinput, rfl⟩ := failureOfJson?_object_iff.mp h
      refine ⟨description, input, hdescription, hinput, ?_⟩
      cases hstated : statedExpectation? members with
      | none => rfl
      | some expect =>
          have hsuccess := successOfJson?_object_iff.mpr
            ⟨description, input, expect, hdescription, hinput, hstated, rfl⟩
          rw [hnone] at hsuccess
          contradiction
  · rintro ⟨description, input, hdescription, hinput, rfl⟩
    cases hstated : statedExpectation? members with
    | some expect =>
        exact .inl (successOfJson?_object_iff.mpr
          ⟨description, input, expect, hdescription, hinput, hstated, rfl⟩)
    | none =>
        refine .inr ⟨Option.eq_none_iff_forall_ne_some.mpr fun record hrecord => ?_,
          failureOfJson?_object_iff.mpr ⟨description, input, hdescription, hinput, rfl⟩⟩
        obtain ⟨_, _, _, -, -, hsome, -⟩ := successOfJson?_object_iff.mp hrecord
        rw [hstated] at hsome
        contradiction

theorem parse_eq_ok_iff {text : Text} :
    parse text = .ok record ↔
      ∃ json, Json.whole (Json.read Json.nestingLimit) text = .ok json ∧
        ofJson? json = some record := by
  rw [parse, Json.whole, Json.whole, read]
  cases Json.read Json.nestingLimit text with
  | error fault => simp [error_bind]
  | ok found =>
      obtain ⟨json, rest⟩ := found
      simp only [ok_bind]
      by_cases hblank : Json.afterBlanks rest = [] <;>
        cases hrecord : ofJson? json <;> simp [hblank, hrecord, ok_bind, error_bind]

/--
A record that is read from an object with a readable expectation holds exactly if its input
decodes, to the last byte, to an item with that form; any other holds exactly if its input is
data that does not decode.
-/
theorem verify_iff_of_parse_object {text : Text}
    (hread : Json.whole (Json.read Json.nestingLimit) text = .ok (.object members))
    (hparse : parse text = .ok record) :
    Json.member? members "input".toList = some (.string record.input) ∧
    (∀ expect, statedExpectation? members = some expect →
      (record.verify = .ok () ↔
        ∃ data item, Hex.decode record.input = .ok data ∧
          decode data = .ok (item, data.length) ∧ .ofItem item = expect)) ∧
    (statedExpectation? members = none →
      (record.verify = .ok () ↔
        ∃ data error, Hex.decode record.input = .ok data ∧ decode data = .error error)) := by
  obtain ⟨json, hjson, hrecord⟩ := parse_eq_ok_iff.mp hparse
  rw [hread, Except.ok.injEq] at hjson
  subst hjson
  obtain ⟨description, input, -, hinput, rfl⟩ := ofJson?_object_iff.mp hrecord
  cases hstated : statedExpectation? members with
  | none =>
      refine ⟨hinput, fun expect h => ?_, fun _ => verify_failure_iff⟩
      contradiction
  | some expect =>
      refine ⟨hinput, fun expect' h => ?_, fun h => ?_⟩
      · cases h
        exact verify_success_iff
      · contradiction

def statement (input : String) (expect : Json) : List (Text × Json) :=
  [("description".toList, .string []), ("input".toList, .string input.toList),
    ("expect".toList, expect)]

/-- An object that expects the integer which its input decodes to: the record holds. -/
theorem verify_iff_of_parse_object_unsigned :
    let members := statement "01" (.object [("uint".toList, .integer 1)])
    let record := success [] "01".toList (.unsigned 1)
    Json.whole (Json.read Json.nestingLimit) (Json.object members).compact =
        .ok (.object members) ∧
      parse (Json.object members).compact = .ok record ∧
      (record.verify = .ok () ↔
        ∃ data item, Hex.decode record.input = .ok data ∧
          decode data = .ok (item, data.length) ∧ Expectation.ofItem item = .unsigned 1) ∧
      record.verify = .ok () := by
  intro members record
  have hread : Json.whole (Json.read Json.nestingLimit) (Json.object members).compact =
      .ok (.object members) := rfl
  have hparse : parse (Json.object members).compact = .ok record := by decide
  have hinput : Hex.decode record.input = .ok [0x01] := by decide
  have hdecode : decode [0x01] = .ok (.unsigned 1, 1) := by decide
  obtain ⟨-, hstated, -⟩ := verify_iff_of_parse_object hread hparse
  have hverify := hstated (.unsigned 1) rfl
  exact ⟨hread, hparse, hverify, hverify.mpr ⟨[0x01], _, hinput, hdecode, rfl⟩⟩

/-- The expectation of a negative number for `uint` cannot be read.  The record is taken for one
that has to fail, and holds because its input does not decode. -/
theorem unreadable_expectation_ignored :
    let expect := Json.object [("uint".toList, .integer (-1))]
    let members := statement "18" expect
    Json.whole (Json.read Json.nestingLimit) (Json.object members).compact =
        .ok (.object members) ∧
      Json.member? members "expect".toList = some expect ∧
      Expectation.ofJson? expect = none ∧
      parse (Json.object members).compact = .ok (failure [] "18".toList) ∧
      (failure [] "18".toList).verify = .ok () ∧
      ¬∃ data item, Hex.decode "18".toList = .ok data ∧ decode data = .ok (item, data.length) := by
  have hdata : Hex.decode "18".toList = .ok [0x18] := by decide
  have hdecode : decode [0x18] = .error (.argumentTooShort 1) := by decide
  refine ⟨rfl, rfl, rfl, by decide, by decide, ?_⟩
  rintro ⟨data, item, hfound, hitem⟩
  rw [hdata, Except.ok.injEq] at hfound
  rw [← hfound, hdecode] at hitem
  contradiction

end Record

end Cbor

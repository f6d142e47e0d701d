import Cbor.Cli.FixtureSet
import Cbor.Proofs.Hexadecimal
import Cbor.Proofs.Nesting
import Cbor.Proofs.OrderedValues

/-!
# Fixtures of decoded data

The record of data that decodes holds, and the file written for it is read back as long as its
text nests no deeper than the reader of JSON allows: the item two levels for each of its own, the
list of records and the record one each.  So every file of the suite is read back.
-/

namespace Cbor

/-! ## Records of decoded data -/

namespace Record

variable {description : Text} {data : Bytes} {item : Item}

theorem within_decodesTo (description : Text) (data : Bytes) (item : Item) :
    (decodesTo description data item).Within (2 * item.nesting + 3) :=
  within_success _ _ (Expectation.within_ofItem item)

theorem verify_decodesTo (h : decode data = .ok (item, data.length)) :
    (decodesTo description data item).verify = .ok () := by
  simp [verify, decoding, decodesTo, input, Hex.decode_encode, h, verifyExpected]

theorem depth_listToJson_decodesTo (description : Text) (data : Bytes) (item : Item) :
    (listToJson [decodesTo description data item]).depth =
      (Expectation.ofItem item).toJson.depth + 2 := by
  simp [listToJson, decodesTo, toJson, Json.depth, Json.elementsDepth, Json.membersDepth]

/--
The record of data that decodes holds.  The file of fixtures that is written for it is read back
as that record if the text opens no more than 127 lists and objects at once, as it does for all
items of up to 61 levels; the file is refused as malformed if its text opens more.
-/
theorem decodesTo_reads_back (description : Text) (data : Bytes) (item : Item)
    (h : decode data = .ok (item, data.length)) :
    (decodesTo description data item).verify = .ok () ∧
    (∀ name, parseList (FixtureSet.Fixture.content ⟨name, [decodesTo description data item]⟩) =
      if (listToJson [decodesTo description data item]).depth ≤ 127 then
        .ok [decodesTo description data item]
      else .error .malformed) ∧
    (item.nesting ≤ 61 → (listToJson [decodesTo description data item]).depth ≤ 127) := by
  refine ⟨verify_decodesTo h, fun name => ?_, fun hnesting => ?_⟩
  · apply parseList_pretty
    simpa using (within_decodesTo description data item).ordered
  · have hdepth := depth_listToJson_le
      (List.forall_mem_singleton.mpr (within_decodesTo description data item))
    omega

/-- The file for an array of one item is read back. -/
theorem decodesTo_reads_back_array :
    (decodesTo [] [0x81, 0xF6] (.array [.null])).verify = .ok () ∧
      parseList (FixtureSet.Fixture.content ⟨[], [decodesTo [] [0x81, 0xF6] (.array [.null])]⟩) =
        .ok [decodesTo [] [0x81, 0xF6] (.array [.null])] := by
  obtain ⟨hverify, hread, hdepth⟩ :=
    decodesTo_reads_back [] [0x81, 0xF6] (.array [.null]) (by decide)
  refine ⟨hverify, ?_⟩
  rw [hread, if_pos (hdepth (by decide))]

end Record

/-! ## The suite -/

namespace FixtureSet

variable {fixture : Fixture} {record : Record}

theorem flatMap_successFixtures :
    successFixtures.flatMap Fixture.records = successCases.map Suite.Success.record := by
  simp [successFixtures, successCases, List.flatMap_map, List.map_flatMap]

theorem flatMap_failureFixtures :
    failureFixtures.flatMap Fixture.records = failureCases.map Suite.Failure.record := by
  simp [failureFixtures, failureCases, List.flatMap_map, List.map_flatMap]

theorem exists_case_of_mem_fixtures (h : fixture ∈ fixtures) (hrecord : record ∈ fixture.records) :
    (∃ case ∈ successCases, case.record = record) ∨
      ∃ case ∈ failureCases, case.record = record := by
  rw [← List.mem_map, ← List.mem_map, ← flatMap_successFixtures, ← flatMap_failureFixtures]
  simp only [fixtures, List.mem_append, List.mem_singleton] at h
  obtain ((h | rfl) | h) | rfl := h
  · exact .inl (List.mem_flatMap.mpr ⟨fixture, h, hrecord⟩)
  · exact .inl hrecord
  · exact .inr (List.mem_flatMap.mpr ⟨fixture, h, hrecord⟩)
  · exact .inr hrecord

theorem nesting_le_of_mem_successCases : ∀ case ∈ successCases, case.expect.nesting ≤ 1 := by
  decide +kernel

theorem within_of_mem_fixtures (h : fixture ∈ fixtures) (hrecord : record ∈ fixture.records) :
    record.Within 5 := by
  obtain ⟨case, hcase, rfl⟩ | ⟨case, -, rfl⟩ := exists_case_of_mem_fixtures h hrecord
  · have hnesting := nesting_le_of_mem_successCases case hcase
    exact (Record.within_decodesTo ..).mono (by omega)
  · exact (Record.within_failure ..).mono (by decide)

/-- Every file of the suite is read back as the records that it is written for. -/
theorem parseList_content (h : fixture ∈ fixtures) :
    Record.parseList fixture.content = .ok fixture.records := by
  have hwithin : ∀ record ∈ fixture.records, record.Within 5 :=
    fun record hrecord => within_of_mem_fixtures h hrecord
  have hdepth := Record.depth_listToJson_le hwithin
  have hread := Record.parseList_pretty fun record hrecord => (hwithin record hrecord).ordered
  rw [if_pos (Nat.le_trans hdepth (by decide))] at hread
  exact hread

end FixtureSet

/-! ## Nested arrays -/

def nestedArrays : (count : Nat) → Item
  | 0 => .unsigned 0
  | count + 1 => .array [nestedArrays count]

namespace nestedArrays

def data (count : Nat) : Bytes := List.replicate count 0x81 ++ [0x00]

theorem encodes (count : Nat) : Encodes count (data count) (nestedArrays count) := by
  induction count with
  | zero => exact .leaf (.unsigned (.mk (@Argument.Spells.small 0 (by decide))))
  | succ count ih =>
      have hhead : Head.Spells .array [0x81] (.number 1) :=
        .mk (@Argument.Spells.small 1 (by decide))
      have hitems : EncodesItems count (data count) [nestedArrays count] := by
        simpa using EncodesItems.cons ih .nil
      have hsplit : data (count + 1) = [0x81] ++ data count := rfl
      rw [hsplit]
      exact .array hhead hitems rfl

theorem decode_data {count : Nat} (h : count ≤ 128) :
    decode (data count) = .ok (nestedArrays count, (data count).length) := by
  refine (decodeWith_eq_ok_iff_append ..).mpr ⟨data count, [], ?_, (encodes count).mono h, rfl⟩
  rw [List.append_nil]

theorem nesting_eq (count : Nat) : (nestedArrays count).nesting = count := by
  induction count with
  | zero => rfl
  | succ count ih => simp [nestedArrays, Item.nesting, Item.itemsNesting, ih]

theorem depth_eq (count : Nat) :
    (Expectation.ofItem (nestedArrays count)).toJson.depth = 2 * count + 1 := by
  induction count with
  | zero => rfl
  | succ count ih =>
      simp only [nestedArrays, Expectation.ofItem, Expectation.ofItems, Expectation.toJson,
        Expectation.itemsToJson, Expectation.depth_kindJson, Json.depth, Json.elementsDepth, ih]
      omega

end nestedArrays

namespace Record

/-- The integer is one level of the text, the list of records and the record are two. -/
theorem parseList_nestedArrays (count : Nat) :
    parseList (FixtureSet.Fixture.content
        ⟨[], [decodesTo [] (nestedArrays.data count) (nestedArrays count)]⟩) =
      if count ≤ 62 then .ok [decodesTo [] (nestedArrays.data count) (nestedArrays count)]
      else .error .malformed := by
  have hread := parseList_pretty (List.forall_mem_singleton.mpr
    (within_decodesTo [] (nestedArrays.data count) (nestedArrays count)).ordered)
  have hdepth : 2 * count + 1 + 2 ≤ Json.nestingLimit ↔ count ≤ 62 := by
    rw [Json.nestingLimit]
    omega
  rw [depth_listToJson_decodesTo, nestedArrays.depth_eq] at hread
  simp only [hdepth] at hread
  exact hread

/-- The decoder allows 128 levels by default, but the file for 63 of them cannot be read. -/
theorem nestedArrays_not_read_back :
    decode (nestedArrays.data 63) = .ok (nestedArrays 63, (nestedArrays.data 63).length) ∧
      (nestedArrays 63).nesting = 63 ∧
      parseList (FixtureSet.Fixture.content
        ⟨[], [decodesTo [] (nestedArrays.data 63) (nestedArrays 63)]⟩) = .error .malformed :=
  ⟨nestedArrays.decode_data (by decide), nestedArrays.nesting_eq 63, parseList_nestedArrays 63⟩

end Record

end Cbor

import Cbor.Conformance.Record
import Cbor.Proofs.JsonReading
import Cbor.Proofs.MapEntries

/-!
# Written records

An expectation and a record are what the tree written for them spells, so a list of records is
read back from its text, if that nests no deeper than the reader allows.
-/

namespace Cbor

/-! ## Expectations -/

namespace Expectation

/-- The entries of each map stand in ascending order. -/
inductive Ordered : Expectation → Prop
  | unsigned (number : UInt64) : Ordered (.unsigned number)
  | negative (argument : UInt64) : Ordered (.negative argument)
  | bytes (content : Bytes) : Ordered (.bytes content)
  | text (content : Text) : Ordered (.text content)
  | array {items : List Expectation} : (∀ item ∈ items, Ordered item) → Ordered (.array items)
  | map {entries : List (Text × Expectation)} :
      Entries.Ascending entries → (∀ entry ∈ entries, Ordered entry.2) → Ordered (.map entries)
  | tagged (tag : UInt64) {content : Expectation} : Ordered content → Ordered (.tagged tag content)
  | bool (truth : Bool) : Ordered (.bool truth)
  | null : Ordered .null
  | undefined : Ordered .undefined
  | single (bits : UInt32) : Ordered (.single bits)
  | double (bits : UInt64) : Ordered (.double bits)

theorem itemsToJson_eq_map (items : List Expectation) : itemsToJson items = items.map toJson := by
  induction items with
  | nil => rfl
  | cons item items ih => simp [itemsToJson, ih]

theorem entriesToJson_eq_map (entries : List (Text × Expectation)) :
    entriesToJson entries = entries.map fun entry => (entry.1, entry.2.toJson) := by
  induction entries with
  | nil => rfl
  | cons entry entries ih => simp [entriesToJson, ih]

/-! ### Trees of expectations -/

theorem exact_toNat {number : Nat} (h : number < UInt64.size) : (Json.integer number).Exact :=
  .integer h

theorem exact_kindJson (kind : Kind) {content : Json} (h : content.Exact) :
    (kindJson kind content).Exact := by
  apply Json.Exact.object
  simpa using h

theorem Ordered.exact {expect : Expectation} (h : expect.Ordered) : expect.toJson.Exact := by
  induction h with
  | unsigned number | negative number | double number =>
      exact exact_kindJson _ (exact_toNat number.toNat_lt)
  | single bits =>
      exact exact_kindJson _ (exact_toNat (Nat.lt_trans bits.toNat_lt (by decide)))
  | text content => exact exact_kindJson _ (.string content)
  | bool truth => exact exact_kindJson _ (.bool truth)
  | null | undefined => exact exact_kindJson _ (.object (by simp))
  | bytes content =>
      refine exact_kindJson _ (.array ?_)
      rw [List.forall_mem_map]
      exact fun byte _ => exact_toNat (Nat.lt_trans byte.toNat_lt (by decide))
  | array _ ih =>
      refine exact_kindJson _ (.array ?_)
      rwa [itemsToJson_eq_map, List.forall_mem_map]
  | map _ _ ih =>
      refine exact_kindJson _ (.object ?_)
      rwa [entriesToJson_eq_map, List.forall_mem_map]
  | tagged tag _ ih =>
      refine exact_kindJson _ (.object ?_)
      rw [List.forall_mem_cons, List.forall_mem_singleton]
      exact ⟨exact_toNat tag.toNat_lt, ih⟩

/-! ### Reading back -/

theorem toNatural?_toNat {number bound : Nat} (h : number < bound) :
    (Json.integer number).toNatural? bound = some number := if_pos h

theorem bytes?_array (content : Bytes) :
    bytes? (.array (content.map fun byte => .integer byte.toNat)) = some content := by
  have hbyte : ∀ byte : UInt8,
      ((Json.integer byte.toNat).toNatural? 256).map UInt8.ofNat = some byte := by
    intro byte
    rw [toNatural?_toNat byte.toNat_lt, Option.map_some, UInt8.ofNat_toNat]
  induction content with
  | nil => rfl
  | cons byte content ih =>
      simp only [bytes?, List.map_cons, List.mapM_cons] at ih ⊢
      rw [hbyte, ih]
      rfl

theorem ofElements?_map {items : List Expectation}
    (h : ∀ item ∈ items, ofJson? item.toJson = some item) :
    ofElements? (items.map toJson) = some items := by
  induction items with
  | nil => rfl
  | cons item items ih =>
      rw [List.forall_mem_cons] at h
      rw [List.map_cons, ofElements?, h.1, ih h.2]
      rfl

theorem ofMembers?_map {entries : List (Text × Expectation)}
    (h : ∀ entry ∈ entries, ofJson? entry.2.toJson = some entry.2) :
    ofMembers? (entries.map fun entry => (entry.1, entry.2.toJson)) = some entries := by
  induction entries with
  | nil => rfl
  | cons entry entries ih =>
      rw [List.forall_mem_cons] at h
      rw [List.map_cons, ofMembers?, h.1, ih h.2]
      rfl

theorem ofJson?_kindJson (kind : Kind) (content : Json) :
    ofJson? (kindJson kind content) =
      match kind with
      | .array => ofList? content
      | .map => ofMap? content
      | .tagged => ofTag? content
      | kind => ofScalar? kind content := by
  rw [kindJson, ofJson?, Kind.ofName?_name]
  rfl

theorem Ordered.ofJson?_toJson {expect : Expectation} (h : expect.Ordered) :
    ofJson? expect.toJson = some expect := by
  induction h with
  | unsigned number | negative number | double number =>
      rw [toJson, ofJson?_kindJson]
      simp only [ofScalar?, toNatural?_toNat number.toNat_lt]
      simp
  | single bits =>
      rw [toJson, ofJson?_kindJson]
      simp only [ofScalar?, toNatural?_toNat bits.toNat_lt]
      simp
  | bytes content =>
      rw [toJson, ofJson?_kindJson]
      simp only [ofScalar?, bytes?_array]
      rfl
  | text content | bool truth | null | undefined =>
      rw [toJson, ofJson?_kindJson]
      rfl
  | array _ ih =>
      rw [toJson, ofJson?_kindJson]
      simp only [ofList?, itemsToJson_eq_map, ofElements?_map ih]
      rfl
  | map hascending _ ih =>
      rw [toJson, ofJson?_kindJson]
      simp only [ofMap?, entriesToJson_eq_map, ofMembers?_map ih]
      simp [Entries.ofPairs_of_ascending hascending]
  | tagged tag _ ih =>
      rw [toJson, ofJson?_kindJson]
      have htag := toNatural?_toNat tag.toNat_lt
      simp [ofTag?, ofTagMembers?, htag, ih]

end Expectation

/-! ## Records -/

namespace Record

inductive Ordered : Record → Prop
  | success (description input : Text) {expect : Expectation} :
      expect.Ordered → Ordered (.success description input expect)
  | failure (description input : Text) : Ordered (.failure description input)

theorem Ordered.exact {record : Record} (h : record.Ordered) : record.toJson.Exact := by
  cases h with
  | success description input hexpect =>
      refine .object ?_
      simpa using ⟨.string description, .string input, hexpect.exact⟩
  | failure description input =>
      refine .object ?_
      simpa using ⟨Json.Exact.string description, Json.Exact.string input⟩

theorem Ordered.ofJson?_toJson {record : Record} (h : record.Ordered) :
    ofJson? record.toJson = some record := by
  cases h with
  | @success description input expect hexpect =>
      have hfields : (toJson (.success description input expect)).fields?
          ["description".toList, "input".toList, "expect".toList] =
          some [.string description, .string input, expect.toJson] := rfl
      have hsuccess : successOfJson? (toJson (.success description input expect)) =
          some (.success description input expect) := by
        rw [successOfJson?, hfields]
        simp [Json.toText?, hexpect.ofJson?_toJson]
      rw [ofJson?, hsuccess]
      rfl
  | failure description input =>
      have hfields : (toJson (.failure description input)).fields?
          ["description".toList, "input".toList] =
          some [.string description, .string input] := rfl
      have hnone : (toJson (.failure description input)).fields?
          ["description".toList, "input".toList, "expect".toList] = none := rfl
      rw [ofJson?, successOfJson?, hnone, failureOfJson?, hfields]
      rfl

theorem read_takes (spacing : Json.Spacing) (limit level : Nat) {record : Record}
    (h : record.Ordered) :
    Json.Takes (read limit) (spacing.write level record.toJson) record
      (record.toJson.depth ≤ limit) := by
  have htree := Json.read_takes spacing limit level h.exact
  constructor
  · intro hdepth rest hrest
    rw [read, htree.accepts hdepth rest hrest, ok_bind]
    simp only [h.ofJson?_toJson]
  · intro hdepth rest hrest
    rw [read, htree.refuses hdepth rest hrest, error_bind]

def listToJson (records : List Record) : Json := .array (records.map toJson)

theorem readList_takes (spacing : Json.Spacing) (limit level : Nat) {records : List Record}
    (h : ∀ record ∈ records, record.Ordered) :
    Json.Takes (readList limit) (spacing.write level (listToJson records)) records
      ((listToJson records).depth ≤ limit) := by
  cases limit with
  | zero =>
      refine ⟨fun hdepth => ?_, fun _ rest _ => rfl⟩
      simp [listToJson, Json.depth] at hdepth
  | succ limit =>
      have hbegins : ∀ record ∈ records, Json.Begins (spacing.write (level + 1) record.toJson) :=
        fun record hrecord => Json.begins_write spacing _ (h record hrecord).exact
      have hread := Json.readElements_takes spacing level records hbegins
        fun record hrecord => read_takes spacing limit (level + 1) (h record hrecord)
      have hdepth : (∀ record ∈ records, record.toJson.depth ≤ limit) ↔
          (listToJson records).depth ≤ limit + 1 := by
        rw [listToJson, Json.depth, Nat.add_le_add_iff_right, Json.elementsDepth_le_iff,
          List.forall_mem_map]
      rw [List.map_id'] at hread
      refine (hread.of_eq fun rest => ?_).congr hdepth
      rw [listToJson, Json.Spacing.write_array, Json.Spacing.writeElements_eq_map, List.map_map]
      rfl

theorem parseList_pretty {records : List Record} (h : ∀ record ∈ records, record.Ordered) :
    parseList (listToJson records).pretty =
      if (listToJson records).depth ≤ Json.nestingLimit then .ok records
      else .error .malformed := by
  rw [Json.pretty, Json.prettyAt_eq_write]
  exact (readList_takes Json.Spacing.lines Json.nestingLimit 0 h).whole

theorem parseList_compact {records : List Record} (h : ∀ record ∈ records, record.Ordered) :
    parseList (listToJson records).compact =
      if (listToJson records).depth ≤ Json.nestingLimit then .ok records
      else .error .malformed := by
  rw [Json.compact_eq_write 0]
  exact (readList_takes Json.Spacing.tight Json.nestingLimit 0 h).whole

/--
A list of records, whatever their texts and expectations, is read back as it is from either form
of its JSON, if that opens no more than 127 lists and objects at once; if it opens more, it is
refused as malformed.
-/
theorem parseList_listToJson {records : List Record} (h : ∀ record ∈ records, record.Ordered) :
    ((listToJson records).depth ≤ 127 →
      parseList (listToJson records).compact = .ok records ∧
        parseList (listToJson records).pretty = .ok records) ∧
    (127 < (listToJson records).depth →
      parseList (listToJson records).compact = .error .malformed ∧
        parseList (listToJson records).pretty = .error .malformed) := by
  rw [parseList_compact h, parseList_pretty h, Json.nestingLimit]
  constructor
  · intro hdepth
    rw [if_pos hdepth]
    exact ⟨rfl, rfl⟩
  · intro hdepth
    rw [if_neg (Nat.not_le.mpr hdepth)]
    exact ⟨rfl, rfl⟩

/-- A record whose texts need escapes and whose expectation holds the largest integer and a NaN,
and a record that has to fail. -/
theorem parseList_listToJson_escaped :
    let text : Text := ['"', '\\', '\n', '\x00', 'é']
    let expect : Expectation :=
      .map [(text, .tagged 0xFFFFFFFFFFFFFFFF (.array [.double 0x7FF0000000000001, .bytes [0xFF]]))]
    let records : List Record := [.success text text expect, .failure text text]
    (∀ record ∈ records, record.Ordered) ∧ (listToJson records).depth ≤ 127 ∧
      parseList (listToJson records).compact = .ok records ∧
      parseList (listToJson records).pretty = .ok records := by
  intro text expect records
  have hitems : ∀ item ∈ [Expectation.double 0x7FF0000000000001, .bytes [0xFF]], item.Ordered := by
    rw [List.forall_mem_cons, List.forall_mem_singleton]
    exact ⟨.double _, .bytes _⟩
  have hexpect : expect.Ordered :=
    .map (List.pairwise_singleton ..) (List.forall_mem_singleton.mpr (.tagged _ (.array hitems)))
  have hrecords : ∀ record ∈ records, record.Ordered := by
    rw [List.forall_mem_cons, List.forall_mem_singleton]
    exact ⟨.success text text hexpect, .failure text text⟩
  have hdepth : (listToJson records).depth ≤ 127 := by decide
  exact ⟨hrecords, hdepth, (parseList_listToJson hrecords).1 hdepth⟩

end Record

end Cbor

import Cbor.Proofs.Parts
import Cbor.Proofs.ReadValues
import Cbor.Proofs.RecordReading

/-!
# Ordered values

The entries of each map stand in ascending order wherever values are built: in the items of a
sequence, and in an expectation, whether it comes from an item, from a tree or straight from a text.
So records that were read once are read back from what is written for them.
-/

namespace Cbor

/-! ## Items -/

theorem Walks.keysAscend {options : Options} {data : Bytes} {offset : Nat} {items : List Item}
    (h : Walks options data offset items) : ∀ item ∈ items, item.Throughout Item.KeysAscend := by
  induction h with
  | start => simp
  | step _ _ hitem ih =>
      rw [List.forall_mem_append, List.forall_mem_singleton]
      exact ⟨ih, keysAscend_of_decodeWith hitem⟩

theorem keysAscend_of_decodeAllWith {options : Options} {data : Bytes} {items : List Item}
    (h : decodeAllWith options data = .ok items) :
    ∀ item ∈ items, item.Throughout Item.KeysAscend :=
  (decodeAllWith_eq_ok_iff_walks.mp h).keysAscend

/-! ## Expectations -/

namespace Expectation

theorem Ordered.ofPairs {pairs : List (Text × Expectation)} (h : ∀ pair ∈ pairs, pair.2.Ordered) :
    (Expectation.map (Entries.ofPairs pairs)).Ordered :=
  .map (Entries.ascending_ofPairs pairs) fun entry hentry =>
    h entry (Entries.mem_of_mem_ofPairs hentry)

theorem depth_kindJson (kind : Kind) (content : Json) :
    (kindJson kind content).depth = content.depth + 1 := by
  simp [kindJson, Json.depth, Json.membersDepth]

theorem depth_array_integers (content : Bytes) :
    (Json.array (content.map fun byte => .integer byte.toNat)).depth = 1 := by
  have hbytes : Json.elementsDepth (content.map fun byte => .integer byte.toNat) ≤ 0 := by
    rw [Json.elementsDepth_le_iff, List.forall_mem_map]
    exact fun byte _ => Nat.le_refl 0
  rw [Json.depth, Nat.le_zero.mp hbytes]

/-- The expectation is ordered, and its tree opens at most `limit` containers at once. -/
structure Within (limit : Nat) (expect : Expectation) : Prop where
  ordered : expect.Ordered
  depth_le : expect.toJson.depth ≤ limit

namespace Within

variable {limit larger : Nat}

theorem mono {expect : Expectation} (h : expect.Within limit) (hle : limit ≤ larger) :
    expect.Within larger :=
  ⟨h.ordered, Nat.le_trans h.depth_le hle⟩

theorem array {items : List Expectation} (h : ∀ item ∈ items, item.Within limit) :
    (Expectation.array items).Within (limit + 2) where
  ordered := .array fun item hitem => (h item hitem).ordered
  depth_le := by
    have hitems : Json.elementsDepth (items.map toJson) ≤ limit := by
      rw [Json.elementsDepth_le_iff, List.forall_mem_map]
      exact fun item hitem => (h item hitem).depth_le
    rw [toJson, depth_kindJson, Json.depth, itemsToJson_eq_map]
    omega

theorem ofPairs {pairs : List (Text × Expectation)} (h : ∀ pair ∈ pairs, pair.2.Within limit) :
    (Expectation.map (Entries.ofPairs pairs)).Within (limit + 2) where
  ordered := .ofPairs fun pair hpair => (h pair hpair).ordered
  depth_le := by
    have hentries : Json.membersDepth (entriesToJson (Entries.ofPairs pairs)) ≤ limit := by
      rw [entriesToJson_eq_map, Json.membersDepth_le_iff, List.forall_mem_map]
      exact fun entry hentry => (h entry (Entries.mem_of_mem_ofPairs hentry)).depth_le
    rw [toJson, depth_kindJson, Json.depth]
    omega

theorem tagged (tag : UInt64) {content : Expectation} (h : content.Within limit) :
    (Expectation.tagged tag content).Within (limit + 2) where
  ordered := .tagged tag h.ordered
  depth_le := by
    have hdepth := h.depth_le
    simp only [toJson, depth_kindJson, Json.depth, Json.membersDepth]
    omega

end Within

/-! ### From items -/

mutual

/-- Every level of an item takes two containers, and what has no level at most two. -/
theorem within_ofItem : ∀ item, (ofItem item).Within (2 * item.nesting + 2)
  | .unsigned _ | .negative _ | .text _ | .bool _ | .single _ | .double _ => by
      rw [ofItem]
      exact ⟨by constructor, by simp [toJson, depth_kindJson, Json.depth]⟩
  | .null | .undefined => by
      rw [ofItem]
      exact ⟨by constructor, by simp [toJson, depth_kindJson, Json.depth, Json.membersDepth]⟩
  | .bytes content => by
      rw [ofItem]
      refine ⟨.bytes content, ?_⟩
      rw [toJson, depth_kindJson, depth_array_integers]
      omega
  | .array items => .array (within_ofItems items)
  | .map entries => .ofPairs (within_ofEntries entries)
  | .tagged tag content => .tagged tag (within_ofItem content)

theorem within_ofItems : ∀ items, ∀ expect ∈ ofItems items,
    expect.Within (2 * Item.itemsNesting items + 2)
  | [] => by simp [ofItems]
  | item :: items => by
      rw [ofItems, List.forall_mem_cons, Item.itemsNesting]
      refine ⟨(within_ofItem item).mono (by omega), fun expect hexpect => ?_⟩
      exact (within_ofItems items expect hexpect).mono (by omega)

theorem within_ofEntries : ∀ entries, ∀ entry ∈ ofEntries entries,
    entry.2.Within (2 * Item.entriesNesting entries + 2)
  | [] => by simp [ofEntries]
  | (_, value) :: entries => by
      rw [ofEntries, List.forall_mem_cons, Item.entriesNesting]
      refine ⟨(within_ofItem value).mono (by omega), fun entry hentry => ?_⟩
      exact (within_ofEntries entries entry hentry).mono (by omega)

end

/-! ### From trees -/

theorem one_le_depth_of_bytes? {json : Json} {content : Bytes} (h : bytes? json = some content) :
    1 ≤ json.depth := by
  cases json with
  | array elements => exact Nat.le_add_left ..
  | _ => contradiction

theorem within_of_ofScalar? {kind : Kind} {content : Json} {expect : Expectation}
    (h : ofScalar? kind content = some expect) : expect.Within (content.depth + 1) := by
  cases kind with
  | unsigned | negative | text | single | double =>
      obtain ⟨found, -, h⟩ := Option.bind_eq_some_iff.mp h
      cases h
      exact ⟨by constructor, by simp [toJson, depth_kindJson, Json.depth]⟩
  | bytes =>
      obtain ⟨found, hfound, h⟩ := Option.bind_eq_some_iff.mp h
      cases h
      refine ⟨.bytes found, ?_⟩
      rw [toJson, depth_kindJson, depth_array_integers]
      exact Nat.succ_le_succ (one_le_depth_of_bytes? hfound)
  | bool =>
      simp only [ofScalar?] at h
      split at h
      · cases h
        exact ⟨.bool _, by simp [toJson, depth_kindJson, Json.depth]⟩
      · contradiction
  | null | undefined =>
      simp only [ofScalar?] at h
      split at h
      · cases h
        exact ⟨by constructor, by simp [toJson, depth_kindJson, Json.depth, Json.membersDepth]⟩
      · cases h
        exact ⟨by constructor, by simp [toJson, depth_kindJson, Json.depth, Json.membersDepth]⟩
      · contradiction
  | array | map | tagged => contradiction

mutual

/-- An expectation is written with no more containers than it was read from. -/
theorem within_of_ofJson? :
    ∀ json expect, ofJson? json = some expect → expect.Within json.depth
  | .object [(name, content)], expect, h => by
      rw [ofJson?] at h
      obtain ⟨kind, -, h⟩ := Option.bind_eq_some_iff.mp h
      simp only [Json.depth, Json.membersDepth, Nat.max_zero]
      cases kind with
      | array => exact within_of_ofList? content expect h
      | map => exact within_of_ofMap? content expect h
      | tagged => exact within_of_ofTag? content expect h
      | _ => exact within_of_ofScalar? h
  | .object [], _, h | .object (_ :: _ :: _), _, h | .array _, _, h | .null, _, h
  | .bool _, _, h | .integer _, _, h | .double _, _, h | .string _, _, h => by
      simp [ofJson?] at h

theorem within_of_ofList? :
    ∀ json expect, ofList? json = some expect → expect.Within (json.depth + 1)
  | .array elements, expect, h => by
      rw [ofList?] at h
      obtain ⟨items, hitems, h⟩ := Option.bind_eq_some_iff.mp h
      cases h
      exact .array (within_of_ofElements? elements items hitems)
  | .object _, _, h | .null, _, h | .bool _, _, h | .integer _, _, h | .double _, _, h
  | .string _, _, h => by
      simp [ofList?] at h

theorem within_of_ofMap? :
    ∀ json expect, ofMap? json = some expect → expect.Within (json.depth + 1)
  | .object members, expect, h => by
      rw [ofMap?] at h
      obtain ⟨pairs, hpairs, h⟩ := Option.bind_eq_some_iff.mp h
      cases h
      exact .ofPairs (within_of_ofMembers? members pairs hpairs)
  | .array _, _, h | .null, _, h | .bool _, _, h | .integer _, _, h | .double _, _, h
  | .string _, _, h => by
      simp [ofMap?] at h

theorem within_of_ofTag? :
    ∀ json expect, ofTag? json = some expect → expect.Within (json.depth + 1)
  | .object members, expect, h => by
      rw [ofTag?] at h
      exact within_of_ofTagMembers? members none none expect (Nat.le_refl _) (by simp) h
  | .array [tag, value], expect, h => by
      rw [ofTag?] at h
      obtain ⟨number, -, h⟩ := Option.bind_eq_some_iff.mp h
      obtain ⟨content, hcontent, h⟩ := Option.bind_eq_some_iff.mp h
      cases h
      refine (Within.tagged _ (within_of_ofJson? value content hcontent)).mono ?_
      simp only [Json.depth, Json.elementsDepth]
      omega
  | .array [], _, h | .array [_], _, h | .array (_ :: _ :: _ :: _), _, h | .null, _, h
  | .bool _, _, h | .integer _, _, h | .double _, _, h | .string _, _, h => by
      simp [ofTag?] at h

theorem within_of_ofElements? : ∀ elements items, ofElements? elements = some items →
    ∀ item ∈ items, item.Within (Json.elementsDepth elements)
  | [], items, h => by
      cases h
      simp
  | element :: elements, items, h => by
      rw [ofElements?] at h
      obtain ⟨first, hfirst, h⟩ := Option.bind_eq_some_iff.mp h
      obtain ⟨others, hothers, h⟩ := Option.bind_eq_some_iff.mp h
      cases h
      rw [List.forall_mem_cons, Json.elementsDepth]
      refine ⟨(within_of_ofJson? element first hfirst).mono (by omega), fun item hitem => ?_⟩
      exact (within_of_ofElements? elements others hothers item hitem).mono (by omega)

theorem within_of_ofMembers? : ∀ members pairs, ofMembers? members = some pairs →
    ∀ pair ∈ pairs, pair.2.Within (Json.membersDepth members)
  | [], pairs, h => by
      cases h
      simp
  | (key, value) :: members, pairs, h => by
      rw [ofMembers?] at h
      obtain ⟨first, hfirst, h⟩ := Option.bind_eq_some_iff.mp h
      obtain ⟨others, hothers, h⟩ := Option.bind_eq_some_iff.mp h
      cases h
      rw [List.forall_mem_cons, Json.membersDepth]
      refine ⟨(within_of_ofJson? value first hfirst).mono (by omega), fun pair hpair => ?_⟩
      exact (within_of_ofMembers? members others hothers pair hpair).mono (by omega)

theorem within_of_ofTagMembers? {limit : Nat} : ∀ members tag content expect,
    Json.membersDepth members ≤ limit → (∀ found ∈ content, found.Within limit) →
    ofTagMembers? members tag content = some expect → expect.Within (limit + 2)
  | [], tag, content, expect, _, hcontent, h => by
      rw [ofTagMembers?] at h
      obtain ⟨number, -, h⟩ := Option.bind_eq_some_iff.mp h
      obtain ⟨found, hfound, h⟩ := Option.bind_eq_some_iff.mp h
      cases h
      exact .tagged _ (hcontent found hfound)
  | (name, value) :: members, tag, content, expect, hlimit, hcontent, h => by
      rw [Json.membersDepth, Nat.max_le] at hlimit
      obtain ⟨hvalue, hrest⟩ := hlimit
      rw [ofTagMembers?] at h
      split at h
      · split at h
        · contradiction
        · obtain ⟨number, -, h⟩ := Option.bind_eq_some_iff.mp h
          exact within_of_ofTagMembers? members _ content expect hrest hcontent h
      · split at h
        · split at h
          · contradiction
          · obtain ⟨found, hfound, h⟩ := Option.bind_eq_some_iff.mp h
            refine within_of_ofTagMembers? members tag _ expect hrest ?_ h
            simpa using (within_of_ofJson? value found hfound).mono hvalue
        · exact within_of_ofTagMembers? members tag content expect hrest hcontent h

end

/-! ### From texts -/

theorem gives_readTag {inner : Json.Reader Expectation}
    (hinner : ∀ input, Json.Gives Ordered (inner input)) (allowed : Bool) (input : Text) :
    Json.Gives Ordered (Json.readStructure allowed (tagFields inner) (none, none)
      (fun state => return .tagged (← state.1) (← state.2)) input) := by
  -- the content, once it has been read, is ordered
  apply Json.gives_readStructure
    (I := fun state : Option UInt64 × Option Expectation => ∀ found ∈ state.2, found.Ordered)
  · rw [tagFields, List.forall_mem_cons, List.forall_mem_singleton]
    constructor
    · exact fun state input hstate => Json.gives_bind _ fun _ => hstate
    · intro state input _
      exact (hinner input).bind fun content _ hcontent found hfound =>
        Option.some.inj hfound ▸ hcontent
  · simp
  · rintro ⟨tag, content⟩ expect hcontent hfinish
    obtain ⟨_, -, hfinish⟩ := Option.bind_eq_some_iff.mp hfinish
    obtain ⟨found, hfound, hfinish⟩ := Option.bind_eq_some_iff.mp hfinish
    cases hfinish
    exact .tagged _ (hcontent found hfound)

theorem gives_readContent {inner : Option (Json.Reader Expectation)}
    (hinner : ∀ reader ∈ inner, ∀ text, Json.Gives Ordered (reader text)) (kind : Kind)
    (text : Text) : Json.Gives Ordered (readContent inner kind text) := by
  have hitem : ∀ text, Json.Gives Ordered (inner.getD (fun _ => .error .malformed) text) := by
    intro text
    cases inner with
    | none => trivial
    | some reader => exact hinner reader rfl text
  cases kind with
  | unsigned => exact Json.gives_bind _ fun _ => .unsigned _
  | negative => exact Json.gives_bind _ fun _ => .negative _
  | bytes => exact Json.gives_bind _ fun _ => .bytes _
  | text => exact Json.gives_bind _ fun _ => .text _
  | array => exact (Json.gives_readArray hitem _ _).bind fun items _ hitems => .array hitems
  | map => exact (Json.gives_readObject hitem _ _).bind fun pairs _ => .ofPairs
  | tagged => exact gives_readTag hitem _ _
  | bool => exact Json.gives_bind _ fun _ => .bool _
  | null => exact Json.gives_bind _ fun _ => .null
  | undefined => exact Json.gives_bind _ fun _ => .undefined
  | single => exact Json.gives_bind _ fun _ => .single _
  | double => exact Json.gives_bind _ fun _ => .double _

theorem gives_readOne {content : Option (Kind → Json.Reader Expectation)}
    (hcontent : ∀ reader ∈ content, ∀ kind text, Json.Gives Ordered (reader kind text))
    (input : Text) : Json.Gives Ordered (readOne content input) := by
  unfold readOne
  split
  · trivial
  · trivial
  · refine Json.gives_bind _ fun _ => Json.gives_bind _ fun _ => ?_
    exact (hcontent _ rfl _ _).bind fun expect _ hexpect => Json.gives_bind _ fun _ => hexpect
  · exact Json.gives_bind _ fun _ => trivial
  · trivial

theorem gives_read : ∀ depth input, Json.Gives Ordered (read depth input)
  | 0, input => gives_readOne (by simp) input
  | 1, input => by
      refine gives_readOne (fun reader hreader => ?_) input
      obtain rfl := Option.some.inj hreader
      exact gives_readContent (by simp)
  | depth + 2, input => by
      refine gives_readOne (fun reader hreader => ?_) input
      obtain rfl := Option.some.inj hreader
      refine gives_readContent fun inner hinner => ?_
      obtain rfl := Option.some.inj hinner
      exact gives_read depth

/-- An expectation that is read from a text is ordered, so that it is what its own tree spells. -/
theorem ordered_of_parse {text : Text} {expect : Expectation} (h : parse text = .ok expect) :
    expect.Ordered ∧ ofJson? expect.toJson = some expect := by
  have hordered : expect.Ordered := Json.gives_whole (gives_read Json.nestingLimit) h
  exact ⟨hordered, hordered.ofJson?_toJson⟩

end Expectation

/-! ## Records -/

namespace Record

structure Within (limit : Nat) (record : Record) : Prop where
  ordered : record.Ordered
  depth_le : record.toJson.depth ≤ limit

variable {limit : Nat}

theorem within_success (description input : Text) {expect : Expectation}
    (h : expect.Within limit) : (success description input expect).Within (limit + 1) where
  ordered := .success description input h.ordered
  depth_le := by simpa [toJson, Json.depth, Json.membersDepth] using h.depth_le

theorem within_failure (description input : Text) : (failure description input).Within 1 where
  ordered := .failure description input
  depth_le := Nat.le_refl 1

theorem Within.mono {record : Record} {larger : Nat} (h : record.Within limit)
    (hle : limit ≤ larger) : record.Within larger :=
  ⟨h.ordered, Nat.le_trans h.depth_le hle⟩

theorem depth_listToJson_le {records : List Record} (h : ∀ record ∈ records, record.Within limit) :
    (listToJson records).depth ≤ limit + 1 := by
  rw [listToJson, Json.depth, Nat.add_le_add_iff_right, Json.elementsDepth_le_iff,
    List.forall_mem_map]
  exact fun record hrecord => (h record hrecord).depth_le

theorem within_of_ofJson? {json : Json} {record : Record} (h : ofJson? json = some record) :
    record.Within json.depth := by
  rcases Option.or_eq_some_iff.mp h with h | ⟨-, h⟩
  · obtain ⟨values, hvalues, h⟩ := Option.bind_eq_some_iff.mp h
    split at h
    · next value =>
        obtain ⟨description, -, h⟩ := Option.bind_eq_some_iff.mp h
        obtain ⟨input, -, h⟩ := Option.bind_eq_some_iff.mp h
        obtain ⟨expect, hexpect, h⟩ := Option.bind_eq_some_iff.mp h
        cases h
        have hdepth := Json.depth_lt_of_fields? hvalues value (by simp)
        exact (within_success _ _ (Expectation.within_of_ofJson? _ expect hexpect)).mono hdepth
    · contradiction
  · obtain ⟨values, hvalues, h⟩ := Option.bind_eq_some_iff.mp h
    split at h
    · next value _ =>
        obtain ⟨description, -, h⟩ := Option.bind_eq_some_iff.mp h
        obtain ⟨input, -, h⟩ := Option.bind_eq_some_iff.mp h
        cases h
        have hdepth := Json.depth_lt_of_fields? hvalues value (by simp)
        exact (within_failure _ _).mono (Nat.one_le_of_lt hdepth)
    · contradiction

theorem gives_read (limit : Nat) (text : Text) : Json.Gives (Within limit) (read limit text) := by
  refine (Json.gives_read limit text).bind fun json rest hdepth => ?_
  cases hrecord : ofJson? json with
  | none => simp only [hrecord, Json.Gives]
  | some record =>
      simp only [hrecord]
      exact (within_of_ofJson? hrecord).mono hdepth

theorem within_of_parse {text : Text} {record : Record} (h : parse text = .ok record) :
    record.Within Json.nestingLimit :=
  Json.gives_whole (gives_read Json.nestingLimit) h

theorem gives_readList (limit : Nat) (text : Text) :
    Json.Gives (fun records => ∀ record ∈ records, record.Within limit)
      (readList (limit + 1) text) :=
  Json.gives_readArray (gives_read limit) true text

/-- Records that were read from any text are read back from either text that is written for
them. -/
theorem parseList_listToJson_of_parseList {text : Text} {records : List Record}
    (h : parseList text = .ok records) :
    parseList (listToJson records).compact = .ok records ∧
      parseList (listToJson records).pretty = .ok records := by
  have hwithin : ∀ record ∈ records, record.Within 126 := Json.gives_whole (gives_readList 126) h
  have hordered : ∀ record ∈ records, record.Ordered :=
    fun record hrecord => (hwithin record hrecord).ordered
  have hdepth : (listToJson records).depth ≤ Json.nestingLimit := depth_listToJson_le hwithin
  rw [parseList_compact hordered, parseList_pretty hordered, if_pos hdepth]
  exact ⟨rfl, rfl⟩

end Record

end Cbor

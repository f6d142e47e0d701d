import Cbor.Conformance.Expectation
import Cbor.Item.Diagnostic
import Cbor.Item.Json
import Cbor.Proofs.Completion

/-!
# The bodies of maps

A map keeps of its body the last value of every key, in ascending order of the keys.  What else the
body says is lost: in which order the pairs stand, how often a key occurs, how the keys are spelled,
and whether the map is counted or ends at a break byte.
-/

namespace Cbor

/-! ## Last values -/

namespace Entries

section

variable {κ α : Type} [BEq κ]

def lastValue? (pairs : List (κ × α)) (key : κ) : Option α := pairs.reverse.lookup key

/-- The entries are every key of the pairs with its last value, and stand in ascending order. -/
structure KeepsLast [LT κ] (pairs entries : List (κ × α)) : Prop where
  ascending : Ascending entries
  mem_iff : ∀ key value, (key, value) ∈ entries ↔ lastValue? pairs key = some value

variable [LawfulBEq κ] {pairs : List (κ × α)} {key : κ} {value : α}

theorem lastValue?_eq_some_iff :
    lastValue? pairs key = some value ↔
      ∃ before after, pairs = before ++ (key, value) :: after ∧
        ∀ later ∈ after, later.1 ≠ key := by
  rw [lastValue?, List.lookup_eq_some_iff]
  constructor
  · rintro ⟨after, before, hsplit, hafter⟩
    refine ⟨before.reverse, after.reverse, by simpa using congrArg List.reverse hsplit, ?_⟩
    exact fun later hlater => (bne_iff_ne.mp (hafter later (List.mem_reverse.mp hlater))).symm
  · rintro ⟨before, after, rfl, hafter⟩
    refine ⟨after.reverse, before.reverse, by simp, ?_⟩
    exact fun later hlater => bne_iff_ne.mpr (hafter later (List.mem_reverse.mp hlater)).symm

theorem exists_lastValue?_iff :
    (∃ value, lastValue? pairs key = some value) ↔ key ∈ pairs.map Prod.fst := by
  rw [← Option.isSome_iff_exists, lastValue?, List.lookup_isSome_iff, List.mem_map]
  simp only [List.mem_reverse, beq_iff_eq, eq_comm (a := key)]

section

variable [LT κ] {entries : List (κ × α)}

theorem KeepsLast.mem_keys_iff (h : KeepsLast pairs entries) :
    key ∈ entries.map Prod.fst ↔ key ∈ pairs.map Prod.fst := by
  have hkeys : key ∈ entries.map Prod.fst ↔ ∃ value, (key, value) ∈ entries := by simp
  simp only [hkeys, h.mem_iff, exists_lastValue?_iff]

omit [LawfulBEq κ] in
theorem KeepsLast.eq_of_lastValue?_eq [Std.Asymm (· < · : κ → κ → Prop)]
    {others entries' : List (κ × α)} (h : KeepsLast pairs entries)
    (h' : KeepsLast others entries') (hsame : ∀ key, lastValue? pairs key = lastValue? others key) :
    entries = entries' := by
  refine h'.ascending.eq_of_mem_iff h.ascending fun entry => ?_
  rw [h.mem_iff entry.1 entry.2, h'.mem_iff entry.1 entry.2, hsame]

variable [DecidableLT κ] [Trans (· < · : κ → κ → Prop) (· < ·) (· < ·)]
  [Std.Irrefl (· < · : κ → κ → Prop)] [Std.Trichotomous (· < · : κ → κ → Prop)]

theorem keepsLast_ofPairs (pairs : List (κ × α)) : KeepsLast pairs (ofPairs pairs) where
  ascending := ascending_ofPairs pairs
  mem_iff key value := by rw [mem_ofPairs_iff, lastValue?_eq_some_iff]

theorem keepsLast_iff [Std.Asymm (· < · : κ → κ → Prop)] :
    KeepsLast pairs entries ↔ entries = ofPairs pairs := by
  constructor
  · exact fun h => h.eq_of_lastValue?_eq (keepsLast_ofPairs pairs) fun _ => rfl
  · rintro rfl
    exact keepsLast_ofPairs pairs

theorem lastValue?_eq_of_perm {others : List (κ × α)} (hperm : pairs.Perm others)
    (hkeys : (pairs.map Prod.fst).Nodup) (key : κ) :
    lastValue? pairs key = lastValue? others key := by
  have hkeys' : (others.map Prod.fst).Nodup := (hperm.map Prod.fst).nodup_iff.mp hkeys
  ext value
  rw [← (keepsLast_ofPairs pairs).mem_iff, ← (keepsLast_ofPairs others).mem_iff,
    mem_ofPairs_of_nodup hkeys, mem_ofPairs_of_nodup hkeys', hperm.mem_iff]

end

end

end Entries

/-! ## Encoded maps -/

/-- The head of a map and its body: as many pairs as the head counts, or pairs and a break byte. -/
inductive EncodesMap (budget : Nat) : Bytes → List (Bytes × Item) → Prop
  | mk {head body : Bytes} {argument : Argument} {pairs : List (Bytes × Item)} :
      Head.Spells .map head argument → Elements (EncodesPair budget) argument body pairs →
      EncodesMap budget (head ++ body) pairs

theorem encodes_map_iff {budget : Nat} {word : Bytes} {entries : List (Bytes × Item)} :
    Encodes budget word (.map entries) ↔
      ∃ level pairs, budget = level + 1 ∧ EncodesMap level word pairs ∧
        Entries.KeepsLast pairs entries := by
  constructor
  · intro h
    cases h with
    | leaf hleaf => cases hleaf
    | map hhead hpairs hcount =>
        exact ⟨_, _, rfl, .mk hhead (.counted (encodesPairs_iff_row.mp hpairs) hcount),
          Entries.keepsLast_ofPairs _⟩
    | openMap hhead hpairs =>
        exact ⟨_, _, rfl, .mk hhead (.untilBreak (encodesPairs_iff_row.mp hpairs)),
          Entries.keepsLast_ofPairs _⟩
  · rintro ⟨level, pairs, rfl, ⟨hhead, helements⟩, hkeeps⟩
    rw [Entries.keepsLast_iff.mp hkeeps]
    exact .of_pairs hhead helements

theorem Item.read_encodesMap {level : Nat} {word : Bytes} {pairs : List (Bytes × Item)}
    (h : EncodesMap level word pairs) (limit offset : Nat) (rest : Bytes) :
    Item.read limit (level + 1) ⟨offset, word ++ rest⟩ =
      .ok (.map (Entries.ofPairs pairs), ⟨offset + word.length, rest⟩) :=
  Item.read_accepts limit _
    (encodes_map_iff.mpr ⟨level, pairs, rfl, h, Entries.keepsLast_ofPairs pairs⟩) offset rest

/--
A map is read, at any place and level, exactly from the head of a map and a body in one of the two
forms; its entries are the keys of the body, each with its last value, in ascending order, and it
ends behind the last pair or the break byte.  So two bodies with the same last values, such as one
with different keys and a reordering of it, are read as the same map, which has one text, one
recorded form and one JSON.
-/
theorem read_map_keepsLast :
    (∀ limit budget offset input entries cursor,
      Item.read limit budget ⟨offset, input⟩ = .ok (.map entries, cursor) ↔
        ∃ word rest, input = word ++ rest ∧
          (∃ level pairs, budget = level + 1 ∧ EncodesMap level word pairs ∧
            Entries.KeepsLast pairs entries) ∧
          cursor = ⟨offset + word.length, rest⟩) ∧
    (∀ options data entries length,
      decodeWith options data = .ok (.map entries, length) ↔
        ∃ word rest, data = word ++ rest ∧
          (∃ level pairs, options.maxDepth.toNat = level + 1 ∧ EncodesMap level word pairs ∧
            Entries.KeepsLast pairs entries) ∧
          length = word.length) ∧
    (∀ pairs entries : List (Bytes × Item), Entries.KeepsLast pairs entries →
      ∀ key, key ∈ entries.map Prod.fst ↔ key ∈ pairs.map Prod.fst) ∧
    (∀ level word pairs level' word' pairs', EncodesMap level word pairs →
      EncodesMap level' word' pairs' →
      (∀ key, Entries.lastValue? pairs key = Entries.lastValue? pairs' key) →
      ∀ limit offset rest limit' offset' rest', ∃ item item',
        Item.read limit (level + 1) ⟨offset, word ++ rest⟩ =
          .ok (item, ⟨offset + word.length, rest⟩) ∧
        Item.read limit' (level' + 1) ⟨offset', word' ++ rest'⟩ =
          .ok (item', ⟨offset' + word'.length, rest'⟩) ∧
        item = item' ∧ item.diagnostic = item'.diagnostic ∧
        Expectation.ofItem item = Expectation.ofItem item' ∧ item.toJson = item'.toJson) ∧
    ∀ pairs pairs' : List (Bytes × Item), pairs.Perm pairs' → (pairs.map Prod.fst).Nodup →
      ∀ key, Entries.lastValue? pairs key = Entries.lastValue? pairs' key := by
  refine ⟨fun limit budget offset input entries cursor => ?_,
    fun options data entries length => ?_, fun _ _ hkeeps _ => hkeeps.mem_keys_iff, ?_,
    fun _ _ => Entries.lastValue?_eq_of_perm⟩
  · simp only [Item.read_eq_ok_iff, encodes_map_iff]
  · simp only [decodeWith_eq_ok_iff_append, encodes_map_iff]
  · intro level word pairs level' word' pairs' hmap hmap' hsame limit offset rest limit' offset'
      rest'
    have heq : Entries.ofPairs pairs = Entries.ofPairs pairs' :=
      (Entries.keepsLast_ofPairs pairs).eq_of_lastValue?_eq (Entries.keepsLast_ofPairs pairs') hsame
    refine ⟨_, _, Item.read_encodesMap hmap limit offset rest,
      Item.read_encodesMap hmap' limit' offset' rest', ?_⟩
    rw [heq]
    exact ⟨rfl, rfl, rfl, rfl⟩

/-- A counted map with a key that occurs twice, once in chunks, and an open map. -/
theorem read_map_keepsLast_chunked_key :
    let word : Bytes := [0xA3, 0x61, 0x61, 0x01, 0x7F, 0x61, 0x61, 0xFF, 0x02, 0x61, 0x62, 0x03]
    let pairs : List (Bytes × Item) :=
      [([0x61], .unsigned 1), ([0x61], .unsigned 2), ([0x62], .unsigned 3)]
    let word' : Bytes := [0xBF, 0x61, 0x62, 0x03, 0x61, 0x61, 0x02, 0xFF]
    let pairs' : List (Bytes × Item) := [([0x62], .unsigned 3), ([0x61], .unsigned 2)]
    EncodesMap 0 word pairs ∧ EncodesMap 0 word' pairs' ∧
      (∀ key, Entries.lastValue? pairs key = Entries.lastValue? pairs' key) ∧
      ∃ item item', Item.read 1 1 ⟨0, word ++ [0x00]⟩ = .ok (item, ⟨12, [0x00]⟩) ∧
        Item.read 9 1 ⟨5, word'⟩ = .ok (item', ⟨13, []⟩) ∧ item = item' ∧
        item.diagnostic = item'.diagnostic := by
  intro word pairs word' pairs'
  have hchunk (letter : UInt8) : EncodesChunk .text [0x61, letter] [letter] :=
    EncodesChunk.mk (Head.Spells.mk (@Argument.Spells.small 1 (by decide))) rfl
  have hchunks : EncodesString .text [0x7F, 0x61, 0x61, 0xFF] [0x61] :=
    EncodesString.chunked (Head.Spells.mk .indefinite) (Row.cons (hchunk 0x61) .nil)
  have hnumber {number : Nat} (hsmall : number < 24) :
      Encodes 0 [Head.toByte ⟨.unsigned, number⟩] (.unsigned (UInt64.ofNat number)) :=
    .leaf (.unsigned (.mk (.small hsmall)))
  have hfirst : EncodesPair 0 [0x61, 0x61, 0x01] ([0x61], .unsigned 1) :=
    EncodesPair.mk (.definite (hchunk 0x61)) (hnumber (show 1 < 24 by decide))
  have hagain : EncodesPair 0 [0x7F, 0x61, 0x61, 0xFF, 0x02] ([0x61], .unsigned 2) :=
    EncodesPair.mk hchunks (hnumber (show 2 < 24 by decide))
  have hshort : EncodesPair 0 [0x61, 0x61, 0x02] ([0x61], .unsigned 2) :=
    EncodesPair.mk (.definite (hchunk 0x61)) (hnumber (show 2 < 24 by decide))
  have hother : EncodesPair 0 [0x61, 0x62, 0x03] ([0x62], .unsigned 3) :=
    EncodesPair.mk (.definite (hchunk 0x62)) (hnumber (show 3 < 24 by decide))
  have hmap : EncodesMap 0 word pairs :=
    EncodesMap.mk (Head.Spells.mk (@Argument.Spells.small 3 (by decide)))
      (Elements.counted (Row.cons hfirst (Row.cons hagain (Row.cons hother .nil))) rfl)
  have hmap' : EncodesMap 0 word' pairs' :=
    EncodesMap.mk (Head.Spells.mk .indefinite)
      (Elements.untilBreak (Row.cons hother (Row.cons hshort .nil)))
  have hsame : ∀ key, Entries.lastValue? pairs key = Entries.lastValue? pairs' key := by
    intro key
    by_cases ha : key = [0x61]
    · rw [ha]
      rfl
    · by_cases hb : key = [0x62]
      · rw [hb]
        rfl
      · have ha' : (key == [0x61]) = false := beq_eq_false_iff_ne.mpr ha
        have hb' : (key == [0x62]) = false := beq_eq_false_iff_ne.mpr hb
        simp [pairs, pairs', Entries.lastValue?, List.lookup_cons, ha', hb']
  obtain ⟨item, item', hread, hread', heq, htext, -⟩ :=
    read_map_keepsLast.2.2.2.1 0 word pairs 0 word' pairs' hmap hmap' hsame 1 0 [0x00] 9 5 []
  exact ⟨hmap, hmap', hsame, item, item', hread, hread', heq, htext⟩

end Cbor

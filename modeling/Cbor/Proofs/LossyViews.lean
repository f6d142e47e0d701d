import Cbor.Conformance.Expectation
import Cbor.Item.Json
import Cbor.Proofs.Parts

/-!
# Lossy views

The JSON of an item and its recorded form both lose something.  The JSON loses no less: it is
already determined by the recorded form.  Of the keys of a map that are read as one text, both keep
the same entry, which is the last one in the order of the raw keys.
-/

namespace Cbor

/-! ## Entries under other keys -/

namespace Entries

section

variable {κ α β : Type} [LT κ] [DecidableLT κ]

theorem map_insert (f : α → β) (key : κ) (value : α) (entries : List (κ × α)) :
    (insert key value entries).map (Prod.map id f) =
      insert key (f value) (entries.map (Prod.map id f)) := by
  induction entries with
  | nil => rfl
  | cons first entries ih =>
      obtain ⟨k, v⟩ := first
      simp only [insert, List.map_cons, Prod.map_apply, id_eq]
      split
      · rfl
      · split
        · rw [List.map_cons, ih]
          rfl
        · rfl

theorem map_ofPairs (f : α → β) (pairs : List (κ × α)) :
    (ofPairs pairs).map (Prod.map id f) = ofPairs (pairs.map (Prod.map id f)) := by
  induction pairs using List.reverseRecOn with
  | nil => rfl
  | append_singleton pairs pair ih =>
      rw [ofPairs_append_singleton, map_insert, ih, List.map_append, List.map_singleton,
        ofPairs_append_singleton]
      rfl

end

/-- The entries that are left when keys are read as text, in the order of the texts. -/
def merged (entries : List (Bytes × Item)) : List (Bytes × Item) :=
  (ofPairs (entries.map fun entry => (Utf8.lossy entry.1, entry))).map Prod.snd

/-- The entry has the last, in raw order, of all keys that are read as the text of its own. -/
structure Survives (entries : List (Bytes × Item)) (entry : Bytes × Item) : Prop where
  mem : entry ∈ entries
  last : ∀ other ∈ entries, Utf8.lossy other.1 = Utf8.lossy entry.1 → ¬entry.1 < other.1

variable {entries : List (Bytes × Item)}

theorem eq_lossy_of_mem {pair : Text × (Bytes × Item)}
    (h : pair ∈ ofPairs (entries.map fun entry => (Utf8.lossy entry.1, entry))) :
    pair = (Utf8.lossy pair.2.1, pair.2) := by
  obtain ⟨entry, -, rfl⟩ := List.mem_map.mp (mem_of_mem_ofPairs h)
  rfl

theorem ofPairs_eq_map_merged {α : Type} (f : Item → α) (entries : List (Bytes × Item)) :
    ofPairs (entries.map fun entry => (Utf8.lossy entry.1, f entry.2)) =
      (merged entries).map fun entry => (Utf8.lossy entry.1, f entry.2) := by
  have hpairs := map_ofPairs (fun entry : Bytes × Item => f entry.2)
    (entries.map fun entry => (Utf8.lossy entry.1, entry))
  rw [List.map_map] at hpairs
  rw [merged, List.map_map]
  refine hpairs.symm.trans (List.map_congr_left fun pair hpair => ?_)
  rw [eq_lossy_of_mem hpair]
  rfl

theorem pairwise_merged (entries : List (Bytes × Item)) :
    (merged entries).Pairwise fun first second => Utf8.lossy first.1 < Utf8.lossy second.1 := by
  rw [merged, List.pairwise_map]
  refine (ascending_ofPairs _).imp_of_mem fun hfirst hsecond hlt => ?_
  rwa [eq_lossy_of_mem hfirst, eq_lossy_of_mem hsecond] at hlt

theorem mem_merged_iff (hascending : Ascending entries) {entry : Bytes × Item} :
    entry ∈ merged entries ↔ Survives entries entry := by
  have hmerged : entry ∈ merged entries ↔ (Utf8.lossy entry.1, entry) ∈
      ofPairs (entries.map fun entry => (Utf8.lossy entry.1, entry)) := by
    rw [merged, List.mem_map]
    constructor
    · rintro ⟨pair, hpair, rfl⟩
      rwa [← eq_lossy_of_mem hpair]
    · exact fun h => ⟨_, h, rfl⟩
  rw [hmerged, mem_ofPairs_iff]
  constructor
  · rintro ⟨before, after, hsplit, hafter⟩
    obtain ⟨before, rest, rfl, rfl, hrest⟩ := List.map_eq_append_iff.mp hsplit
    obtain ⟨other, after, rfl, heq, rfl⟩ := List.map_eq_cons_iff.mp hrest
    obtain rfl := (Prod.mk.inj heq).2
    obtain ⟨-, -, hbefore⟩ := List.pairwise_append.mp hascending
    refine ⟨by simp, fun earlier hearlier hsame hlt => ?_⟩
    rcases List.mem_append.mp hearlier with hearlier | hearlier
    · exact Std.Asymm.asymm _ _ hlt (hbefore earlier hearlier other List.mem_cons_self)
    · rcases List.mem_cons.mp hearlier with rfl | hlater
      · exact Std.Irrefl.irrefl _ hlt
      · exact hafter _ (List.mem_map_of_mem hlater) hsame
  · rintro ⟨hmem, hlast⟩
    obtain ⟨before, after, rfl⟩ := List.append_of_mem hmem
    obtain ⟨-, hafter, -⟩ := List.pairwise_append.mp hascending
    refine ⟨_, _, List.map_append, fun pair hpair hsame => ?_⟩
    obtain ⟨later, hlater, rfl⟩ := List.mem_map.mp hpair
    exact hlast later (by simp [hlater]) hsame ((List.pairwise_cons.mp hafter).1 later hlater)

end Entries

/-! ## The JSON of a recorded form -/

namespace Expectation

mutual

def shown : Expectation → Json
  | .unsigned number => .integer number.toNat
  | .negative argument => .ofMagnitude (argument + 1)
  | .bytes content => .string (Base64Url.encode content)
  | .text content => .string content
  | .array items => .array (shownItems items)
  | .map entries => .object (shownEntries entries)
  | .tagged _ content => shown content
  | .bool truth => .bool truth
  | .null | .undefined => .null
  | .single bits => .ofDouble (UInt64.ofNat (FloatFormat.single.widen .double bits.toNat))
  | .double bits => .ofDouble bits

def shownItems : List Expectation → List Json
  | [] => []
  | item :: items => shown item :: shownItems items

def shownEntries : List (Text × Expectation) → List (Text × Json)
  | [] => []
  | (key, value) :: entries => (key, shown value) :: shownEntries entries

end

theorem shownEntries_eq_map (entries : List (Text × Expectation)) :
    shownEntries entries = entries.map (Prod.map id shown) := by
  induction entries with
  | nil => rfl
  | cons entry entries ih =>
      rw [shownEntries, ih, List.map_cons]
      rfl

end Expectation

namespace Item

open Expectation (ofItem ofItems ofEntries shown shownItems shownEntries)

mutual

theorem toJson_eq_shown : ∀ item : Item, item.toJson = shown (ofItem item)
  | .negative magnitude => by rw [toJson, ofItem, shown, UInt64.sub_add_cancel]
  | .array items => by rw [toJson, ofItem, shown, itemsToJson_eq_shown items]
  | .map entries => by
      rw [toJson, ofItem, shown, Expectation.shownEntries_eq_map, Entries.map_ofPairs,
        ← Expectation.shownEntries_eq_map, entriesToJson_eq_shown entries]
  | .tagged _ content => by rw [toJson, ofItem, shown, toJson_eq_shown content]
  | .unsigned _ | .bytes _ | .text _ | .bool _ | .null | .undefined | .single _ | .double _ => rfl

theorem itemsToJson_eq_shown : ∀ items, itemsToJson items = shownItems (ofItems items)
  | [] => rfl
  | item :: items => by
      rw [itemsToJson, ofItems, shownItems, toJson_eq_shown item, itemsToJson_eq_shown items]

theorem entriesToJson_eq_shown : ∀ entries, entriesToJson entries = shownEntries (ofEntries entries)
  | [] => rfl
  | (_, value) :: entries => by
      rw [entriesToJson, ofEntries, shownEntries, toJson_eq_shown value,
        entriesToJson_eq_shown entries]

end

/-- If the item is a map, its JSON and its recorded form keep the same entries, one for each text:
the one that survives. -/
def MergesKeys : Item → Prop
  | .map entries => ∃ kept : List (Bytes × Item),
      (kept.Pairwise fun first second => Utf8.lossy first.1 < Utf8.lossy second.1) ∧
      (∀ entry, entry ∈ kept ↔ Entries.Survives entries entry) ∧
      ofItem (.map entries) = .map (kept.map fun entry => (Utf8.lossy entry.1, ofItem entry.2)) ∧
      toJson (.map entries) = .object (kept.map fun entry => (Utf8.lossy entry.1, entry.2.toJson))
  | _ => True

theorem mergesKeys_of_keysAscend : ∀ item : Item, item.KeysAscend → item.MergesKeys
  | .map entries, h => by
      refine ⟨Entries.merged entries, Entries.pairwise_merged entries,
        fun entry => Entries.mem_merged_iff h, ?_, ?_⟩
      · rw [ofItem, Expectation.ofEntries_eq_map, Entries.ofPairs_eq_map_merged]
      · rw [toJson, entriesToJson_eq_map, Entries.ofPairs_eq_map_merged]
  | .unsigned _, _ | .negative _, _ | .bytes _, _ | .text _, _ | .array _, _ | .tagged _ _, _
  | .bool _, _ | .null, _ | .undefined, _ | .single _, _ | .double _, _ => trivial

theorem mergesKeys_of_decodeWith {options : Options} {data : Bytes} {item : Item} {length : Nat}
    (h : decodeWith options data = .ok (item, length)) : item.Throughout MergesKeys :=
  (keysAscend_of_decodeWith h).imp mergesKeys_of_keysAscend

/--
Items with one recorded form have one JSON.  Of a negative integer's magnitude nothing is assumed,
not even that it is no zero.  In an item whose maps are in order, as those of every decoded item
are, every map, however deep, keeps the same entries in both views: of keys that are read as one
text the last in raw order.
-/
theorem toJson_eq_of_ofItem_eq :
    (∀ item other : Item, ofItem item = ofItem other → item.toJson = other.toJson) ∧
    ∀ item : Item, item.Throughout KeysAscend → item.Throughout MergesKeys := by
  refine ⟨fun item other h => ?_, fun item h => h.imp mergesKeys_of_keysAscend⟩
  rw [toJson_eq_shown, toJson_eq_shown, h]

/-- Of three keys the first and the last are read as U+FFFD, which stands before the text of the
second; the key of the other item is no UTF-8 either. -/
theorem toJson_eq_of_ofItem_eq_merged_keys :
    let grin : Bytes := [0xF0, 0x9F, 0x98, 0x80]
    let entries : List (Bytes × Item) :=
      [([0xEF, 0xBF, 0xBD], .null), (grin, .negative 1), ([0xFF], .tagged 1 (.bool true))]
    let other : Item := .array [.map [([0x80], .tagged 1 (.bool true)), (grin, .negative 1)]]
    ofItem (.array [.map entries]) = ofItem other ∧
      (Item.array [.map entries]).toJson = other.toJson ∧
      (Item.array [.map entries]).Throughout KeysAscend ∧ (Item.map entries).MergesKeys := by
  intro grin entries other
  have hform : ofItem (.array [.map entries]) = ofItem other := by decide
  have hordered : (Item.array [.map entries]).Throughout KeysAscend :=
    keysAscend_of_decodeWith (show decode
      ([0x81, 0xA3, 0x63, 0xEF, 0xBF, 0xBD, 0xF6, 0x64] ++ grin ++ [0x20, 0x61, 0xFF, 0xC1, 0xF5]) =
        .ok (.array [.map entries], 17) by decide)
  have hmerges := toJson_eq_of_ofItem_eq.2 _ hordered
  exact ⟨hform, toJson_eq_of_ofItem_eq.1 _ _ hform, hordered,
    (hmerges.of_mem (List.mem_singleton.mpr rfl)).here⟩

end Item

end Cbor

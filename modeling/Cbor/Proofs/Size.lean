import Cbor.Proofs.Nesting

/-!
# The size of items

What is decoded is no larger than the bytes that say it, whatever counts and lengths they announce:
an announced element that is not there is a fault, and every item, key and byte of content takes
up bytes of its own.
-/

namespace Cbor

variable {budget : Nat} {word : Bytes} {item : Item}

/-! ## Size -/

namespace Item

mutual

/-- One for every item and every key of a map, and one for every byte of content. -/
def size : Item → Nat
  | .bytes content | .text content => content.length + 1
  | .array items => itemsSize items + 1
  | .map entries => entriesSize entries + 1
  | .tagged _ content => size content + 1
  | .unsigned _ | .negative _ | .bool _ | .null | .undefined | .single _ | .double _ => 1

def itemsSize : List Item → Nat
  | [] => 0
  | item :: items => size item + itemsSize items

def entriesSize : List (Bytes × Item) → Nat
  | [] => 0
  | (key, value) :: entries => (key.length + 1) + size value + entriesSize entries

end

def entrySize (entry : Bytes × Item) : Nat := (entry.1.length + 1) + entry.2.size

theorem itemsSize_eq_sum (items : List Item) : itemsSize items = (items.map size).sum := by
  induction items with
  | nil => rfl
  | cons item items ih => simp [itemsSize, ih]

theorem entriesSize_eq_sum (entries : List (Bytes × Item)) :
    entriesSize entries = (entries.map entrySize).sum := by
  induction entries with
  | nil => rfl
  | cons entry entries ih => simp [entriesSize, entrySize, ih]

end Item

/-! ## Strings -/

theorem Head.Spells.one_le_length {major : Major} {head : Bytes} {argument : Argument}
    (h : Head.Spells major head argument) : 1 ≤ head.length := by
  cases h
  exact Nat.succ_pos _

theorem EncodesChunk.length_lt {major : Major} {content : Bytes}
    (h : EncodesChunk major word content) : content.length < word.length := by
  obtain ⟨hhead, -⟩ := h
  have hpos := hhead.one_le_length
  rw [List.length_append]
  omega

theorem EncodesString.length_lt {major : Major} {content : Bytes}
    (h : EncodesString major word content) : content.length < word.length := by
  cases h with
  | definite hchunk => exact hchunk.length_lt
  | chunked hhead hrow =>
      have hpos := hhead.one_le_length
      have hchunks := hrow.sum_map_le_length fun hchunk => Nat.le_of_lt hchunk.length_lt
      rw [List.length_flatten, List.length_append]
      simp only [List.length_append]
      omega

/-! ## Items -/

theorem EncodesLeaf.size_le (h : EncodesLeaf word item) : item.size ≤ word.length := by
  cases h with
  | unsigned hhead | negative hhead => exact hhead.one_le_length
  | bytes hstring | text hstring => exact hstring.length_lt
  | no | yes | null | undefined | half | single | double => exact Nat.succ_pos _

theorem Encodes.size_le (h : Encodes budget word item) : item.size ≤ word.length := by
  induction budget generalizing word item with
  | zero =>
      cases h with
      | leaf hleaf => exact hleaf.size_le
  | succ budget ih =>
      have hitems : ∀ {body items}, EncodesItems budget body items →
          Item.itemsSize items ≤ body.length := by
        intro body items h
        rw [Item.itemsSize_eq_sum]
        exact (encodesItems_iff_row.mp h).sum_map_le_length fun hitem => ih hitem
      -- a pair whose key occurs again has bytes, but is not counted
      have hpairs : ∀ {body pairs}, EncodesPairs budget body pairs →
          Item.entriesSize (Entries.ofPairs pairs) ≤ body.length := by
        intro body pairs h
        have hpair : ∀ {word pair}, EncodesPair budget word pair →
            Item.entrySize pair ≤ word.length := by
          rintro _ _ ⟨hkey, hitem⟩
          rw [List.length_append]
          exact Nat.add_le_add hkey.length_lt (ih hitem)
        rw [Item.entriesSize_eq_sum]
        exact Nat.le_trans (Entries.sum_map_ofPairs_le _ pairs)
          ((encodesPairs_iff_row.mp h).sum_map_le_length fun hword => hpair hword)
      cases h with
      | leaf hleaf => exact hleaf.size_le
      | array hhead h | openArray hhead h =>
          have hpos := hhead.one_le_length
          have hle := hitems h
          simp only [Item.size, List.length_append]
          omega
      | map hhead h | openMap hhead h =>
          have hpos := hhead.one_le_length
          have hle := hpairs h
          simp only [Item.size, List.length_append]
          omega
      | tagged hhead h =>
          have hpos := hhead.one_le_length
          have hle := ih h
          simp only [Item.size, List.length_append]
          omega

/-- A decoded item is no larger than the bytes that it was decoded from. -/
theorem size_le_of_decodeWith {options : Options} {data : Bytes} {length : Nat}
    (h : decodeWith options data = .ok (item, length)) : item.size ≤ length := by
  obtain ⟨word, rest, -, hword, rfl⟩ := (decodeWith_eq_ok_iff_append ..).mp h
  exact hword.size_le

/-- A map in which a key occurs twice, behind it a byte that does not belong to it. -/
theorem size_le_of_decodeWith_repeated_key :
    decodeWith {} [0xA2, 0x61, 0x61, 0x42, 0x01, 0x02, 0x61, 0x61, 0x81, 0xF6, 0x00] =
        .ok (.map [([0x61], .array [.null])], 10) ∧
      (Item.map [([0x61], .array [.null])]).size = 5 ∧
      (Item.map [([0x61], .array [.null])]).size ≤ 10 := by
  have hdecode : decodeWith {}
      [0xA2, 0x61, 0x61, 0x42, 0x01, 0x02, 0x61, 0x61, 0x81, 0xF6, 0x00] =
        .ok (.map [([0x61], .array [.null])], 10) := by decide
  exact ⟨hdecode, rfl, size_le_of_decodeWith hdecode⟩

end Cbor

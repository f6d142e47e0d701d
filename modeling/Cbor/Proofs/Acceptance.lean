import Cbor.Proofs.Strings

/-!
# Reading encoded items

The reader of items takes every encoding under its budget, whatever follows.
-/

namespace Cbor

/-! ## Rows of items and pairs -/

inductive EncodesPair (budget : Nat) : Bytes → Bytes × Item → Prop
  | mk {keyWord word key : Bytes} {item : Item} :
      EncodesString .text keyWord key → Encodes budget word item →
      EncodesPair budget (keyWord ++ word) (key, item)

theorem encodesItems_iff_row {budget : Nat} {body : Bytes} {items : List Item} :
    EncodesItems budget body items ↔ Row (Encodes budget) body items := by
  constructor
  · intro h
    induction items generalizing body with
    | nil => cases h; exact .nil
    | cons item items ih =>
        cases h with
        | cons hitem hitems => exact .cons hitem (ih hitems)
  · intro h
    induction h with
    | nil => exact .nil
    | cons hitem _ ih => exact .cons hitem ih

theorem encodesPairs_iff_row {budget : Nat} {body : Bytes} {pairs : List (Bytes × Item)} :
    EncodesPairs budget body pairs ↔ Row (EncodesPair budget) body pairs := by
  constructor
  · intro h
    induction pairs generalizing body with
    | nil => cases h; exact .nil
    | cons pair pairs ih =>
        cases h with
        | cons hkey hitem hpairs => exact .cons (.mk hkey hitem) (ih hpairs)
  · intro h
    induction h with
    | nil => exact .nil
    | cons hpair _ ih =>
        cases hpair with
        | mk hkey hitem => exact .cons hkey hitem ih

/-! ## No encoding begins with the break byte -/

theorem EncodesLeaf.continues {word : Bytes} {item : Item} (h : EncodesLeaf word item) :
    Continues word := by
  cases h with
  | unsigned hhead | negative hhead => exact hhead.continues (by decide)
  | bytes hstring | text hstring => exact hstring.continues (by decide)
  | no | yes | null | undefined | half | single | double =>
      exact ⟨_, _, rfl, Head.toByte_ne_breakByte (by decide) (.inr (by decide))⟩

theorem Encodes.continues {budget : Nat} {word : Bytes} {item : Item}
    (h : Encodes budget word item) : Continues word := by
  cases h with
  | leaf hleaf => exact hleaf.continues
  | array hhead | openArray hhead | map hhead | openMap hhead | tagged hhead =>
      exact (hhead.continues (by decide)).append _

theorem EncodesPair.continues {budget : Nat} {word : Bytes} {pair : Bytes × Item}
    (h : EncodesPair budget word pair) : Continues word := by
  obtain ⟨hkey, -⟩ := h
  exact (hkey.continues (by decide)).append _

/-! ## Leaves -/

theorem Simple.readFloat_append {width : Nat} {number : UInt64} (h : number.toNat < 256 ^ width)
    (offset : Nat) (rest : Bytes) :
    Simple.readFloat width ⟨offset, Bytes.ofNat width number.toNat ++ rest⟩ =
      .ok (number, ⟨offset + width, rest⟩) := by
  simp [Simple.readFloat, Cursor.take?_append (Bytes.length_ofNat width number.toNat),
    Bytes.toUInt64_ofNat h]

namespace Item

theorem readOne_leaf {word : Bytes} {item : Item} (h : EncodesLeaf word item) (limit : Nat)
    (inner : Option (Reader Item)) (offset : Nat) (rest : Bytes) :
    readOne limit inner ⟨offset, word ++ rest⟩ = .ok (item, ⟨offset + word.length, rest⟩) := by
  cases h with
  | unsigned hhead =>
      obtain ⟨hargument⟩ := hhead
      simp [readOne, Head.ofByte_toByte hargument.info_lt, Argument.readNumber,
        Argument.read_accepts _ hargument, Nat.add_assoc, Nat.add_comm 1]
  | @negative _ number hhead hnumber =>
      obtain ⟨hargument⟩ := hhead
      have hsize : UInt64.size = 2 ^ 64 := rfl
      have hmagnitude : number.toNat + 1 < UInt64.size := by omega
      simp [readOne, Head.ofByte_toByte hargument.info_lt, Argument.readNumber,
        Argument.read_accepts _ hargument, hmagnitude, Nat.add_assoc, Nat.add_comm 1]
  | bytes hstring =>
      obtain ⟨info, tail, hinfo, rfl, hread⟩ :=
        StringContent.read_of_encodesString (by decide) hstring
      simp [readOne, Head.ofByte_toByte hinfo, hread, Nat.add_assoc, Nat.add_comm 1]
  | text hstring =>
      obtain ⟨info, tail, hinfo, rfl, hread⟩ :=
        StringContent.read_of_encodesString (by decide) hstring
      simp [readOne, Head.ofByte_toByte hinfo, hread, Nat.add_assoc, Nat.add_comm 1]
  | no | yes | null | undefined => rfl
  | @half bits wide hbits hwide =>
      have hnumber : (UInt64.ofNat bits).toNat = bits :=
        UInt64.toNat_ofNat_of_lt' (Nat.lt_trans hbits (by decide))
      have hfits : (UInt64.ofNat bits).toNat < 256 ^ 2 := by omega
      have hread := Simple.readFloat_append hfits (offset + 1) rest
      rw [hnumber] at hread
      simp [readOne, Head.ofByte_toByte, Simple.read, hread, hnumber, ← hwide.eq_widen,
        Nat.add_assoc]
  | single bits =>
      have hbits : bits.toUInt64.toNat < 256 ^ 4 := by simpa using bits.toNat_lt
      have hread := Simple.readFloat_append hbits (offset + 1) rest
      rw [UInt32.toNat_toUInt64] at hread
      simp [readOne, Head.ofByte_toByte, Simple.read, hread, Nat.add_assoc]
  | double bits =>
      have hbits : bits.toNat < 256 ^ 8 := bits.toNat_lt
      have hread := Simple.readFloat_append hbits (offset + 1) rest
      simp [readOne, Head.ofByte_toByte, Simple.read, hread, Nat.add_assoc]

theorem readEntry_accepts {value : Reader Item} {budget : Nat}
    (hvalue : value.Accepts (Encodes budget)) :
    (readEntry value).Accepts (EncodesPair budget) := by
  rintro _ _ ⟨hkey, hitem⟩ offset rest
  obtain ⟨info, tail, hinfo, rfl, hread⟩ := StringContent.read_of_encodesString (by decide) hkey
  simp [readEntry, Head.ofByte_toByte hinfo, hread, hvalue hitem, Nat.add_assoc, Nat.add_comm 1]

/-! ## Containers -/

section

variable {limit : Nat} {head : Bytes}

theorem readOne_array_eq {argument : Argument} (hhead : Head.Spells .array head argument)
    (inner : Option (Reader Item)) (offset : Nat) (rest : Bytes) :
    readOne limit inner ⟨offset, head ++ rest⟩ = (do
      let inner ← descend limit inner
      let (items, cursor) ← readElements inner argument ⟨offset + head.length, rest⟩
      .ok (.array items, cursor)) := by
  obtain ⟨hargument⟩ := hhead
  simp [readOne, Head.ofByte_toByte hargument.info_lt, Argument.read_accepts _ hargument,
    Nat.add_assoc, Nat.add_comm 1]

theorem readOne_map_eq {argument : Argument} (hhead : Head.Spells .map head argument)
    (inner : Option (Reader Item)) (offset : Nat) (rest : Bytes) :
    readOne limit inner ⟨offset, head ++ rest⟩ = (do
      let inner ← descend limit inner
      let (pairs, cursor) ←
        readElements (readEntry inner) argument ⟨offset + head.length, rest⟩
      .ok (.map (Entries.ofPairs pairs), cursor)) := by
  obtain ⟨hargument⟩ := hhead
  simp [readOne, Head.ofByte_toByte hargument.info_lt, Argument.read_accepts _ hargument,
    Nat.add_assoc, Nat.add_comm 1]

theorem readOne_tag_eq {tag : UInt64} (hhead : Head.Spells .tag head (.number tag))
    (inner : Option (Reader Item)) (offset : Nat) (rest : Bytes) :
    readOne limit inner ⟨offset, head ++ rest⟩ = (do
      let inner ← descend limit inner
      let (content, cursor) ← inner ⟨offset + head.length, rest⟩
      .ok (.tagged tag content, cursor)) := by
  obtain ⟨hargument⟩ := hhead
  simp [readOne, Head.ofByte_toByte hargument.info_lt, Argument.readNumber,
    Argument.read_accepts _ hargument, Nat.add_assoc, Nat.add_comm 1]

end

section

variable {limit budget : Nat} {inner : Reader Item} {head body : Bytes}

theorem readOne_array {argument : Argument} {items : List Item}
    (hinner : inner.Accepts (Encodes budget)) (hhead : Head.Spells .array head argument)
    (hitems : Elements (Encodes budget) argument body items) (offset : Nat) (rest : Bytes) :
    readOne limit (some inner) ⟨offset, head ++ body ++ rest⟩ =
      .ok (.array items, ⟨offset + (head ++ body).length, rest⟩) := by
  have hread := readElements_accepts hinner Encodes.continues argument hitems
  rw [List.append_assoc, readOne_array_eq hhead]
  simp [descend, hread, Nat.add_assoc]

theorem readOne_map {argument : Argument} {pairs : List (Bytes × Item)}
    (hinner : inner.Accepts (Encodes budget)) (hhead : Head.Spells .map head argument)
    (hpairs : Elements (EncodesPair budget) argument body pairs) (offset : Nat) (rest : Bytes) :
    readOne limit (some inner) ⟨offset, head ++ body ++ rest⟩ =
      .ok (.map (Entries.ofPairs pairs), ⟨offset + (head ++ body).length, rest⟩) := by
  have hread := readElements_accepts (readEntry_accepts hinner) EncodesPair.continues argument
    hpairs
  rw [List.append_assoc, readOne_map_eq hhead]
  simp [descend, hread, Nat.add_assoc]

theorem readOne_tagged {tag : UInt64} {content : Item}
    (hinner : inner.Accepts (Encodes budget)) (hhead : Head.Spells .tag head (.number tag))
    (hcontent : Encodes budget body content) (offset : Nat) (rest : Bytes) :
    readOne limit (some inner) ⟨offset, head ++ body ++ rest⟩ =
      .ok (.tagged tag content, ⟨offset + (head ++ body).length, rest⟩) := by
  rw [List.append_assoc, readOne_tag_eq hhead]
  simp [descend, hinner hcontent, Nat.add_assoc]

end

theorem read_accepts (limit budget : Nat) : (read limit budget).Accepts (Encodes budget) := by
  -- what a container holds is read under one level less
  induction budget with
  | zero =>
      intro word item h offset rest
      cases h with
      | leaf hleaf => exact readOne_leaf hleaf limit none offset rest
  | succ budget ih =>
      intro word item h offset rest
      cases h with
      | leaf hleaf => exact readOne_leaf hleaf limit _ offset rest
      | array hhead hitems hcount =>
          exact readOne_array ih hhead (.counted (encodesItems_iff_row.mp hitems) hcount)
            offset rest
      | openArray hhead hitems =>
          exact readOne_array ih hhead (.untilBreak (encodesItems_iff_row.mp hitems)) offset rest
      | map hhead hpairs hcount =>
          exact readOne_map ih hhead (.counted (encodesPairs_iff_row.mp hpairs) hcount) offset rest
      | openMap hhead hpairs =>
          exact readOne_map ih hhead (.untilBreak (encodesPairs_iff_row.mp hpairs)) offset rest
      | tagged hhead hcontent => exact readOne_tagged ih hhead hcontent offset rest

end Item

end Cbor

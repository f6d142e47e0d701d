import Cbor.Proofs.Contexts

/-!
# Reading faulty input

The reader of items fails with the first fault of its input.
-/

namespace Cbor

theorem Simple.readFloat_of_lt {width : Nat} {rest : Bytes} (h : rest.length < width)
    (offset : Nat) :
    Simple.readFloat width ⟨offset, rest⟩ = .error (.incompleteFloat (8 * width)) := by
  simp [Simple.readFloat, Cursor.take?_of_lt h]

theorem Simple.read_of_invalid {info : Nat} (h : info < 20 ∨ info = 24 ∨ 28 ≤ info)
    (cursor : Cursor) : Simple.read info cursor = .error (.invalidInfo info) := by
  unfold Simple.read
  split
  case h_8 => rfl
  all_goals omega

namespace Item

variable {limit budget : Nat}

/-! ## Entries -/

theorem readEntry_textFault {value : Reader Item} {input : Bytes} {error : DecodeError}
    (h : StringFault .text input error) (offset : Nat) :
    readEntry value ⟨offset, input⟩ = .error error := by
  obtain ⟨info, tail, hinfo, rfl, hread⟩ := StringContent.read_of_stringFault (by decide) h
  simp [readEntry, Head.ofByte_toByte hinfo, hread]

theorem readEntry_rejects {value : Reader Item}
    (hvalue : value.Rejects (FirstFault limit budget (.item false))) :
    (readEntry value).Rejects (EntryFault limit budget) := by
  intro input error hfault offset
  cases hfault with
  | key hkey =>
      rcases firstFault_key_iff.mp hkey with hslot | htext
      · cases hslot with
        | element hkey =>
            cases hkey with
            | ended => rfl
            | major hinfo hmajor => simp [readEntry, Head.ofByte_toByte hinfo, hmajor]
            | head hhead => exact readEntry_textFault (.head hhead) offset
            | content hcontent => exact readEntry_textFault (.content hcontent) offset
      · exact readEntry_textFault htext offset
  | value hkey hfault =>
      obtain ⟨info, tail, hinfo, rfl, hread⟩ :=
        StringContent.read_of_encodesString (by decide) hkey
      simp [readEntry, Head.ofByte_toByte hinfo, hread, hvalue hfault]

/-! ## Immediate faults and strings -/

theorem readOne_stringFault {major : Major} (hmajor : major ∈ [Major.bytes, .text])
    {input : Bytes} {error : DecodeError} (h : StringFault major input error)
    (inner : Option (Reader Item)) (offset : Nat) :
    readOne limit inner ⟨offset, input⟩ = .error error := by
  simp only [List.mem_cons, List.not_mem_nil, or_false] at hmajor
  rcases hmajor with rfl | rfl
  all_goals
    obtain ⟨info, tail, hinfo, rfl, hread⟩ := StringContent.read_of_stringFault (by decide) h
    simp [readOne, Head.ofByte_toByte hinfo, hread]

theorem readOne_headFault {major : Major} (hmajor : major ≠ .simple) {input : Bytes}
    {error : DecodeError} (h : Head.Fault major input error) (inner : Option (Reader Item))
    (offset : Nat) : readOne limit inner ⟨offset, input⟩ = .error error := by
  obtain ⟨hargument⟩ := h
  have hread := Argument.read_rejects _ hargument (offset + 1)
  cases major with
  | simple => contradiction
  | unsigned | negative | tag =>
      simp [readOne, Head.ofByte_toByte hargument.info_lt, Argument.readNumber, hread]
  | bytes | text =>
      simp [readOne, Head.ofByte_toByte hargument.info_lt, StringContent.read, hread]
  | array | map => simp [readOne, Head.ofByte_toByte hargument.info_lt, hread]

theorem readOne_opensLevel {head : Bytes} (h : Head.OpensLevel head) (offset : Nat)
    (rest : Bytes) :
    readOne limit none ⟨offset, head ++ rest⟩ = .error (.depthExceeded limit) := by
  cases h with
  | array hhead => rw [readOne_array_eq hhead]; rfl
  | map hhead => rw [readOne_map_eq hhead]; rfl
  | tag hhead => rw [readOne_tag_eq hhead]; rfl

theorem readOne_itemFault {input : Bytes} {error : DecodeError}
    (h : ItemFault limit budget input error) {inner : Option (Reader Item)}
    (hinner : budget = 0 → inner = none) (offset : Nat) :
    readOne limit inner ⟨offset, input⟩ = .error error := by
  cases h with
  | ended => rfl
  | head hmajor hhead => exact readOne_headFault hmajor hhead inner offset
  | indefinite hmajor hhead =>
      obtain ⟨hargument⟩ := hhead
      cases hargument
      simp only [List.mem_cons, List.not_mem_nil, or_false] at hmajor
      rcases hmajor with rfl | rfl | rfl <;> rfl
  | overflow hhead hnumber =>
      obtain ⟨hargument⟩ := hhead
      have hsize : UInt64.size = 2 ^ 64 := rfl
      simp [readOne, Head.ofByte_toByte hargument.info_lt, Argument.readNumber,
        Argument.read_accepts _ hargument, hnumber, hsize]
  | content hmajor hcontent => exact readOne_stringFault hmajor (.content hcontent) inner offset
  | @simple info rest hinfo =>
      have hlt : info < 32 := by omega
      have hinvalid : info < 20 ∨ info = 24 ∨ 28 ≤ info := by omega
      have hread := Simple.read_of_invalid hinvalid ⟨offset + 1, rest⟩
      simp [readOne, Head.ofByte_toByte hlt, hread]
  | float hwidth hcut =>
      have hread := Simple.readFloat_of_lt hcut (offset + 1)
      simp only [Simple.widths, List.mem_cons, Prod.mk.injEq, List.not_mem_nil, or_false] at hwidth
      rcases hwidth with ⟨rfl, rfl⟩ | ⟨rfl, rfl⟩ | ⟨rfl, rfl⟩
      all_goals simp [readOne, Head.ofByte_toByte, Simple.read, hread]
  | depth hbudget hhead =>
      rw [hinner hbudget]
      exact readOne_opensLevel hhead offset _

/-! ## Levels -/

theorem readOne_levelFault {inner : Reader Item} (haccepts : inner.Accepts (Encodes budget))
    (hrejects : inner.Rejects (FirstFault limit budget (.item false))) {input : Bytes}
    {error : DecodeError} (h : LevelFault limit budget input error) (offset : Nat) :
    readOne limit (some inner) ⟨offset, input⟩ = .error error := by
  cases h with
  | array hhead hfault =>
      have hread := readElements_rejects haccepts hrejects Encodes.continues _ hfault
      rw [readOne_array_eq hhead]
      simp [descend, hread]
  | map hhead hfault =>
      have hread := readElements_rejects (readEntry_accepts haccepts)
        (readEntry_rejects hrejects) EncodesPair.continues _ hfault
      rw [readOne_map_eq hhead]
      simp [descend, hread]
  | tag hhead hfault =>
      rw [readOne_tag_eq hhead]
      simp [descend, hrejects hfault]

theorem read_rejects (limit budget : Nat) :
    (read limit budget).Rejects (FirstFault limit budget (.item false)) := by
  induction budget with
  | zero =>
      intro input error hfault offset
      rcases firstFault_cases hfault with hitem | ⟨major, hmajor, hstring⟩ | ⟨left, hleft, -⟩
      · exact readOne_itemFault hitem (fun _ => rfl) offset
      · exact readOne_stringFault hmajor hstring none offset
      · contradiction
  | succ budget ih =>
      intro input error hfault offset
      rcases firstFault_cases hfault with hitem | ⟨major, hmajor, hstring⟩ | ⟨left, hleft, hlevel⟩
      · exact readOne_itemFault hitem (by simp) offset
      · exact readOne_stringFault hmajor hstring _ offset
      · cases hleft
        exact readOne_levelFault (read_accepts limit budget) ih hlevel offset

end Item

end Cbor

import Cbor.Proofs.Faults

/-!
# Reading heads and strings

The readers of arguments, contents and chunks accept what the grammar spells and reject its
faults.  The number of an argument is exactly the one that its bytes are the digits of.
-/

namespace Cbor

open Bytes

/-! ## Arguments -/

namespace Argument

theorem width_le_of_mem_widths {info width : Nat} (h : (info, width) ∈ widths) : width ≤ 8 := by
  simp [widths] at h
  omega

theorem exists_mem_widths {info : Nat} (hlower : 24 ≤ info) (hupper : info < 28) :
    ∃ width, (info, width) ∈ widths := by
  obtain rfl | rfl | rfl | rfl : info = 24 ∨ info = 25 ∨ info = 26 ∨ info = 27 := by omega
  · exact ⟨1, by decide⟩
  · exact ⟨2, by decide⟩
  · exact ⟨4, by decide⟩
  · exact ⟨8, by decide⟩

theorem read_of_mem_widths {info width : Nat} (h : (info, width) ∈ widths) :
    read info = readWide width := by
  simp only [widths, List.mem_cons, Prod.mk.injEq, List.not_mem_nil, or_false] at h
  rcases h with ⟨rfl, rfl⟩ | ⟨rfl, rfl⟩ | ⟨rfl, rfl⟩ | ⟨rfl, rfl⟩ <;> rfl

theorem Spells.of_digits {info width : Nat} {digits : Bytes} (hwidth : (info, width) ∈ widths)
    (hlength : digits.length = width) : Spells info digits (.number (toUInt64 digits)) := by
  subst hlength
  have hwritten := ofNat_toUInt64 (width_le_of_mem_widths hwidth)
  have hspells := Spells.wide hwidth (toUInt64_lt digits)
  rwa [hwritten] at hspells

theorem Fault.info_lt {info : Nat} {input : Bytes} {error : DecodeError}
    (h : Fault info input error) : info < 32 := by
  cases h with
  | reserved hlower hupper => omega
  | cut hwidth hcut => exact Nat.lt_trans (info_lt_of_mem_widths hwidth) (by decide)

theorem read_accepts (info : Nat) : (read info).Accepts (Spells info) := by
  intro word argument hspells offset rest
  cases hspells with
  | small hinfo => simp [read, hinfo]
  | @wide _ width number hwidth hfits =>
      have htake := Cursor.take?_append (length_ofNat width number.toNat) offset rest
      rw [read_of_mem_widths hwidth]
      simp [readWide, htake, toUInt64_ofNat hfits]
  | indefinite => rfl

theorem read_rejects (info : Nat) : (read info).Rejects (Fault info) := by
  intro input error hfault offset
  cases hfault with
  | reserved hlower hupper =>
      obtain rfl | rfl | rfl : info = 28 ∨ info = 29 ∨ info = 30 := by omega
      all_goals rfl
  | cut hwidth hcut => simp [read_of_mem_widths hwidth, readWide, Cursor.take?_of_lt hcut]

theorem covers {info : Nat} (hinfo : info < 32) (input : Bytes) :
    Covers (Spells info) (Fault info) input := by
  by_cases hsmall : info < 24
  · exact .inl ⟨[], _, input, rfl, .small hsmall⟩
  by_cases hindefinite : info = 31
  · subst hindefinite
    exact .inl ⟨[], _, input, rfl, .indefinite⟩
  by_cases hreserved : 28 ≤ info
  · exact .inr ⟨_, .reserved hreserved (by omega)⟩
  obtain ⟨width, hwidth⟩ := exists_mem_widths (Nat.le_of_not_lt hsmall) (Nat.lt_of_not_le hreserved)
  by_cases hcut : input.length < width
  · exact .inr ⟨_, .cut hwidth hcut⟩
  · refine .inl ⟨input.take width, _, input.drop width, by simp, .of_digits hwidth ?_⟩
    rw [List.length_take]
    omega

theorem read_ofNat {info width number : Nat} (hwidth : (info, width) ∈ widths)
    (hfits : number < 256 ^ width) (offset : Nat) (tail : Bytes) :
    read info ⟨offset, ofNat width number ++ tail⟩ =
      .ok (.number (UInt64.ofNat number), ⟨offset + width, tail⟩) := by
  have hbound : number < 2 ^ 64 := lt_of_lt_pow_width hfits (width_le_of_mem_widths hwidth)
  have hnumber : (UInt64.ofNat number).toNat = number := UInt64.toNat_ofNat_of_lt' hbound
  have hspells : Spells info (ofNat width number) (.number (UInt64.ofNat number)) := by
    rw [← hnumber] at hfits
    have hwide := Spells.wide hwidth hfits
    rwa [hnumber] at hwide
  have hread := read_accepts info hspells offset tail
  rwa [length_ofNat] at hread

theorem read_eq_argumentTooShort_iff {info width : Nat} (hwidth : (info, width) ∈ widths)
    (offset : Nat) (input : Bytes) :
    read info ⟨offset, input⟩ = .error (.argumentTooShort width) ↔ input.length < width := by
  have hinfo : info < 32 := Nat.lt_trans (info_lt_of_mem_widths hwidth) (by decide)
  rw [Reader.eq_error_iff (read_accepts info) (read_rejects info) (covers hinfo input)]
  constructor
  · intro hfault
    cases hfault with
    | cut _ hcut => exact hcut
  · exact .cut hwidth

/--
Big-endian numbers are read exactly.  Any number of bytes, shifted in one after another, gives
the number that they are the digits of, modulo `2 ^ 64`, so that only the last eight count.
Where an argument of some width is announced, each number that fits is read from its digits,
whatever follows, and the bytes are too short exactly if they are fewer than the width.
-/
theorem read_bigEndian (bytes : Bytes) :
    (bytes.foldl shiftIn 0 = toUInt64 bytes ∧
      (toUInt64 bytes).toNat = Nat.ofDigits 256 (bytes.reverse.map UInt8.toNat) % 2 ^ 64 ∧
      toUInt64 bytes = toUInt64 (bytes.drop (bytes.length - 8))) ∧
    ∀ info width, (info, width) ∈ widths →
      (∀ number < 256 ^ width, ∀ offset tail,
        read info ⟨offset, ofNat width number ++ tail⟩ =
          .ok (.number (UInt64.ofNat number), ⟨offset + width, tail⟩)) ∧
      ∀ offset input,
        read info ⟨offset, input⟩ = .error (.argumentTooShort width) ↔ input.length < width := by
  refine ⟨⟨foldl_shiftIn bytes, ?_, (toUInt64_drop bytes).symm⟩, fun info width hwidth => ⟨?_, ?_⟩⟩
  · rw [toNat_toUInt64, toNat_eq_ofDigits]
  · intro number hfits offset tail
    exact read_ofNat hwidth hfits offset tail
  · exact read_eq_argumentTooShort_iff hwidth

/-- Of nine bytes the first is lost; two bytes are the number that is announced, and seven bytes
are no number of eight. -/
theorem read_bigEndian_nine_bytes :
    toUInt64 [0xAB, 0x01, 0, 0, 0, 0, 0, 0, 0x02] = 0x0100000000000002 ∧
      (25, 2) ∈ widths ∧ 0xFF01 < 256 ^ 2 ∧
      read 25 ⟨3, [0xFF, 0x01] ++ [0x07]⟩ = .ok (.number 0xFF01, ⟨5, [0x07]⟩) ∧
      (27, 8) ∈ widths ∧ read 27 ⟨0, [1, 2, 3, 4, 5, 6, 7]⟩ = .error (.argumentTooShort 8) := by
  obtain ⟨⟨-, -, hlast⟩, hread⟩ := read_bigEndian [0xAB, 0x01, 0, 0, 0, 0, 0, 0, 0x02]
  refine ⟨hlast.trans rfl, by decide, by decide, ?_, by decide, ?_⟩
  · exact (hread 25 2 (by decide)).1 0xFF01 (by decide) 3 [0x07]
  · exact ((hread 27 8 (by decide)).2 0 [1, 2, 3, 4, 5, 6, 7]).mpr (by decide)

end Argument

/-! ## Heads -/

namespace Head

theorem toByte_ne_breakByte {major : Major} {info : Nat} (hinfo : info < 32)
    (h : major ≠ .simple ∨ info ≠ 31) : toByte ⟨major, info⟩ ≠ breakByte := by
  intro hbreak
  have hhead : ofByte (toByte ⟨major, info⟩) = ofByte breakByte := by rw [hbreak]
  rw [ofByte_toByte hinfo] at hhead
  cases hhead
  rcases h with hmajor | hinfo
  · exact hmajor rfl
  · exact hinfo rfl

theorem Spells.continues {major : Major} {word : Bytes} {argument : Argument}
    (h : Spells major word argument) (hmajor : major ≠ .simple) : Continues word := by
  cases h with
  | mk hargument => exact ⟨_, _, rfl, toByte_ne_breakByte hargument.info_lt (.inl hmajor)⟩

theorem covers {major : Major} {info : Nat} (hinfo : info < 32) (rest : Bytes) :
    Covers (Spells major) (Fault major) (toByte ⟨major, info⟩ :: rest) := by
  rcases Argument.covers hinfo rest with ⟨word, argument, rest, rfl, hargument⟩ | ⟨error, hfault⟩
  · exact .inl ⟨_, argument, rest, rfl, .mk hargument⟩
  · exact .inr ⟨error, .mk hfault⟩

end Head

theorem exists_eq_toByte (byte : UInt8) :
    ∃ major info, info < 32 ∧ byte = Head.toByte ⟨major, info⟩ :=
  ⟨_, _, Head.info_lt byte, (Head.toByte_ofByte byte).symm⟩

/-! ## Content and chunks -/

namespace StringContent

theorem readDefinite_append {length : UInt64} {content : Bytes}
    (h : content.length = length.toNat) (offset : Nat) (rest : Bytes) :
    readDefinite length ⟨offset, content ++ rest⟩ =
      .ok (content, ⟨offset + length.toNat, rest⟩) := by
  simp [readDefinite, Cursor.take?_append h]

theorem readDefinite_of_lt {length : UInt64} {rest : Bytes} (h : rest.length < length.toNat)
    (offset : Nat) :
    readDefinite length ⟨offset, rest⟩ = .error (.contentTooShort length.toNat) := by
  simp [readDefinite, Cursor.take?_of_lt h]

theorem readChunk_accepts (major : Major) :
    (readChunk major).Accepts (EncodesChunk major) := by
  rintro _ content ⟨⟨hargument⟩, hlength⟩ offset rest
  simp [readChunk, Head.ofByte_toByte hargument.info_lt, Argument.read_accepts _ hargument,
    Except.mapError, readDefinite_append hlength, hlength, Nat.add_assoc, Nat.add_comm 1]

theorem readChunk_rejects (major : Major) : (readChunk major).Rejects (ChunkFault major) := by
  intro input error hfault offset
  cases hfault with
  | major hinfo hmajor => simp [readChunk, Head.ofByte_toByte hinfo, hmajor]
  | head hhead =>
      cases hhead with
      | mk hargument =>
          simp [readChunk, Head.ofByte_toByte hargument.info_lt,
            Argument.read_rejects _ hargument, Except.mapError]
  | indefinite hhead =>
      cases hhead with
      | mk hargument =>
          simp [readChunk, Head.ofByte_toByte hargument.info_lt,
            Argument.read_accepts _ hargument, Except.mapError]
  | content hcontent =>
      obtain ⟨⟨hargument⟩, hcut⟩ := hcontent
      simp [readChunk, Head.ofByte_toByte hargument.info_lt, Argument.read_accepts _ hargument,
        Except.mapError, readDefinite_of_lt hcut]

end StringContent

theorem EncodesChunk.continues {major : Major} (hmajor : major ≠ .simple) {word content : Bytes}
    (h : EncodesChunk major word content) : Continues word := by
  obtain ⟨hhead, -⟩ := h
  exact (hhead.continues hmajor).append _

theorem content_covers {major : Major} {head : Bytes} {length : UInt64}
    (hhead : Head.Spells major head (.number length)) (rest : Bytes) :
    Covers (EncodesChunk major) (ContentFault major) (head ++ rest) := by
  by_cases hcut : rest.length < length.toNat
  · exact .inr ⟨_, .mk hhead hcut⟩
  · refine .inl ⟨head ++ rest.take length.toNat, _, rest.drop length.toNat, by simp,
      .mk hhead ?_⟩
    rw [List.length_take]
    omega

theorem chunk_covers (string : Major) {input : Bytes} (hinput : Continues input) :
    Covers (EncodesChunk string) (ChunkFault string) input := by
  obtain ⟨byte, rest, rfl, -⟩ := hinput
  obtain ⟨major, info, hinfo, rfl⟩ := exists_eq_toByte byte
  by_cases hmajor : major = string
  · subst hmajor
    rcases Head.covers hinfo rest with ⟨head, argument, rest, hsplit, hhead⟩ | ⟨error, hfault⟩
    · rw [hsplit]
      cases argument with
      | number length =>
          rcases content_covers hhead rest with hchunk | ⟨error, hfault⟩
          · exact .inl hchunk
          · exact .inr ⟨_, .content hfault⟩
      | indefinite => exact .inr ⟨_, .indefinite hhead⟩
    · exact .inr ⟨_, .head hfault⟩
  · exact .inr ⟨_, .major hinfo hmajor⟩

/-! ## Whole strings -/

/-- The first fault of a string whose first byte has the major type. -/
inductive StringFault (major : Major) : Bytes → DecodeError → Prop
  | head {input : Bytes} {error : DecodeError} :
      Head.Fault major input error → StringFault major input error
  | content {input : Bytes} {error : DecodeError} :
      ContentFault major input error → StringFault major input error
  | chunk {head rest : Bytes} {error : DecodeError} :
      Head.Spells major head .indefinite →
      ElementsFault (EncodesChunk major) (ChunkFault major) .indefinite rest error →
      StringFault major (head ++ rest) error

theorem EncodesString.continues {major : Major} (hmajor : major ≠ .simple) {word content : Bytes}
    (h : EncodesString major word content) : Continues word := by
  cases h with
  | definite hchunk => exact hchunk.continues hmajor
  | chunked hhead hrow => exact (hhead.continues hmajor).append _

theorem Head.Fault.continues {major : Major} (hmajor : major ≠ .simple) {input : Bytes}
    {error : DecodeError} (h : Head.Fault major input error) : Continues input := by
  obtain ⟨hargument⟩ := h
  exact ⟨_, _, rfl, Head.toByte_ne_breakByte hargument.info_lt (.inl hmajor)⟩

theorem StringFault.continues {major : Major} (hmajor : major ≠ .simple) {input : Bytes}
    {error : DecodeError} (h : StringFault major input error) : Continues input := by
  cases h with
  | head hhead => exact hhead.continues hmajor
  | content hcontent =>
      obtain ⟨hhead, -⟩ := hcontent
      exact (hhead.continues hmajor).append _
  | chunk hhead => exact (hhead.continues hmajor).append _

theorem string_covers {major : Major} (hmajor : major ≠ .simple) {info : Nat} (hinfo : info < 32)
    (rest : Bytes) :
    Covers (EncodesString major) (StringFault major) (Head.toByte ⟨major, info⟩ :: rest) := by
  rcases Head.covers hinfo rest with ⟨head, argument, rest, hsplit, hhead⟩ | ⟨error, hfault⟩
  · rw [hsplit]
    cases argument with
    | number length =>
        rcases content_covers hhead rest with ⟨word, content, rest, hword, hchunk⟩ | ⟨error, hfault⟩
        · exact .inl ⟨word, content, rest, hword, .definite hchunk⟩
        · exact .inr ⟨error, .content hfault⟩
    | indefinite =>
        rcases untilBreak_covers (fun input => chunk_covers major)
            (fun hword => hword.continues hmajor) rest with
          ⟨_, chunks, rest, rfl, helements⟩ | ⟨error, hfault⟩
        · cases helements with
          | untilBreak hrow =>
              exact .inl ⟨_, chunks.flatten, rest, (List.append_assoc ..).symm, .chunked hhead hrow⟩
        · exact .inr ⟨error, .chunk hhead hfault⟩
  · exact .inr ⟨error, .head hfault⟩

namespace StringContent

theorem read_of_encodesString {major : Major} (hmajor : major ≠ .simple) {word content : Bytes}
    (h : EncodesString major word content) :
    ∃ info tail, info < 32 ∧ word = Head.toByte ⟨major, info⟩ :: tail ∧
      ∀ offset rest, read ⟨major, info⟩ ⟨offset, tail ++ rest⟩ =
        .ok (content, ⟨offset + tail.length, rest⟩) := by
  cases h with
  | definite hchunk =>
      obtain ⟨⟨hargument⟩, hlength⟩ := hchunk
      refine ⟨_, _, hargument.info_lt, List.cons_append, fun offset rest => ?_⟩
      simp [read, Argument.read_accepts _ hargument, readDefinite_append hlength, hlength,
        Nat.add_assoc]
  | chunked hhead hrow =>
      obtain ⟨hargument⟩ := hhead
      have helements := Item.readElements_accepts (readChunk_accepts major)
        (fun hword => hword.continues hmajor) .indefinite (.untilBreak hrow)
      simp only [Item.readElements] at helements
      refine ⟨_, _, hargument.info_lt, List.cons_append, fun offset rest => ?_⟩
      rw [List.append_assoc]
      simp only [read, Argument.read_accepts _ hargument, ok_bind, helements]
      simp [Nat.add_assoc]

theorem read_of_stringFault {major : Major} (hmajor : major ≠ .simple) {input : Bytes}
    {error : DecodeError} (h : StringFault major input error) :
    ∃ info tail, info < 32 ∧ input = Head.toByte ⟨major, info⟩ :: tail ∧
      ∀ offset, read ⟨major, info⟩ ⟨offset, tail⟩ = .error error := by
  cases h with
  | head hhead =>
      obtain ⟨hargument⟩ := hhead
      refine ⟨_, _, hargument.info_lt, rfl, fun offset => ?_⟩
      simp [read, Argument.read_rejects _ hargument]
  | content hcontent =>
      obtain ⟨⟨hargument⟩, hcut⟩ := hcontent
      refine ⟨_, _, hargument.info_lt, List.cons_append, fun offset => ?_⟩
      simp [read, Argument.read_accepts _ hargument, readDefinite_of_lt hcut]
  | chunk hhead hfault =>
      obtain ⟨hargument⟩ := hhead
      have helements := Item.readElements_rejects (readChunk_accepts major)
        (readChunk_rejects major) (fun hword => hword.continues hmajor) .indefinite hfault
      simp only [Item.readElements] at helements
      refine ⟨_, _, hargument.info_lt, List.cons_append, fun offset => ?_⟩
      simp [read, Argument.read_accepts _ hargument, helements]

end StringContent

end Cbor

import Cbor.Proofs.Rejection

/-!
# What decoding accepts and rejects

Every input begins with an encoding or has a first fault, so the reader, which takes the one and
fails with the other, decides the grammar and reports exactly the first fault.
-/

namespace Cbor

variable {limit budget : Nat}

/-! ## Leaves and levels -/

theorem EncodesLeaf.exists_of_digits {info width : Nat} (hwidth : (info, width) ∈ Simple.widths)
    {digits : Bytes} (hlength : digits.length = width) :
    ∃ item, EncodesLeaf (Head.toByte ⟨.simple, info⟩ :: digits) item := by
  have hle : digits.length ≤ 8 := by
    simp only [Simple.widths, List.mem_cons, Prod.mk.injEq, List.not_mem_nil, or_false] at hwidth
    omega
  have hnumber := Bytes.toUInt64_lt digits
  have hwritten := Bytes.ofNat_toUInt64 hle
  rw [hlength] at hnumber hwritten
  generalize Bytes.toUInt64 digits = number at hnumber hwritten
  rw [← hwritten]
  simp only [Simple.widths, List.mem_cons, Prod.mk.injEq, List.not_mem_nil, or_false] at hwidth
  rcases hwidth with ⟨rfl, rfl⟩ | ⟨rfl, rfl⟩ | ⟨rfl, rfl⟩
  · have hwide := FloatFormat.widensHalf_widen (show number.toNat < 2 ^ 16 from hnumber)
    have hnat := UInt32.toNat_ofNat_of_lt' hwide.lt
    rw [← hnat] at hwide
    exact ⟨_, .half hnumber hwide⟩
  · have hnat : number.toUInt32.toNat = number.toNat := by
      rw [UInt64.toNat_toUInt32, Nat.mod_eq_of_lt (show number.toNat < 2 ^ 32 from hnumber)]
    rw [← hnat]
    exact ⟨_, .single _⟩
  · exact ⟨_, .double _⟩

theorem float_covers {info width : Nat} (hwidth : (info, width) ∈ Simple.widths)
    (rest : Bytes) :
    Covers EncodesLeaf (ItemFault limit budget) (Head.toByte ⟨.simple, info⟩ :: rest) := by
  by_cases hcut : rest.length < width
  · exact .inr ⟨_, .float hwidth hcut⟩
  have hlength : (rest.take width).length = width := by
    rw [List.length_take]
    omega
  obtain ⟨item, hleaf⟩ := EncodesLeaf.exists_of_digits hwidth hlength
  refine .inl ⟨_, item, rest.drop width, ?_, hleaf⟩
  rw [List.cons_append, List.take_append_drop]

theorem simple_covers {info : Nat} (hinfo : info < 32) (rest : Bytes) :
    Covers EncodesLeaf (ItemFault limit budget) (Head.toByte ⟨.simple, info⟩ :: rest) := by
  by_cases hinvalid : info < 20 ∨ info = 24 ∨ 28 ≤ info ∧ info < 32
  · exact .inr ⟨_, .simple hinvalid⟩
  obtain rfl | rfl | rfl | rfl | rfl | rfl | rfl : info = 20 ∨ info = 21 ∨ info = 22 ∨
      info = 23 ∨ info = 25 ∨ info = 26 ∨ info = 27 := by omega
  · exact .inl ⟨_, _, rest, rfl, .no⟩
  · exact .inl ⟨_, _, rest, rfl, .yes⟩
  · exact .inl ⟨_, _, rest, rfl, .null⟩
  · exact .inl ⟨_, _, rest, rfl, .undefined⟩
  · exact @float_covers limit budget 25 2 (by decide) rest
  · exact @float_covers limit budget 26 4 (by decide) rest
  · exact @float_covers limit budget 27 8 (by decide) rest

theorem leaf_covers (limit budget : Nat) (input : Bytes) :
    Covers EncodesLeaf (FirstFault limit budget (.item false)) input ∨
      ∃ head rest, input = head ++ rest ∧ Head.OpensLevel head := by
  cases input with
  | nil => exact .inl (.inr ⟨_, .of_itemFault .ended⟩)
  | cons byte rest =>
      obtain ⟨major, info, hinfo, rfl⟩ := exists_eq_toByte byte
      by_cases hsimple : major = .simple
      · subst hsimple
        exact .inl ((simple_covers hinfo rest).imp_right fun ⟨error, hfault⟩ =>
          ⟨error, .of_itemFault hfault⟩)
      by_cases hstring : major ∈ [Major.bytes, .text]
      · rcases string_covers hsimple hinfo rest with
          ⟨word, content, rest, hsplit, hword⟩ | ⟨error, hfault⟩
        · simp only [List.mem_cons, List.not_mem_nil, or_false] at hstring
          rcases hstring with rfl | rfl
          · exact .inl (.inl ⟨word, _, rest, hsplit, .bytes hword⟩)
          · exact .inl (.inl ⟨word, _, rest, hsplit, .text hword⟩)
        · exact .inl (.inr ⟨error, .of_stringFault hstring hfault⟩)
      rcases Head.covers hinfo rest with ⟨head, argument, rest, hsplit, hhead⟩ | ⟨error, hfault⟩
      · rw [hsplit]
        cases major with
        | simple | bytes | text => simp at hsimple hstring
        | array => exact .inr ⟨head, rest, rfl, .array hhead⟩
        | map => exact .inr ⟨head, rest, rfl, .map hhead⟩
        | unsigned =>
            cases argument with
            | number number => exact .inl (.inl ⟨head, _, rest, rfl, .unsigned hhead⟩)
            | indefinite => exact .inl (.inr ⟨_, .of_itemFault (.indefinite (by decide) hhead)⟩)
        | negative =>
            cases argument with
            | number number =>
                by_cases hnumber : number.toNat < 2 ^ 64 - 1
                · exact .inl (.inl ⟨head, _, rest, rfl, .negative hhead hnumber⟩)
                · have hlt := number.toNat_lt
                  exact .inl (.inr ⟨_, .of_itemFault (.overflow hhead (by omega))⟩)
            | indefinite => exact .inl (.inr ⟨_, .of_itemFault (.indefinite (by decide) hhead)⟩)
        | tag =>
            cases argument with
            | number tag => exact .inr ⟨head, rest, rfl, .tag hhead⟩
            | indefinite => exact .inl (.inr ⟨_, .of_itemFault (.indefinite (by decide) hhead)⟩)
      · exact .inl (.inr ⟨error, .of_itemFault (.head hsimple hfault)⟩)

theorem entry_covers (hcovers : ∀ input,
      Covers (Encodes budget) (FirstFault limit budget (.item false)) input) (input : Bytes) :
    Covers (EncodesPair budget) (EntryFault limit budget) input := by
  have himmediate : ∀ {input error}, KeyFault input error → EntryFault limit budget input error :=
    fun hkey => .key (.mk .here (.element hkey))
  cases input with
  | nil => exact .inr ⟨_, himmediate .ended⟩
  | cons byte rest =>
      obtain ⟨major, info, hinfo, rfl⟩ := exists_eq_toByte byte
      by_cases htext : major = .text
      · subst htext
        rcases string_covers (show Major.text ≠ .simple by decide) hinfo rest with
          ⟨keyWord, key, rest, hsplit, hkey⟩ | ⟨error, hfault⟩
        · rw [hsplit]
          rcases hcovers rest with ⟨word, item, rest, rfl, hitem⟩ | ⟨error, hfault⟩
          · exact .inl ⟨keyWord ++ word, _, rest, by rw [List.append_assoc], .mk hkey hitem⟩
          · exact .inr ⟨error, .value hkey hfault⟩
        · exact .inr ⟨error, .key (.of_textFault hfault)⟩
      · exact .inr ⟨_, himmediate (.major hinfo htext)⟩

theorem level_covers (hcovers : ∀ input,
      Covers (Encodes budget) (FirstFault limit budget (.item false)) input)
    {head : Bytes} (hhead : Head.OpensLevel head) (rest : Bytes) :
    Covers (Encodes (budget + 1)) (LevelFault limit budget) (head ++ rest) := by
  cases hhead with
  | @array argument hhead =>
      rcases elements_covers hcovers Encodes.continues argument rest with
        ⟨body, items, rest, rfl, helements⟩ | ⟨error, hfault⟩
      · refine .inl ⟨head ++ body, .array items, rest, (List.append_assoc ..).symm, ?_⟩
        cases helements with
        | counted hrow hcount => exact .array hhead (encodesItems_iff_row.mpr hrow) hcount
        | untilBreak hrow => exact .openArray hhead (encodesItems_iff_row.mpr hrow)
      · exact .inr ⟨error, .array hhead hfault⟩
  | @map argument hhead =>
      rcases elements_covers (entry_covers hcovers) EncodesPair.continues argument rest with
        ⟨body, pairs, rest, rfl, helements⟩ | ⟨error, hfault⟩
      · refine .inl ⟨head ++ body, .map (Entries.ofPairs pairs), rest,
          (List.append_assoc ..).symm, ?_⟩
        cases helements with
        | counted hrow hcount => exact .map hhead (encodesPairs_iff_row.mpr hrow) hcount
        | untilBreak hrow => exact .openMap hhead (encodesPairs_iff_row.mpr hrow)
      · exact .inr ⟨error, .map hhead hfault⟩
  | tag hhead =>
      rcases hcovers rest with ⟨word, content, rest, rfl, hcontent⟩ | ⟨error, hfault⟩
      · exact .inl ⟨head ++ word, _, rest, (List.append_assoc ..).symm, .tagged hhead hcontent⟩
      · exact .inr ⟨error, .tag hhead hfault⟩

/-- Every input begins with an encoding under the budget or has a first fault. -/
theorem item_covers (limit budget : Nat) (input : Bytes) :
    Covers (Encodes budget) (FirstFault limit budget (.item false)) input := by
  induction budget generalizing input with
  | zero =>
      -- no level is left, so a head that opens one is refused
      rcases leaf_covers limit 0 input with hleaf | ⟨head, rest, rfl, hhead⟩
      · exact hleaf.imp_left fun ⟨word, item, rest, hsplit, hleaf⟩ =>
          ⟨word, item, rest, hsplit, .leaf hleaf⟩
      · exact .inr ⟨_, .of_itemFault (.depth rfl hhead)⟩
  | succ budget ih =>
      rcases leaf_covers limit (budget + 1) input with hleaf | ⟨head, rest, rfl, hhead⟩
      · exact hleaf.imp_left fun ⟨word, item, rest, hsplit, hleaf⟩ =>
          ⟨word, item, rest, hsplit, .leaf hleaf⟩
      · exact (level_covers ih hhead rest).imp_right fun ⟨error, hfault⟩ =>
          ⟨error, .of_levelFault hfault⟩

/-! ## The first item of the data -/

theorem Item.read_eq_ok_iff (offset : Nat) (input : Bytes) (item : Item) (cursor : Cursor) :
    Item.read limit budget ⟨offset, input⟩ = .ok (item, cursor) ↔
      ∃ word rest, input = word ++ rest ∧ Encodes budget word item ∧
        cursor = ⟨offset + word.length, rest⟩ :=
  Reader.eq_ok_iff (Item.read_accepts limit budget) (Item.read_rejects limit budget)
    (item_covers limit budget input) offset item cursor

theorem Item.read_eq_error_iff (offset : Nat) (input : Bytes) (error : DecodeError) :
    Item.read limit budget ⟨offset, input⟩ = .error error ↔
      FirstFault limit budget (.item false) input error :=
  Reader.eq_error_iff (Item.read_accepts limit budget) (Item.read_rejects limit budget)
    (item_covers limit budget input) offset error

theorem decodeWith_eq_ok_iff_append (options : Options) (data : Bytes) (item : Item)
    (length : Nat) :
    decodeWith options data = .ok (item, length) ↔
      ∃ word rest, data = word ++ rest ∧ Encodes options.maxDepth.toNat word item ∧
        length = word.length := by
  constructor
  · intro hdecode
    cases h : Item.read options.maxDepth.toNat options.maxDepth.toNat (.start data) with
    | error error => simp [decodeWith, h] at hdecode
    | ok found =>
        obtain ⟨found, cursor⟩ := found
        simp only [decodeWith, h, ok_bind, Except.ok.injEq, Prod.mk.injEq] at hdecode
        obtain ⟨rfl, rfl⟩ := hdecode
        obtain ⟨word, rest, hsplit, hword, rfl⟩ := (Item.read_eq_ok_iff 0 data found cursor).mp h
        exact ⟨word, rest, hsplit, hword, Nat.zero_add _⟩
  · rintro ⟨word, rest, rfl, hword, rfl⟩
    have h := Item.read_accepts options.maxDepth.toNat _ hword 0 rest
    simp [decodeWith, Cursor.start, h]

theorem decodeWith_eq_error_iff_firstFault (options : Options) (data : Bytes)
    (error : DecodeError) :
    decodeWith options data = .error error ↔
      FirstFault options.maxDepth.toNat options.maxDepth.toNat (.item false) data error := by
  rw [← Item.read_eq_error_iff 0]
  constructor
  · intro hdecode
    cases h : Item.read options.maxDepth.toNat options.maxDepth.toNat (.start data) with
    | error found =>
        simp only [decodeWith, h, error_bind, Except.error.injEq] at hdecode
        subst hdecode
        exact h
    | ok found => simp [decodeWith, h] at hdecode
  · intro h
    simp [decodeWith, Cursor.start, h]

/--
Decoding accepts exactly the grammar: it gives an item and a length if and only if that many
first bytes encode the item under the nesting limit.
-/
theorem decodeWith_eq_ok_iff_encodes (options : Options) (data : Bytes) (item : Item)
    (length : Nat) :
    decodeWith options data = .ok (item, length) ↔
      length ≤ data.length ∧ Encodes options.maxDepth.toNat (data.take length) item := by
  rw [decodeWith_eq_ok_iff_append]
  constructor
  · rintro ⟨word, rest, rfl, hword, rfl⟩
    simpa using hword
  · rintro ⟨hlength, hword⟩
    refine ⟨data.take length, data.drop length, (List.take_append_drop ..).symm, hword, ?_⟩
    rw [List.length_take]
    omega

/--
Decoding reports exactly the first fault: the input is an open context of no more levels than
the limit, and what follows is faulty at once where the context goes on.
-/
theorem decodeWith_eq_error_iff_openContext (options : Options) (data : Bytes)
    (error : DecodeError) :
    decodeWith options data = .error error ↔
      ∃ levels context slot rest, levels ≤ options.maxDepth.toNat ∧ data = context ++ rest ∧
        OpenContext options.maxDepth.toNat levels (.item false) context slot ∧
        ImmediateFault options.maxDepth.toNat (options.maxDepth.toNat - levels) slot rest
          error := by
  rw [decodeWith_eq_error_iff_firstFault]
  constructor
  · rintro ⟨hopen, hfault⟩
    exact ⟨_, _, _, _, hopen.levels_le, rfl, hopen, hfault⟩
  · rintro ⟨levels, context, slot, rest, -, rfl, hopen, hfault⟩
    exact .mk hopen hfault

-- the argument of an array is read before the limit refuses it
example : decodeWith ⟨0⟩ [0x98] = .error (.argumentTooShort 1) := by decide

example : decodeWith ⟨0⟩ [0x98, 0x00] = .error (.depthExceeded 0) := by decide

end Cbor

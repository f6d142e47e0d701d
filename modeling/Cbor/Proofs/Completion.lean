import Cbor.Proofs.Extension
import Cbor.Proofs.Nesting

/-!
# Completing cut input

Input that ends too early is the beginning of an item: whatever is cut can be filled up with zeros,
whatever is missing can be put there, and every open level can be closed behind it.  The head that
is cut may need one level more than the limit.
-/

namespace Cbor

variable {α : Type} {limit budget : Nat}

/-! ## Filling rows -/

section

variable {Word : Bytes → α → Prop} {body body' : Bytes} {xs ys : List α}

theorem Row.append (h : Row Word body xs) (h' : Row Word body' ys) :
    Row Word (body ++ body') (xs ++ ys) := by
  induction h with
  | nil => exact h'
  | cons hword _ ih =>
      rw [List.append_assoc, List.cons_append]
      exact .cons hword ih

theorem Row.append_singleton {word : Bytes} {x : α} (h : Row Word body xs) (hword : Word word x) :
    Row Word (body ++ word) (xs ++ [x]) := by
  have hlast : Row Word (word ++ []) [x] := .cons hword .nil
  rw [List.append_nil] at hlast
  exact h.append hlast

theorem Row.replicate {word : Bytes} {x : α} (hword : Word word x) (count : Nat) :
    Row Word (List.replicate count word).flatten (List.replicate count x) := by
  induction count with
  | zero => exact .nil
  | succ count ih =>
      rw [List.replicate_succ, List.replicate_succ, List.flatten_cons]
      exact .cons hword ih

theorem Row.exists_elements (argument : Argument) {fill : Bytes} {y : α}
    (hfill : Word fill y) (hrow : Row Word body xs)
    (hcount : ∀ count, argument = .number count → xs.length ≤ count.toNat) :
    ∃ more zs, Elements Word argument (body ++ more) zs := by
  cases argument with
  | number count =>
      have hle := hcount count rfl
      refine ⟨_, _, .counted (hrow.append (.replicate hfill (count.toNat - xs.length))) ?_⟩
      rw [List.length_append, List.length_replicate]
      omega
  | indefinite => exact ⟨[breakByte], xs, .untilBreak hrow⟩

theorem Row.exists_elements_of_allows {argument : Argument} {word fill : Bytes} {x y : α}
    (hfill : Word fill y) (hrow : Row Word body xs) (hallows : argument.Allows xs.length)
    (hword : Word word x) : ∃ more zs, Elements Word argument (body ++ word ++ more) zs := by
  apply (hrow.append_singleton hword).exists_elements argument hfill
  rintro count rfl
  rw [List.length_append, List.length_singleton]
  exact hallows

end

/-! ## Filling slots -/

theorem encodes_zero (budget : Nat) :
    Encodes budget [Head.toByte ⟨.unsigned, 0⟩] (.unsigned 0) :=
  .leaf (.unsigned (.mk (.small (by decide))))

theorem encodesChunk_empty (major : Major) : EncodesChunk major [Head.toByte ⟨major, 0⟩] [] :=
  .mk (.mk (.small (by decide))) rfl

theorem encodesPair_zero (budget : Nat) :
    EncodesPair budget ([Head.toByte ⟨.text, 0⟩] ++ [Head.toByte ⟨.unsigned, 0⟩])
      ([], .unsigned 0) :=
  .mk (.definite (encodesChunk_empty .text)) (encodes_zero budget)

def Fills (budget : Nat) : Slot → Bytes → Prop
  | .item _, word => ∃ item, Encodes budget word item
  | .key _, word => ∃ key, EncodesString .text word key
  | .chunk string, word => ∃ content, EncodesChunk string word content

theorem exists_fills (budget : Nat) (slot : Slot) : ∃ word, Fills budget slot word := by
  cases slot with
  | item closable => exact ⟨_, _, encodes_zero budget⟩
  | key closable => exact ⟨_, _, .definite (encodesChunk_empty .text)⟩
  | chunk string => exact ⟨_, _, encodesChunk_empty string⟩

/-! ## Closing levels -/

section

variable {head body : Bytes} {argument : Argument}

theorem Encodes.of_elements {items : List Item} (hhead : Head.Spells .array head argument)
    (h : Elements (Encodes budget) argument body items) :
    Encodes (budget + 1) (head ++ body) (.array items) := by
  cases h with
  | counted hrow hcount => exact .array hhead (encodesItems_iff_row.mpr hrow) hcount
  | untilBreak hrow => exact .openArray hhead (encodesItems_iff_row.mpr hrow)

theorem Encodes.of_pairs {pairs : List (Bytes × Item)} (hhead : Head.Spells .map head argument)
    (h : Elements (EncodesPair budget) argument body pairs) :
    Encodes (budget + 1) (head ++ body) (.map (Entries.ofPairs pairs)) := by
  cases h with
  | counted hrow hcount => exact .map hhead (encodesPairs_iff_row.mpr hrow) hcount
  | untilBreak hrow => exact .openMap hhead (encodesPairs_iff_row.mpr hrow)

end

theorem Level.exists_encodes {outer word : Bytes} {slot : Slot} (hlevel : Level budget outer slot)
    (hfills : Fills budget slot word) :
    ∃ more item, Encodes (budget + 1) (outer ++ word ++ more) item := by
  cases hlevel with
  | @array head body _ _ hhead hitems hallows =>
      obtain ⟨item, hitem⟩ := hfills
      obtain ⟨more, items, helements⟩ := (encodesItems_iff_row.mp hitems).exists_elements_of_allows
        (encodes_zero budget) hallows hitem
      refine ⟨more, .array items, ?_⟩
      rw [List.append_assoc head, List.append_assoc head]
      exact .of_elements hhead helements
  | @key head body _ _ hhead hpairs hallows =>
      obtain ⟨key, hkey⟩ := hfills
      obtain ⟨more, pairs, helements⟩ := (encodesPairs_iff_row.mp hpairs).exists_elements_of_allows
        (encodesPair_zero budget) hallows (.mk hkey (encodes_zero budget))
      refine ⟨[Head.toByte ⟨.unsigned, 0⟩] ++ more, .map (Entries.ofPairs pairs), ?_⟩
      have hsplit : head ++ body ++ word ++ ([Head.toByte ⟨.unsigned, 0⟩] ++ more) =
          head ++ (body ++ (word ++ [Head.toByte ⟨.unsigned, 0⟩]) ++ more) := by
        simp only [List.append_assoc]
      rw [hsplit]
      exact .of_pairs hhead helements
  | @value head body keyWord _ _ _ hhead hpairs hallows hkey =>
      obtain ⟨item, hitem⟩ := hfills
      obtain ⟨more, pairs, helements⟩ := (encodesPairs_iff_row.mp hpairs).exists_elements_of_allows
        (encodesPair_zero budget) hallows (.mk hkey hitem)
      refine ⟨more, .map (Entries.ofPairs pairs), ?_⟩
      have hsplit : head ++ (body ++ keyWord) ++ word ++ more =
          head ++ (body ++ (keyWord ++ word) ++ more) := by
        simp only [List.append_assoc]
      rw [hsplit]
      exact .of_pairs hhead helements
  | @tag _ tag hhead =>
      obtain ⟨item, hitem⟩ := hfills
      refine ⟨[], .tagged tag item, ?_⟩
      rw [List.append_nil]
      exact .tagged hhead hitem

theorem exists_encodesString {major : Major} {head body word content : Bytes}
    {chunks : List Bytes} (hhead : Head.Spells major head .indefinite)
    (hrow : Row (EncodesChunk major) body chunks) (hchunk : EncodesChunk major word content) :
    ∃ more string, EncodesString major (head ++ body ++ word ++ more) string := by
  refine ⟨[breakByte], (chunks ++ [content]).flatten, ?_⟩
  have hsplit : head ++ body ++ word ++ [breakByte] = head ++ (body ++ word ++ [breakByte]) := by
    simp only [List.append_assoc]
  rw [hsplit]
  exact .chunked hhead (hrow.append_singleton hchunk)

/-- What stands in the last slot of a context can be completed to what stands in the first. -/
theorem OpenContext.exists_fills {levels : Nat} {slot last : Slot} {context word : Bytes}
    (hopen : OpenContext budget levels slot context last)
    (hfills : Fills (budget - levels) last word) :
    ∃ more, Fills budget slot (context ++ word ++ more) := by
  induction hopen with
  | here => exact ⟨[], by simpa using hfills⟩
  | @level budget levels closable slot last outer inner hlevel _ ih =>
      rw [Nat.add_sub_add_right] at hfills
      obtain ⟨closing, hinner⟩ := ih hfills
      obtain ⟨more, item, hitem⟩ := hlevel.exists_encodes hinner
      refine ⟨closing ++ more, item, ?_⟩
      simpa only [List.append_assoc] using hitem
  | string hmajor hhead hrow =>
      obtain ⟨content, hchunk⟩ := hfills
      obtain ⟨more, string, hstring⟩ := exists_encodesString hhead hrow hchunk
      simp only [List.mem_cons, List.not_mem_nil, or_false] at hmajor
      rcases hmajor with rfl | rfl
      · exact ⟨more, _, .leaf (.bytes hstring)⟩
      · exact ⟨more, _, .leaf (.text hstring)⟩
  | keyString hhead hrow =>
      obtain ⟨content, hchunk⟩ := hfills
      exact exists_encodesString hhead hrow hchunk

/-! ## Filling up what is cut -/

/-- Zeros behind a cut number leave it below the largest one, of which no negative is made. -/
theorem Argument.Fault.exists_spells {info : Nat} {input : Bytes} {error : DecodeError}
    (h : Argument.Fault info input error) (herror : error.isTruncation = true) :
    ∃ more number, Argument.Spells info (input ++ more) (.number number) ∧
      number.toNat < 2 ^ 64 - 1 := by
  cases h with
  | reserved => contradiction
  | @cut width hwidth hcut =>
      obtain ⟨missing, rfl⟩ := Nat.exists_eq_add_of_lt hcut
      have hdigits : (input ++ List.replicate (missing + 1) 0).length =
          input.length + missing + 1 := by
        rw [List.length_append, List.length_replicate, Nat.add_assoc]
      refine ⟨_, _, .of_digits hwidth hdigits, ?_⟩
      rw [List.replicate_succ', ← List.append_assoc, Bytes.toUInt64_append_singleton]
      -- the last byte is zero, so the number is a multiple of 256
      generalize Bytes.toUInt64 (input ++ List.replicate missing 0) = high
      have hmultiple : (high * 256 + (0 : UInt8).toUInt64).toNat =
          high.toNat * 256 % 2 ^ 64 := by
        simp [UInt64.toNat_mul]
      rw [hmultiple]
      omega

theorem Head.Fault.exists_spells {major : Major} {input : Bytes} {error : DecodeError}
    (h : Head.Fault major input error) (herror : error.isTruncation = true) :
    ∃ more number, Head.Spells major (input ++ more) (.number number) ∧
      number.toNat < 2 ^ 64 - 1 := by
  obtain ⟨hargument⟩ := h
  obtain ⟨more, number, hspells, hnumber⟩ := hargument.exists_spells herror
  exact ⟨more, number, .mk hspells, hnumber⟩

theorem Head.Spells.exists_chunk {major : Major} {head : Bytes} {length : UInt64}
    (h : Head.Spells major head (.number length)) :
    ∃ more content, EncodesChunk major (head ++ more) content :=
  ⟨List.replicate length.toNat 0, _, .mk h List.length_replicate⟩

theorem Head.Fault.exists_chunk {major : Major} {input : Bytes} {error : DecodeError}
    (h : Head.Fault major input error) (herror : error.isTruncation = true) :
    ∃ more content, EncodesChunk major (input ++ more) content := by
  obtain ⟨word, length, hhead, -⟩ := h.exists_spells herror
  obtain ⟨more, content, hchunk⟩ := hhead.exists_chunk
  refine ⟨word ++ more, content, ?_⟩
  rwa [← List.append_assoc]

theorem ContentFault.exists_chunk {major : Major} {input : Bytes} {error : DecodeError}
    (h : ContentFault major input error) :
    ∃ more content, EncodesChunk major (input ++ more) content := by
  obtain @⟨head, rest, length, hhead, hcut⟩ := h
  have hlength : (rest ++ List.replicate (length.toNat - rest.length) 0).length =
      length.toNat := by
    rw [List.length_append, List.length_replicate]
    omega
  have hchunk := EncodesChunk.mk hhead hlength
  rw [← List.append_assoc] at hchunk
  exact ⟨_, _, hchunk⟩

theorem Head.Spells.exists_encodes {major : Major} (hmajor : major ≠ .simple) {head : Bytes}
    {number : UInt64} (h : Head.Spells major head (.number number))
    (hnumber : number.toNat < 2 ^ 64 - 1) :
    ∃ more item, Encodes (budget + 1) (head ++ more) item := by
  cases major with
  | simple => contradiction
  | unsigned =>
      refine ⟨[], .unsigned number, ?_⟩
      rw [List.append_nil]
      exact .leaf (.unsigned h)
  | negative =>
      refine ⟨[], .negative (number + 1), ?_⟩
      rw [List.append_nil]
      exact .leaf (.negative h hnumber)
  | bytes =>
      obtain ⟨more, content, hchunk⟩ := h.exists_chunk
      exact ⟨more, .bytes content, .leaf (.bytes (.definite hchunk))⟩
  | text =>
      obtain ⟨more, content, hchunk⟩ := h.exists_chunk
      exact ⟨more, .text content, .leaf (.text (.definite hchunk))⟩
  | array =>
      obtain ⟨more, items, helements⟩ := Row.nil.exists_elements (.number number)
        (encodes_zero budget) fun _ _ => Nat.zero_le _
      exact ⟨more, .array items, .of_elements h helements⟩
  | map =>
      obtain ⟨more, pairs, helements⟩ := Row.nil.exists_elements (.number number)
        (encodesPair_zero budget) fun _ _ => Nat.zero_le _
      exact ⟨more, .map (Entries.ofPairs pairs), .of_pairs h helements⟩
  | tag => exact ⟨_, .tagged number (.unsigned 0), .tagged h (encodes_zero budget)⟩

/-! ## Filling slots that are cut -/

section

variable {input : Bytes} {error : DecodeError}

/-- One more level is enough, for a head that is cut may open one. -/
theorem ItemFault.exists_encodes (h : ItemFault limit budget input error)
    (herror : error.isTruncation = true) (left : Nat) :
    ∃ more item, Encodes (left + 1) (input ++ more) item := by
  cases h with
  | ended => exact ⟨_, _, encodes_zero (left + 1)⟩
  | head hmajor hhead =>
      obtain ⟨word, number, hspells, hnumber⟩ := hhead.exists_spells herror
      obtain ⟨more, item, hitem⟩ := hspells.exists_encodes hmajor hnumber
      refine ⟨word ++ more, item, ?_⟩
      rwa [← List.append_assoc]
  | content hmajor hcontent =>
      obtain ⟨more, content, hchunk⟩ := hcontent.exists_chunk
      simp only [List.mem_cons, List.not_mem_nil, or_false] at hmajor
      rcases hmajor with rfl | rfl
      · exact ⟨more, .bytes content, .leaf (.bytes (.definite hchunk))⟩
      · exact ⟨more, .text content, .leaf (.text (.definite hchunk))⟩
  | @float info width rest hwidth hcut =>
      have hlength : (rest ++ List.replicate (width - rest.length) 0).length = width := by
        rw [List.length_append, List.length_replicate]
        omega
      obtain ⟨item, hleaf⟩ := EncodesLeaf.exists_of_digits hwidth hlength
      exact ⟨List.replicate (width - rest.length) 0, item, .leaf hleaf⟩
  | indefinite | overflow | simple | depth => contradiction

theorem KeyFault.exists_encodesString (h : KeyFault input error)
    (herror : error.isTruncation = true) :
    ∃ more key, EncodesString .text (input ++ more) key := by
  cases h with
  | ended => exact ⟨_, _, .definite (encodesChunk_empty .text)⟩
  | major => contradiction
  | head hhead =>
      obtain ⟨more, key, hchunk⟩ := hhead.exists_chunk herror
      exact ⟨more, key, .definite hchunk⟩
  | content hcontent =>
      obtain ⟨more, key, hchunk⟩ := hcontent.exists_chunk
      exact ⟨more, key, .definite hchunk⟩

theorem ChunkFault.exists_chunk {string : Major} (h : ChunkFault string input error)
    (herror : error.isTruncation = true) :
    ∃ more content, EncodesChunk string (input ++ more) content := by
  cases h with
  | major | indefinite => contradiction
  | head hhead => exact hhead.exists_chunk herror
  | content hcontent => exact hcontent.exists_chunk

theorem SlotFault.exists_fills {Fault : Bytes → DecodeError → Prop} {closable : Bool} {slot : Slot}
    {left : Nat} (h : SlotFault Fault closable input error)
    (hfault : Fault input error → ∃ more, Fills left slot (input ++ more)) :
    ∃ more, Fills left slot (input ++ more) := by
  cases h with
  | element hinput | closable _ hinput => exact hfault hinput
  | ended => exact Cbor.exists_fills left slot

theorem ImmediateFault.exists_fills {slot : Slot} (h : ImmediateFault limit budget slot input error)
    (herror : error.isTruncation = true) (left : Nat) :
    ∃ more, Fills (left + 1) slot (input ++ more) := by
  cases slot with
  | item closable =>
      apply SlotFault.exists_fills h
      exact fun hitem => hitem.exists_encodes herror left
  | key closable =>
      apply SlotFault.exists_fills h
      exact fun hkey => hkey.exists_encodesString herror
  | chunk string =>
      apply SlotFault.exists_fills h
      exact fun hchunk => hchunk.exists_chunk herror

theorem FirstFault.exists_encodes {closable : Bool} {larger : Nat}
    (h : FirstFault limit budget (.item closable) input error)
    (herror : error.isTruncation = true) (hle : budget ≤ larger)
    (hspare : budget < larger ∨ input.length < larger) :
    ∃ more item, Encodes larger (input ++ more) item := by
  obtain @⟨levels, context, rest, last, _, hopen, hfault⟩ := h
  have hlevels : levels < larger := by
    have hbudget := hopen.levels_le
    have hcount := hopen.levels_le_countP
    have hlength : context.countP opensLevel ≤ context.length := List.countP_le_length
    rw [List.length_append] at hspare
    omega
  obtain ⟨left, hleft⟩ : ∃ left, larger - levels = left + 1 := ⟨larger - levels - 1, by omega⟩
  obtain ⟨word, hfills⟩ := hfault.exists_fills herror left
  rw [← hleft] at hfills
  obtain ⟨more, item, hitem⟩ := (hopen.mono hle).exists_fills hfills
  refine ⟨word ++ more, item, ?_⟩
  simpa only [List.append_assoc] using hitem

end

theorem exists_larger_limit (options : Options) :
    ∃ larger : Options, options.maxDepth ≤ larger.maxDepth ∧
      (options.maxDepth.toNat < larger.maxDepth.toNat ∨ 2 ^ 63 ≤ larger.maxDepth.toNat) := by
  by_cases hlargest : options.maxDepth.toNat + 1 < 2 ^ 64
  · have hnext : (options.maxDepth + 1).toNat = options.maxDepth.toNat + 1 := by
      rw [UInt64.toNat_add]
      exact Nat.mod_eq_of_lt hlargest
    refine ⟨⟨options.maxDepth + 1⟩, ?_, .inl ?_⟩
    · rw [UInt64.le_iff_toNat_le, hnext]
      exact Nat.le_succ _
    · rw [hnext]
      exact Nat.lt_succ_self _
  · exact ⟨options, UInt64.le_refl _, .inr (by omega)⟩

/--
Data that fails as too short is the beginning of an item: some bytes behind it, and perhaps a
larger limit, make it one that decodes and takes all of them.
-/
theorem exists_decodeWith_append {options : Options} {data : Bytes} {error : DecodeError}
    (hlength : data.length < 2 ^ 63) (hdecode : decodeWith options data = .error error)
    (herror : error.isTruncation = true) :
    ∃ more larger item, options.maxDepth ≤ larger.maxDepth ∧
      decodeWith larger (data ++ more) = .ok (item, (data ++ more).length) := by
  obtain ⟨larger, hle, hspare⟩ := exists_larger_limit options
  have hfault := (decodeWith_eq_error_iff_firstFault ..).mp hdecode
  obtain ⟨more, item, hitem⟩ := hfault.exists_encodes herror (UInt64.le_iff_toNat_le.mp hle)
    (hspare.imp_right fun hlimit => Nat.lt_of_lt_of_le hlength hlimit)
  refine ⟨more, larger, item, hle, ?_⟩
  rw [decodeWith_eq_ok_iff_append]
  exact ⟨data ++ more, [], (List.append_nil _).symm, hitem, rfl⟩

/-- The cut head inside an array opens a level that the limit 1 does not allow. -/
theorem exists_decodeWith_append_cut_head :
    [0x81, 0x9B, 0xFF].length < 2 ^ 63 ∧
      decodeWith ⟨1⟩ [0x81, 0x9B, 0xFF] = .error (.argumentTooShort 8) ∧
      (DecodeError.argumentTooShort 8).isTruncation = true ∧
      ∃ more larger item, (⟨1⟩ : Options).maxDepth ≤ larger.maxDepth ∧
        decodeWith larger ([0x81, 0x9B, 0xFF] ++ more) =
          .ok (item, ([0x81, 0x9B, 0xFF] ++ more).length) := by
  have hlength : ([0x81, 0x9B, 0xFF] : Bytes).length < 2 ^ 63 := by decide
  have hdecode : decodeWith ⟨1⟩ [0x81, 0x9B, 0xFF] = .error (.argumentTooShort 8) := by decide
  exact ⟨hlength, hdecode, rfl, exists_decodeWith_append hlength hdecode rfl⟩

end Cbor

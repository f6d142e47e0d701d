import Cbor.Proofs.Acceptance

/-!
# First faults level by level

An open context is taken apart from the outside: its first fault shows at once, or in a string
that begins here, or behind the complete elements of the outermost level.
-/

namespace Cbor

variable {limit budget : Nat}

/-! ## Where a context begins -/

theorem Level.continues {word : Bytes} {slot : Slot} (h : Level budget word slot) :
    Continues word := by
  cases h with
  | array hhead | key hhead | value hhead => exact (hhead.continues (by decide)).append _
  | tag hhead => exact hhead.continues (by decide)

theorem Head.Spells.continues_of_string {major : Major} {head : Bytes} {argument : Argument}
    (h : Head.Spells major head argument) (hmajor : major ∈ [Major.bytes, .text]) :
    Continues head := by
  apply h.continues
  rintro rfl
  simp at hmajor

theorem OpenContext.levels_le {levels : Nat} {slot last : Slot} {context : Bytes}
    (h : OpenContext budget levels slot context last) : levels ≤ budget := by
  induction h with
  | here | string | keyString => exact Nat.zero_le _
  | level _ _ ih => exact Nat.succ_le_succ ih

/-- Where the break byte may stand, an item is faulty as elsewhere, or missing. -/
theorem firstFault_item_iff {closable : Bool} {input : Bytes} {error : DecodeError} :
    FirstFault limit budget (.item closable) input error ↔
      SlotFault (FirstFault limit budget (.item false)) closable input error := by
  constructor
  · rintro ⟨hopen, hfault⟩
    cases hopen with
    | here =>
        cases hfault with
        | element hitem => exact .element (.mk .here (.element hitem))
        | ended => exact .ended
        | closable hinput hitem => exact .closable hinput (.mk .here (.element hitem))
    | level hlevel hinner =>
        exact .of_continues ((hlevel.continues.append _).append _)
          (.mk (.level hlevel hinner) hfault)
    | string hmajor hhead hrow =>
        exact .of_continues (((hhead.continues_of_string hmajor).append _).append _)
          (.mk (.string hmajor hhead hrow) hfault)
  · intro h
    cases h with
    | element hfault => exact hfault
    | ended => exact .mk .here .ended
    | closable hinput hfault =>
        obtain ⟨hopen, hfault⟩ := hfault
        cases hopen with
        | here =>
            cases hfault with
            | element hitem => exact .mk .here (.closable hinput hitem)
        | level hlevel hinner => exact .mk (.level hlevel hinner) hfault
        | string hmajor hhead hrow => exact .mk (.string hmajor hhead hrow) hfault

theorem FirstFault.of_itemFault {input : Bytes} {error : DecodeError}
    (h : ItemFault limit budget input error) : FirstFault limit budget (.item false) input error :=
  .mk .here (.element h)

/-! ## Keys and entries -/

theorem FirstFault.of_textFault {closable : Bool} {input : Bytes} {error : DecodeError}
    (h : StringFault .text input error) : FirstFault limit budget (.key closable) input error := by
  have hinput : Continues input := h.continues (by decide)
  cases h with
  | head hhead => exact .mk .here (.of_continues hinput (.head hhead))
  | content hcontent => exact .mk .here (.of_continues hinput (.content hcontent))
  | chunk hhead helements =>
      obtain ⟨hrow, -, hchunk⟩ := helements
      rw [← List.append_assoc]
      exact .mk (.keyString hhead hrow) hchunk

theorem firstFault_key_iff {closable : Bool} {input : Bytes} {error : DecodeError} :
    FirstFault limit budget (.key closable) input error ↔
      SlotFault KeyFault closable input error ∨ StringFault .text input error := by
  constructor
  · rintro ⟨hopen, hfault⟩
    cases hopen with
    | here => exact .inl hfault
    | keyString hhead hrow =>
        rw [List.append_assoc]
        exact .inr (.chunk hhead (.mk hrow trivial hfault))
  · rintro (hkey | htext)
    · exact .mk .here hkey
    · exact .of_textFault htext

inductive EntryFault (limit budget : Nat) : Bytes → DecodeError → Prop
  | key {input : Bytes} {error : DecodeError} :
      FirstFault limit budget (.key false) input error → EntryFault limit budget input error
  | value {word key rest : Bytes} {error : DecodeError} :
      EncodesString .text word key → FirstFault limit budget (.item false) rest error →
      EntryFault limit budget (word ++ rest) error

theorem slotFault_entry_iff {closable : Bool} {input : Bytes} {error : DecodeError} :
    SlotFault (EntryFault limit budget) closable input error ↔
      FirstFault limit budget (.key closable) input error ∨
        ∃ word key rest, input = word ++ rest ∧ EncodesString .text word key ∧
          FirstFault limit budget (.item false) rest error := by
  constructor
  · intro h
    cases h with
    | ended => exact .inl (.mk .here .ended)
    | element hentry =>
        cases hentry with
        | key hkey => exact .inl hkey
        | value hkey hvalue => exact .inr ⟨_, _, _, rfl, hkey, hvalue⟩
    | closable hinput hentry =>
        cases hentry with
        | key hkey =>
            rcases firstFault_key_iff.mp hkey with hslot | htext
            · cases hslot with
              | element hkey => exact .inl (.mk .here (.closable hinput hkey))
            · exact .inl (.of_textFault htext)
        | value hkey hvalue => exact .inr ⟨_, _, _, rfl, hkey, hvalue⟩
  · rintro (hkey | ⟨word, key, rest, rfl, hkey, hvalue⟩)
    · rcases firstFault_key_iff.mp hkey with hslot | htext
      · cases hslot with
        | element hkey => exact .element (.key (.mk .here (.element hkey)))
        | ended => exact .ended
        | closable hinput hkey => exact .closable hinput (.key (.mk .here (.element hkey)))
      · exact .of_continues (htext.continues (by decide)) (.key (.of_textFault htext))
    · exact .of_continues ((hkey.continues (by decide)).append _) (.value hkey hvalue)

/-! ## The outermost level -/

/-- A fault in an array, map or tag that begins here, with `budget` levels for what it holds. -/
inductive LevelFault (limit budget : Nat) : Bytes → DecodeError → Prop
  | array {head rest : Bytes} {argument : Argument} {error : DecodeError} :
      Head.Spells .array head argument →
      ElementsFault (Encodes budget) (FirstFault limit budget (.item false)) argument rest error →
      LevelFault limit budget (head ++ rest) error
  | map {head rest : Bytes} {argument : Argument} {error : DecodeError} :
      Head.Spells .map head argument →
      ElementsFault (EncodesPair budget) (EntryFault limit budget) argument rest error →
      LevelFault limit budget (head ++ rest) error
  | tag {head rest : Bytes} {tag : UInt64} {error : DecodeError} :
      Head.Spells .tag head (.number tag) → FirstFault limit budget (.item false) rest error →
      LevelFault limit budget (head ++ rest) error

theorem LevelFault.of_level {outer rest : Bytes} {slot : Slot} {error : DecodeError}
    (hlevel : Level budget outer slot) (hfault : FirstFault limit budget slot rest error) :
    LevelFault limit budget (outer ++ rest) error := by
  cases hlevel with
  | array hhead hitems hallows =>
      rw [List.append_assoc]
      exact .array hhead (.mk (encodesItems_iff_row.mp hitems) hallows
        (firstFault_item_iff.mp hfault))
  | key hhead hpairs hallows =>
      rw [List.append_assoc]
      exact .map hhead (.mk (encodesPairs_iff_row.mp hpairs) hallows
        (slotFault_entry_iff.mpr (.inl hfault)))
  | value hhead hpairs hallows hkey =>
      rw [List.append_assoc, List.append_assoc]
      exact .map hhead (.mk (encodesPairs_iff_row.mp hpairs) hallows
        (slotFault_entry_iff.mpr (.inr ⟨_, _, _, rfl, hkey, hfault⟩)))
  | tag hhead => exact .tag hhead hfault

theorem FirstFault.of_level {outer rest : Bytes} {closable : Bool} {slot : Slot}
    {error : DecodeError} (hlevel : Level budget outer slot)
    (hfault : FirstFault limit budget slot rest error) :
    FirstFault limit (budget + 1) (.item closable) (outer ++ rest) error := by
  obtain ⟨hopen, hfault⟩ := hfault
  rw [← List.append_assoc]
  refine .mk (.level hlevel hopen) ?_
  rwa [Nat.add_sub_add_right]

theorem FirstFault.of_levelFault {input : Bytes} {error : DecodeError}
    (h : LevelFault limit budget input error) :
    FirstFault limit (budget + 1) (.item false) input error := by
  cases h with
  | array hhead helements =>
      obtain ⟨hrow, hallows, hslot⟩ := helements
      rw [← List.append_assoc]
      exact .of_level (.array hhead (encodesItems_iff_row.mpr hrow) hallows)
        (firstFault_item_iff.mpr hslot)
  | map hhead helements =>
      obtain ⟨hrow, hallows, hslot⟩ := helements
      have hpairs := encodesPairs_iff_row.mpr hrow
      rcases slotFault_entry_iff.mp hslot with hkey | ⟨word, key, rest, rfl, hkey, hvalue⟩
      · rw [← List.append_assoc]
        exact .of_level (.key hhead hpairs hallows) hkey
      · rw [← List.append_assoc, ← List.append_assoc, List.append_assoc _ _ word]
        exact .of_level (.value hhead hpairs hallows hkey) hvalue
  | tag hhead hfault => exact .of_level (.tag hhead) hfault

theorem FirstFault.of_stringFault {major : Major} (hmajor : major ∈ [Major.bytes, .text])
    {input : Bytes} {error : DecodeError} (h : StringFault major input error) :
    FirstFault limit budget (.item false) input error := by
  cases h with
  | head hhead =>
      refine .of_itemFault (.head ?_ hhead)
      rintro rfl
      simp at hmajor
  | content hcontent => exact .of_itemFault (.content hmajor hcontent)
  | chunk hhead helements =>
      obtain ⟨hrow, -, hchunk⟩ := helements
      rw [← List.append_assoc]
      exact .mk (.string hmajor hhead hrow) hchunk

/-- A first fault is an immediate one, or one of a string, or one inside the outermost level. -/
theorem firstFault_cases {input : Bytes} {error : DecodeError}
    (h : FirstFault limit budget (.item false) input error) :
    ItemFault limit budget input error ∨
      (∃ major ∈ [Major.bytes, .text], StringFault major input error) ∨
      ∃ left, budget = left + 1 ∧ LevelFault limit left input error := by
  obtain ⟨hopen, hfault⟩ := h
  cases hopen with
  | here =>
      cases hfault with
      | element hitem => exact .inl hitem
  | string hmajor hhead hrow =>
      rw [List.append_assoc]
      exact .inr (.inl ⟨_, hmajor, .chunk hhead (.mk hrow trivial hfault)⟩)
  | level hlevel hinner =>
      rw [Nat.add_sub_add_right] at hfault
      rw [List.append_assoc]
      exact .inr (.inr ⟨_, rfl, .of_level hlevel (.mk hinner hfault)⟩)

end Cbor

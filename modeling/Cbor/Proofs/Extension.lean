import Cbor.Proofs.Decoding

/-!
# More input

What is decoded from the beginning of the input stays when more bytes arrive, and so does every
fault but those of input that ends too early.
-/

namespace Cbor

def DecodeError.isTruncation (error : DecodeError) : Bool :=
  match error.innermost with
  | .argumentTooShort _ | .incompleteFloat _ | .contentTooShort _ | .expectedBreak
  | .unexpectedEnd => true
  | _ => false

@[simp] theorem DecodeError.isTruncation_inChunk (cause : DecodeError) :
    (DecodeError.inChunk cause).isTruncation = cause.isTruncation := rfl

variable {limit budget : Nat} {input : Bytes} {error : DecodeError}

/-! ## Faults that more input does not mend -/

theorem Argument.Fault.append {info : Nat} (h : Argument.Fault info input error)
    (herror : error.isTruncation = false) (more : Bytes) :
    Argument.Fault info (input ++ more) error := by
  cases h with
  | reserved hlower hupper => exact .reserved hlower hupper
  | cut => contradiction

theorem Head.Fault.append {major : Major} (h : Head.Fault major input error)
    (herror : error.isTruncation = false) (more : Bytes) :
    Head.Fault major (input ++ more) error := by
  obtain ⟨hargument⟩ := h
  exact .mk (hargument.append herror more)

theorem ContentFault.isTruncation {major : Major} (h : ContentFault major input error) :
    error.isTruncation = true := by
  cases h
  rfl

theorem ItemFault.append (h : ItemFault limit budget input error)
    (herror : error.isTruncation = false) (more : Bytes) :
    ItemFault limit budget (input ++ more) error := by
  cases h with
  | ended => contradiction
  | head hmajor hhead => exact .head hmajor (hhead.append herror more)
  | indefinite hmajor hhead =>
      rw [List.append_assoc]
      exact .indefinite hmajor hhead
  | overflow hhead hnumber =>
      rw [List.append_assoc]
      exact .overflow hhead hnumber
  | content hmajor hcontent =>
      rw [hcontent.isTruncation] at herror
      contradiction
  | simple hinfo => exact .simple hinfo
  | float => contradiction
  | depth hbudget hhead =>
      rw [List.append_assoc]
      exact .depth hbudget hhead

theorem KeyFault.append (h : KeyFault input error) (herror : error.isTruncation = false)
    (more : Bytes) : KeyFault (input ++ more) error := by
  cases h with
  | ended => contradiction
  | major hinfo hmajor => exact .major hinfo hmajor
  | head hhead => exact .head (hhead.append herror more)
  | content hcontent =>
      rw [hcontent.isTruncation] at herror
      contradiction

theorem ChunkFault.append {string : Major} (h : ChunkFault string input error)
    (herror : error.isTruncation = false) (more : Bytes) :
    ChunkFault string (input ++ more) error := by
  cases h with
  | major hinfo hmajor => exact .major hinfo hmajor
  | head hhead => exact .head (hhead.append herror more)
  | indefinite hhead =>
      rw [List.append_assoc]
      exact .indefinite hhead
  | content hcontent =>
      rw [DecodeError.isTruncation_inChunk, hcontent.isTruncation] at herror
      contradiction

theorem SlotFault.append {Fault : Bytes → DecodeError → Prop} {closable : Bool}
    (happend : ∀ {input}, Fault input error → ∀ more, Fault (input ++ more) error)
    (h : SlotFault Fault closable input error) (herror : error.isTruncation = false)
    (more : Bytes) : SlotFault Fault closable (input ++ more) error := by
  cases h with
  | element hfault => exact .element (happend hfault more)
  | ended => contradiction
  | closable hinput hfault => exact .closable (hinput.append more) (happend hfault more)

theorem ImmediateFault.append {slot : Slot} (h : ImmediateFault limit budget slot input error)
    (herror : error.isTruncation = false) (more : Bytes) :
    ImmediateFault limit budget slot (input ++ more) error := by
  cases slot with
  | item closable => exact SlotFault.append (fun hitem => hitem.append herror) h herror more
  | key closable => exact SlotFault.append (fun hkey => hkey.append herror) h herror more
  | chunk string => exact SlotFault.append (fun hchunk => hchunk.append herror) h herror more

theorem FirstFault.append {slot : Slot} (h : FirstFault limit budget slot input error)
    (herror : error.isTruncation = false) (more : Bytes) :
    FirstFault limit budget slot (input ++ more) error := by
  obtain ⟨hopen, hfault⟩ := h
  rw [List.append_assoc]
  exact .mk hopen (hfault.append herror more)

/-! ## Decoding with more input -/

theorem decodeWith_append_of_ok {options : Options} {data : Bytes} {item : Item} {length : Nat}
    (h : decodeWith options data = .ok (item, length)) (more : Bytes) :
    decodeWith options (data ++ more) = .ok (item, length) := by
  rw [decodeWith_eq_ok_iff_append] at h ⊢
  obtain ⟨word, rest, rfl, hword, hlength⟩ := h
  exact ⟨word, rest ++ more, List.append_assoc .., hword, hlength⟩

theorem decodeWith_append_of_error {options : Options} {data : Bytes}
    (h : decodeWith options data = .error error) (herror : error.isTruncation = false)
    (more : Bytes) : decodeWith options (data ++ more) = .error error := by
  rw [decodeWith_eq_error_iff_firstFault] at h ⊢
  exact h.append herror more

/--
Only errors of truncation can change when more bytes arrive; so an item that is cut short fails,
and fails with such an error.
-/
theorem decodeWith_append_and_take (options : Options) (data : Bytes) :
    ((∀ error, decodeWith options data = .error error → error.isTruncation = false) →
      ∀ more, decodeWith options (data ++ more) = decodeWith options data) ∧
    ∀ item length, decodeWith options data = .ok (item, length) → ∀ shorter < length,
      ∃ error, decodeWith options (data.take shorter) = .error error ∧
        error.isTruncation = true := by
  constructor
  · intro hstable more
    cases h : decodeWith options data with
    | ok found => exact decodeWith_append_of_ok h more
    | error error => exact decodeWith_append_of_error h (hstable error h) more
  · intro item length hdata shorter hshorter
    have hsplit : data.take shorter ++ data.drop shorter = data := List.take_append_drop ..
    cases h : decodeWith options (data.take shorter) with
    | ok found =>
        -- the same item would be decoded from all of the data, which is longer than the cut
        obtain ⟨found, taken⟩ := found
        have hlonger := decodeWith_append_of_ok h (data.drop shorter)
        rw [hsplit, hdata] at hlonger
        cases hlonger
        obtain ⟨word, rest, hword, -, rfl⟩ := (decodeWith_eq_ok_iff_append _ _ _ _).mp h
        have hlength := congrArg List.length hword
        rw [List.length_take, List.length_append] at hlength
        omega
    | error error =>
        refine ⟨error, rfl, ?_⟩
        cases herror : error.isTruncation with
        | true => rfl
        | false =>
            have hlonger := decodeWith_append_of_error h herror (data.drop shorter)
            rw [hsplit, hdata] at hlonger
            contradiction

/-- A reserved head in an array stays a fault; an indefinite string in an array is cut. -/
theorem decodeWith_append_and_take_array :
    (∀ error, decodeWith {} [0x81, 0x1C] = .error error → error.isTruncation = false) ∧
      decodeWith {} ([0x81, 0x1C] ++ [0x00]) = decodeWith {} [0x81, 0x1C] ∧
      decodeWith {} [0x9F, 0x5F, 0x41, 0x01, 0xFF, 0xFF] = .ok (.array [.bytes [1]], 6) ∧
      ∃ error, decodeWith {} ([0x9F, 0x5F, 0x41, 0x01, 0xFF, 0xFF].take 4) = .error error ∧
        error.isTruncation = true := by
  have hfault : decodeWith {} [0x81, 0x1C] = .error (.invalidInfo 28) := by decide
  have hitem : decodeWith {} [0x9F, 0x5F, 0x41, 0x01, 0xFF, 0xFF] =
      .ok (.array [.bytes [1]], 6) := by decide
  have hstable : ∀ error, decodeWith {} [0x81, 0x1C] = .error error →
      error.isTruncation = false := by
    intro error herror
    rw [hfault] at herror
    cases herror
    rfl
  exact ⟨hstable, (decodeWith_append_and_take {} [0x81, 0x1C]).1 hstable [0x00], hitem,
    (decodeWith_append_and_take {} _).2 _ 6 hitem 4 (by decide)⟩

end Cbor

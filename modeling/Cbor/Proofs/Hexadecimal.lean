import Cbor.Proofs.WellFormedText
import Cbor.Text.Hex

/-!
# Hexadecimal digits

A text is read as data exactly if it spells the data, with digits of either case; what is written
for bytes is such a text.
-/

namespace Cbor.Hex

/-! ## Digits -/

theorem digit?_hexDigit {number : Nat} (h : number < 16) :
    digit? (Text.hexDigit number).toNat = some number := by
  have hall : ∀ number < 16, digit? (Text.hexDigit number).toNat = some number := by decide
  exact hall number h

def digits : List (Char × Nat) :=
  [('0', 0), ('1', 1), ('2', 2), ('3', 3), ('4', 4), ('5', 5), ('6', 6), ('7', 7), ('8', 8),
    ('9', 9), ('a', 10), ('A', 10), ('b', 11), ('B', 11), ('c', 12), ('C', 12), ('d', 13),
    ('D', 13), ('e', 14), ('E', 14), ('f', 15), ('F', 15)]

def IsDigit (c : Char) (number : Nat) : Prop := (c, number) ∈ digits

instance (c : Char) (number : Nat) : Decidable (IsDigit c number) :=
  inferInstanceAs (Decidable ((c, number) ∈ digits))

theorem IsDigit.lt {c : Char} {number : Nat} (h : IsDigit c number) : number < 16 := by
  have hall : ∀ digit ∈ digits, digit.2 < 16 := by decide
  exact hall _ h

theorem IsDigit.digit?_eq {c : Char} {number : Nat} (h : IsDigit c number) :
    digit? (UInt8.ofNat c.toNat).toNat = some number := by
  have hall : ∀ digit ∈ digits, digit? (UInt8.ofNat digit.1.toNat).toNat = some digit.2 := by
    decide
  exact hall _ h

theorem IsDigit.utf8Encode_cons {c : Char} {number : Nat} (h : IsDigit c number) (text : Text) :
    Utf8.encode (c :: text) = UInt8.ofNat c.toNat :: Utf8.encode text := by
  have hall : ∀ digit ∈ digits,
      String.utf8EncodeChar digit.1 = [UInt8.ofNat digit.1.toNat] := by decide
  rw [Utf8.encode, List.flatMap_cons, hall _ h]
  rfl

theorem lt_of_digit?_eq {code number : Nat} (h : digit? code = some number) : code < 0x80 := by
  rw [digit?] at h
  grind

theorem isDigit_of_digit?_eq {c : Char} {number : Nat} (h : digit? c.toNat = some number) :
    IsDigit c number := by
  have hall : ∀ code < 0x80, ∀ number ∈ digit? code, IsDigit (Char.ofNat code) number := by decide
  have hdigit := hall c.toNat (lt_of_digit?_eq h) number h
  rwa [Char.ofNat_toNat] at hdigit

theorem isDigit_hexDigit {number : Nat} (h : number < 16) :
    IsDigit (Text.hexDigit number) number := by
  have hall : ∀ number < 16, IsDigit (Text.hexDigit number) number := by decide
  exact hall number h

/-! ## Texts -/

/-- The text has two digits for each byte of the data, in order and the high one first. -/
inductive Spells : Text → Bytes → Prop
  | nil : Spells [] []
  | cons {high low : Char} {byte : UInt8} {text : Text} {data : Bytes} :
      IsDigit high (byte.toNat / 16) → IsDigit low (byte.toNat % 16) → Spells text data →
      Spells (high :: low :: text) (byte :: data)

theorem Spells.length_eq {text : Text} {data : Bytes} (h : Spells text data) :
    text.length = 2 * data.length := by
  induction h with
  | nil => rfl
  | cons _ _ _ ih =>
      simp only [List.length_cons, ih]
      omega

theorem Spells.length_utf8Encode {text : Text} {data : Bytes} (h : Spells text data) :
    (Utf8.encode text).length = 2 * data.length := by
  induction h with
  | nil => rfl
  | cons hhigh hlow _ ih =>
      rw [hhigh.utf8Encode_cons, hlow.utf8Encode_cons]
      simp only [List.length_cons, ih]
      omega

theorem Spells.readPairs_eq {text : Text} {data : Bytes} (h : Spells text data) (position : Nat)
    (found : Bytes) :
    readPairs position found (Utf8.encode text) = .ok (found.reverse ++ data) := by
  induction h generalizing position found with
  | nil => simp [Utf8.encode, readPairs]
  | @cons high low byte text data hhigh hlow _ ih =>
      have hvalue : 16 * (byte.toNat / 16) + byte.toNat % 16 = byte.toNat := Nat.div_add_mod ..
      rw [hhigh.utf8Encode_cons, hlow.utf8Encode_cons, readPairs, hhigh.digit?_eq, hlow.digit?_eq]
      simp only [hvalue, UInt8.ofNat_toNat, ih]
      simp

/-- A byte below 0x80 that a text is written with is a character of it. -/
theorem exists_cons_of_utf8Encode_eq {text : Text} {byte : UInt8} {rest : Bytes}
    (hbyte : byte.toNat < 0x80) (h : Utf8.encode text = byte :: rest) :
    ∃ c tail, text = c :: tail ∧ c.toNat = byte.toNat ∧ Utf8.encode tail = rest := by
  cases text with
  | nil => contradiction
  | cons c tail =>
      have hsequence := Utf8.sequence_encodeChar c
      rw [Utf8.encode, List.flatMap_cons] at h
      generalize String.utf8EncodeChar c = bytes at h hsequence
      generalize hcode : c.toNat = code at hsequence
      cases hsequence with
      | one => exact ⟨c, tail, rfl, hcode.trans (congrArg UInt8.toNat (List.cons.inj h).1),
          (List.cons.inj h).2⟩
      | two hlow | three hlow | four hlow =>
          have hfirst := congrArg UInt8.toNat (List.cons.inj h).1
          omega

theorem exists_spells_of_readPairs {position : Nat} {found bytes data : Bytes} {text : Text}
    (hencode : Utf8.encode text = bytes) (h : readPairs position found bytes = .ok data) :
    ∃ more, Spells text more ∧ data = found.reverse ++ more := by
  fun_induction readPairs position found bytes generalizing text with
  | case1 position found =>
      cases h
      have htext := congrArg Utf8.lossy hencode
      rw [Utf8.lossy_encode] at htext
      subst htext
      exact ⟨[], .nil, (List.append_nil _).symm⟩
  | case2 | case3 | case4 => contradiction
  | case5 position found first second rest high low hlow hhigh ih =>
      obtain ⟨c, tail, rfl, hfirst, htail⟩ :=
        exists_cons_of_utf8Encode_eq (lt_of_digit?_eq hhigh) hencode
      obtain ⟨d, tail, rfl, hsecond, htail⟩ :=
        exists_cons_of_utf8Encode_eq (lt_of_digit?_eq hlow) htail
      obtain ⟨more, hspells, rfl⟩ := ih htail h
      have hc := isDigit_of_digit?_eq (hfirst ▸ hhigh)
      have hd := isDigit_of_digit?_eq (hsecond ▸ hlow)
      have hbounds := And.intro hc.lt hd.lt
      have hbyte : (UInt8.ofNat (16 * high + low)).toNat = 16 * high + low :=
        UInt8.toNat_ofNat_of_lt' (show 16 * high + low < 256 by omega)
      have hdiv : (16 * high + low) / 16 = high := by omega
      have hmod : (16 * high + low) % 16 = low := by omega
      refine ⟨UInt8.ofNat (16 * high + low) :: more, .cons ?_ ?_ hspells, by simp⟩
      · rwa [hbyte, hdiv]
      · rwa [hbyte, hmod]

theorem decode_eq_ok_iff {text : Text} {data : Bytes} :
    decode text = .ok data ↔ Spells text data := by
  rw [decode]
  constructor
  · intro h
    split at h
    · obtain ⟨more, hspells, rfl⟩ := exists_spells_of_readPairs rfl h
      exact hspells
    · contradiction
  · intro h
    have heven : (Utf8.encode text).length % 2 = 0 := by
      rw [h.length_utf8Encode, Nat.mul_mod_right]
    rw [if_pos heven, h.readPairs_eq]
    rfl

theorem exists_of_mem_encode {data : Bytes} {c : Char} (h : c ∈ encode data) :
    ∃ number < 16, c = Text.hexDigit number := by
  obtain ⟨byte, -, hc⟩ := List.mem_flatMap.mp h
  have hbyte := byte.toNat_lt
  simp only [List.mem_cons, List.not_mem_nil, or_false] at hc
  rcases hc with rfl | rfl
  · exact ⟨byte.toNat / 16, by omega, rfl⟩
  · exact ⟨byte.toNat % 16, by omega, rfl⟩

theorem spells_encode (data : Bytes) : Spells (encode data) data := by
  induction data with
  | nil => exact .nil
  | cons byte data ih =>
      have hbyte := byte.toNat_lt
      exact .cons (isDigit_hexDigit (by omega)) (isDigit_hexDigit (by omega)) ih

theorem decode_encode (data : Bytes) : decode (encode data) = .ok data :=
  decode_eq_ok_iff.mpr (spells_encode data)

theorem encode_injective : Function.Injective encode := by
  intro data data' h
  have hdecode := decode_encode data
  rw [h, decode_encode] at hdecode
  exact (Except.ok.inj hdecode).symm

end Cbor.Hex

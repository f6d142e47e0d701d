import Cbor.Json.Reader
import Cbor.Json.Written
import Cbor.Proofs.Hexadecimal
import Cbor.Proofs.Readers
import Mathlib.Data.List.TakeDrop

/-!
# Written lexemes

What is written for a number or a string is read back, whatever follows that ends a value.
-/

namespace Cbor

/-! ## Delimiters -/

namespace Json

def blanks : List Char := [' ', '\t', '\n', '\r']

def delimiters : List Char := blanks ++ [',', ']', '}']

def Blank (text : Text) : Prop := ∀ c ∈ text, c ∈ blanks

/-- The text ends here, or a delimiter follows. -/
def Delimited (text : Text) : Prop := ∀ c ∈ text.head?, c ∈ delimiters

def Begins (text : Text) : Prop := ∃ c more, text = c :: more ∧ c ∉ delimiters

theorem afterBlanks_append {blank : Text} (hblank : Blank blank) (text : Text) :
    afterBlanks (blank ++ text) = afterBlanks text := by
  rw [afterBlanks, List.dropWhile_append_of_pos]
  · rfl
  · intro c hc
    have hmem := hblank c hc
    simp only [blanks, List.mem_cons, List.not_mem_nil, or_false] at hmem
    rcases hmem with rfl | rfl | rfl | rfl <;> rfl

theorem afterBlanks_cons {c : Char} (h : c ∉ blanks) (text : Text) :
    afterBlanks (c :: text) = c :: text := by
  simp only [blanks, List.mem_cons, List.not_mem_nil, or_false, not_or] at h
  simp [afterBlanks, h]

theorem not_mem_blanks_of_not_mem_delimiters {c : Char} (h : c ∉ delimiters) : c ∉ blanks :=
  fun hc => h (List.mem_append_left _ hc)

theorem Begins.afterBlanks_append {text : Text} (h : Begins text) (rest : Text) :
    afterBlanks (text ++ rest) = text ++ rest := by
  obtain ⟨c, more, rfl, hc⟩ := h
  exact afterBlanks_cons (not_mem_blanks_of_not_mem_delimiters hc) _

theorem Begins.ne_nil {text : Text} (h : Begins text) : text ≠ [] := by
  obtain ⟨c, more, rfl, -⟩ := h
  exact List.cons_ne_nil _ _

theorem delimited_nil : Delimited [] := by simp [Delimited]

theorem delimited_cons {c : Char} (h : c ∈ delimiters) (text : Text) : Delimited (c :: text) := by
  simpa [Delimited] using h

theorem Blank.delimited {blank text : Text} (hblank : Blank blank) (htext : Delimited text) :
    Delimited (blank ++ text) := by
  cases blank with
  | nil => exact htext
  | cons c blank =>
      have hc := hblank c (List.mem_cons_self ..)
      exact delimited_cons (List.mem_append_left _ hc) _

theorem not_digit_of_mem_delimiters {c : Char} (h : c ∈ delimiters) :
    c.isDigit = false ∧ c ≠ '.' ∧ c ≠ 'e' ∧ c ≠ 'E' := by
  simp only [delimiters, blanks, List.cons_append, List.nil_append, List.mem_cons,
    List.not_mem_nil, or_false] at h
  rcases h with rfl | rfl | rfl | rfl | rfl | rfl | rfl <;> decide

end Json

/-! ## Numbers -/

namespace Text

section

variable {p : Char → Bool} {text text' rest rest' : Text}

theorem span_append (htext : ∀ c ∈ text, p c) (hrest : ∀ c ∈ rest.head?, p c = false) :
    (text ++ rest).span p = (text, rest) := by
  have hstop : rest.takeWhile p = [] ∧ rest.dropWhile p = rest := by
    cases rest with
    | nil => exact ⟨rfl, rfl⟩
    | cons c rest => simp [hrest c rfl]
  rw [List.span_eq_takeWhile_dropWhile, List.takeWhile_append_of_pos htext,
    List.dropWhile_append_of_pos htext, hstop.1, hstop.2, List.append_nil]

theorem append_inj_of_span (htext : ∀ c ∈ text, p c) (htext' : ∀ c ∈ text', p c)
    (hrest : ∀ c ∈ rest.head?, p c = false) (hrest' : ∀ c ∈ rest'.head?, p c = false)
    (h : text ++ rest = text' ++ rest') : text = text' ∧ rest = rest' := by
  have hspan := span_append htext hrest
  rw [h, span_append htext' hrest', Prod.mk.injEq] at hspan
  exact ⟨hspan.1.symm, hspan.2.symm⟩

end

end Text

namespace Json

namespace Numeral

variable {rest : Text}

theorem readDigits_append {digits : Text} (hdigits : ∀ c ∈ digits, c.isDigit) (hne : digits ≠ [])
    (hrest : Delimited rest) (atEnd : JsonFault) :
    readDigits atEnd (digits ++ rest) = .ok (digits, rest) := by
  have hspan : (digits ++ rest).span Char.isDigit = (digits, rest) :=
    Text.span_append hdigits fun c hc => (not_digit_of_mem_delimiters (hrest c hc)).1
  cases digits with
  | nil => exact absurd rfl hne
  | cons c digits =>
      have hc := hdigits c (List.mem_cons_self ..)
      rw [readDigits.eq_def]
      simp only [List.cons_append, hc, if_true] at hspan ⊢
      rw [hspan]

theorem readFraction_of_delimited (hrest : Delimited rest) (atEnd : JsonFault) :
    readFraction atEnd rest = .ok ([], rest) := by
  unfold readFraction
  split
  · exact absurd rfl (not_digit_of_mem_delimiters (hrest '.' rfl)).2.1
  · rfl

theorem readExponent_of_delimited (hrest : Delimited rest) (atEnd : JsonFault) :
    readExponent atEnd rest = .ok (none, rest) := by
  unfold readExponent
  split
  · exact absurd rfl (not_digit_of_mem_delimiters (hrest 'e' rfl)).2.2.1
  · exact absurd rfl (not_digit_of_mem_delimiters (hrest 'E' rfl)).2.2.2
  · rfl

end Numeral

end Json

namespace Text

theorem isDigit_of_mem_ofNat {number : Nat} {c : Char} (h : c ∈ ofNat number) : c.isDigit :=
  Nat.isDigit_of_mem_toDigits (by decide) (by decide) h

theorem ofNat_ne_nil (number : Nat) : ofNat number ≠ [] := Nat.toDigits_ne_nil

/-- Only the number zero is written with a zero in front. -/
theorem eq_zero_of_head?_ofNat {number : Nat} (h : (ofNat number).head? = some '0') :
    number = 0 := by
  induction number using Nat.strongRecOn with
  | ind number ih =>
      by_cases hsmall : number < 10
      · rw [ofNat, Nat.toDigits_of_lt_base hsmall, List.head?_cons, Option.some.injEq,
          Nat.digitChar_eq_zero] at h
        exact h
      · have hlarge : 10 ≤ number := Nat.le_of_not_lt hsmall
        have hfront : (ofNat (number / 10)).head? = some '0' := by
          rw [ofNat, Nat.toDigits_of_base_le (by decide) hlarge] at h
          cases hdigits : ofNat (number / 10) with
          | nil => exact absurd hdigits (ofNat_ne_nil _)
          | cons c digits =>
              rw [ofNat] at hdigits
              rwa [hdigits] at h
        have hzero := ih (number / 10) (by omega) hfront
        omega

end Text

namespace Json

namespace Numeral

variable {rest : Text}

theorem naturalOf_ofNat (number : Nat) : naturalOf (Text.ofNat number) = number := by
  rw [naturalOf, ← Nat.ofDigitChars_eq_foldl]
  exact Nat.ofDigitChars_ten_toDigits

theorem readWhole_ofNat (number : Nat) (hrest : Delimited rest) (atEnd : JsonFault) :
    readWhole atEnd (Text.ofNat number ++ rest) = .ok (Text.ofNat number, rest) := by
  rw [readWhole, readDigits_append (fun c => Text.isDigit_of_mem_ofNat) (Text.ofNat_ne_nil number)
    hrest]
  simp only [ok_bind]
  split
  · next hzero =>
      -- a zero in front is the number zero, which has one digit
      have hnumber : number = 0 := Text.eq_zero_of_head?_ofNat (by rw [hzero]; rfl)
      simp [hnumber, Text.ofNat] at hzero
  · rfl

theorem read_ofNat (number : Nat) (hrest : Delimited rest) (atEnd : JsonFault) :
    Numeral.read atEnd (Text.ofNat number ++ rest) =
      .ok (⟨false, Text.ofNat number, [], none⟩, rest) := by
  have hsign : ∀ more, Text.ofNat number ++ rest ≠ '-' :: more := by
    intro more heq
    cases hdigits : Text.ofNat number with
    | nil => exact Text.ofNat_ne_nil number hdigits
    | cons c digits =>
        rw [hdigits, List.cons_append, List.cons.injEq] at heq
        have hc : c.isDigit := Text.isDigit_of_mem_ofNat (hdigits ▸ List.mem_cons_self)
        rw [heq.1] at hc
        contradiction
  unfold Numeral.read
  split
  next text heq =>
    split at heq
    · next hminus => exact absurd hminus (hsign _)
    · cases heq
      simp [readWhole_ofNat number hrest, readFraction_of_delimited hrest,
        readExponent_of_delimited hrest]

theorem read_neg_ofNat (number : Nat) (hrest : Delimited rest) (atEnd : JsonFault) :
    Numeral.read atEnd ('-' :: (Text.ofNat number ++ rest)) =
      .ok (⟨true, Text.ofNat number, [], none⟩, rest) := by
  simp [Numeral.read, readWhole_ofNat number hrest, readFraction_of_delimited hrest,
    readExponent_of_delimited hrest]

end Numeral

/-- The integers that are written as they are and read as integers. -/
def Fits : Int → Prop
  | .ofNat number => number < UInt64.size
  | .negSucc predecessor => predecessor < UInt64.size / 2

theorem readNumber_ofInt {value : Int} (hvalue : Fits value) {rest : Text}
    (hrest : Delimited rest) :
    readNumber (Text.ofInt value ++ rest) = .ok (.integer value, rest) := by
  cases value with
  | ofNat number =>
      have hnumber : number < UInt64.size := hvalue
      simp [Text.ofInt, readNumber, Numeral.read_ofNat number hrest, Numeral.toJson,
        Numeral.toInteger?, Numeral.naturalOf_ofNat, hnumber]
  | negSucc predecessor =>
      have hnumber : predecessor + 1 ≤ UInt64.size / 2 := hvalue
      simp [Text.ofInt, readNumber, Numeral.read_neg_ofNat _ hrest, Numeral.toJson,
        Numeral.toInteger?, Numeral.naturalOf_ofNat, hnumber, Int.negSucc_eq]

theorem begins_ofInt (value : Int) :
    ∃ c more, Text.ofInt value = c :: more ∧ (c = '-' ∨ c.isDigit) := by
  cases value with
  | ofNat number =>
      cases hdigits : Text.ofNat number with
      | nil => exact absurd hdigits (Text.ofNat_ne_nil number)
      | cons c digits =>
          have hc : c.isDigit := Text.isDigit_of_mem_ofNat (hdigits ▸ List.mem_cons_self)
          exact ⟨c, digits, hdigits, .inr hc⟩
  | negSucc predecessor => exact ⟨_, _, rfl, .inl rfl⟩

end Json

theorem Text.ofNat_append_inj {number number' : Nat} {rest rest' : Text}
    (hrest : ∀ c ∈ rest.head?, c.isDigit = false) (hrest' : ∀ c ∈ rest'.head?, c.isDigit = false)
    (h : ofNat number ++ rest = ofNat number' ++ rest') : number = number' ∧ rest = rest' := by
  obtain ⟨hdigits, hrest⟩ := append_inj_of_span (fun _ => isDigit_of_mem_ofNat)
    (fun _ => isDigit_of_mem_ofNat) hrest hrest' h
  have hnumber := Json.Numeral.naturalOf_ofNat number
  rw [hdigits, Json.Numeral.naturalOf_ofNat] at hnumber
  exact ⟨hnumber.symm, hrest⟩

/-! ## Strings -/

theorem Text.hexNat_four {number : Nat} (h : number < 0x100) :
    hexNat 4 number = [hexDigit 0, hexDigit 0, hexDigit (number / 16), hexDigit (number % 16)] := by
  by_cases hsmall : number < 16
  · rw [hexNat, Nat.toDigits_of_lt_base hsmall, Nat.div_eq_of_lt hsmall, Nat.mod_eq_of_lt hsmall]
    rfl
  · have hhigh : number / 16 < 16 := by omega
    rw [hexNat, Nat.toDigits_of_base_le (by decide) (Nat.le_of_not_lt hsmall),
      Nat.toDigits_of_lt_base hhigh]
    rfl

namespace Json

theorem readUnit_hexNat {unit : Nat} (hunit : unit < 0x100) (rest : Text) :
    readUnit (Text.hexNat 4 unit ++ rest) = .ok (unit, rest) := by
  have hzero := Hex.digit?_hexDigit (show 0 < 16 by decide)
  have hhigh := Hex.digit?_hexDigit (show unit / 16 < 16 by omega)
  have hlow := Hex.digit?_hexDigit (show unit % 16 < 16 by omega)
  have hvalue : ((0 * 16 + 0) * 16 + unit / 16) * 16 + unit % 16 = unit := by omega
  rw [Text.hexNat_four hunit]
  simp only [readUnit, List.cons_append, List.nil_append, hzero, hhigh, hlow, hvalue]

theorem readEscape_hexNat {c : Char} (hc : c.toNat < 0x100) (rest : Text) :
    readEscape readCodePoint ('u' :: (Text.hexNat 4 c.toNat ++ rest)) = .ok (c, rest) := by
  have hhigh : ¬(0xD800 ≤ c.toNat ∧ c.toNat ≤ 0xDBFF) := by omega
  have hlow : ¬(0xDC00 ≤ c.toNat ∧ c.toNat ≤ 0xDFFF) := by omega
  simp only [readEscape, readCodePoint, readUnit_hexNat hc, ok_bind, if_neg hhigh, if_neg hlow,
    Char.ofNat_toNat]

/-- What is spelled for a character is read as the character, in one round. -/
structure ReadsBack (spell : Char → Text) : Prop where
  ne_nil (c : Char) : spell c ≠ []
  read (c round : Char) (rounds found rest : Text) :
    readCharacters (readEscape readCodePoint) (round :: rounds) found (spell c ++ rest) =
      readCharacters (readEscape readCodePoint) rounds (c :: found) rest

theorem readsBack_spell : ReadsBack spell where
  ne_nil c := by
    unfold spell
    split
    case h_8 => split <;> simp
    all_goals simp
  read c round rounds found rest := by
    unfold spell
    split
    case h_1 | h_2 | h_3 | h_4 | h_5 | h_6 | h_7 => rfl
    case h_8 hquote hbackslash _ _ _ _ _ =>
      by_cases hcontrol : c.toNat < 0x20
      · have hescape := readEscape_hexNat (Nat.lt_trans hcontrol (by decide)) rest
        rw [if_pos hcontrol]
        simp [readCharacters, hescape]
      · have hplain : ¬c = '"' ∧ ¬c = '\\' := ⟨hquote, hbackslash⟩
        rw [if_neg hcontrol]
        simp [readCharacters, hplain, hcontrol]

section

variable {spell : Char → Text}

theorem readCharacters_spelled (hspell : ReadsBack spell) (text : Text) {rounds : Text}
    (found rest : Text) (hrounds : (text.flatMap spell ++ '"' :: rest).length ≤ rounds.length) :
    readCharacters (readEscape readCodePoint) rounds found (text.flatMap spell ++ '"' :: rest) =
      .ok (found.reverse ++ text, rest) := by
  induction text generalizing rounds found with
  | nil =>
      cases rounds with
      | nil => simp at hrounds
      | cons round rounds => simp [readCharacters]
  | cons c text ih =>
      cases rounds with
      | nil => simp at hrounds
      | cons round rounds =>
          have hlong := List.length_pos_iff.mpr (hspell.ne_nil c)
          have hlength : (text.flatMap spell ++ '"' :: rest).length ≤ rounds.length := by
            simp only [List.flatMap_cons, List.length_append, List.length_cons] at hrounds ⊢
            omega
          rw [List.flatMap_cons, List.append_assoc, hspell.read, ih _ hlength]
          simp

theorem readString_spelled (hspell : ReadsBack spell) (text rest : Text) :
    readString (text.flatMap spell ++ '"' :: rest) = .ok (text, rest) :=
  readCharacters_spelled hspell text [] rest (Nat.le_refl _)

end

theorem readString_written (text rest : Text) :
    readString (text.flatMap spell ++ '"' :: rest) = .ok (text, rest) :=
  readString_spelled readsBack_spell text rest

end Json

end Cbor

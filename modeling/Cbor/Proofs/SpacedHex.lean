import Cbor.Proofs.Hexadecimal
import Mathlib.Data.List.Basic

/-!
# Spaced hexadecimal

Which texts are read as which bytes: those of which two digits for each byte are left, the high one
first, when the characters with the White_Space property are taken out, wherever they stand.
-/

namespace Cbor

/-! ## Blank characters -/

namespace Text

def whiteSpace : Text :=
  ['\t', '\n', '\u000B', '\u000C', '\r', ' ', '\u0085', '\u00A0', '\u1680', '\u2000', '\u2001',
    '\u2002', '\u2003', '\u2004', '\u2005', '\u2006', '\u2007', '\u2008', '\u2009', '\u200A',
    '\u2028', '\u2029', '\u202F', '\u205F', '\u3000']

theorem isBlank_iff_mem {c : Char} : isBlank c = true ↔ c ∈ whiteSpace := by
  have hinjective : Function.Injective Char.toNat := fun _ _ => Char.toNat_inj.mp
  have htabs : ∀ code : Nat, 0x09 ≤ code ∧ code ≤ 0x0D ↔
      code = 0x09 ∨ code = 0x0A ∨ code = 0x0B ∨ code = 0x0C ∨ code = 0x0D := by omega
  have hspaces : ∀ code : Nat, 0x2000 ≤ code ∧ code ≤ 0x200A ↔
      code = 0x2000 ∨ code = 0x2001 ∨ code = 0x2002 ∨ code = 0x2003 ∨ code = 0x2004 ∨
        code = 0x2005 ∨ code = 0x2006 ∨ code = 0x2007 ∨ code = 0x2008 ∨ code = 0x2009 ∨
        code = 0x200A := by omega
  rw [← List.mem_map_of_injective hinjective]
  simp only [isBlank, whiteSpace, List.map_cons, List.map_nil, List.mem_cons, List.not_mem_nil,
    Bool.or_eq_true, Bool.and_eq_true, decide_eq_true_eq, beq_iff_eq, Char.reduceToNat, htabs,
    hspaces, or_assoc, or_false]

theorem withoutBlanks_eq_filter (text : Text) :
    withoutBlanks text = text.filter (· ∉ whiteSpace) := by
  refine List.filter_congr fun c _ => ?_
  rw [Bool.eq_iff_iff, Bool.not_eq_true', ← Bool.not_eq_true, isBlank_iff_mem, decide_eq_true_eq]

theorem withoutBlanks_append (text text' : Text) :
    withoutBlanks (text ++ text') = withoutBlanks text ++ withoutBlanks text' :=
  List.filter_append ..

theorem withoutBlanks_join {separator : Text} (hseparator : withoutBlanks separator = [])
    (texts : List Text) :
    withoutBlanks (join separator texts) = texts.flatMap withoutBlanks := by
  have hrest : ∀ rest : List Text,
      withoutBlanks (rest.flatMap (separator ++ ·)) = rest.flatMap withoutBlanks := by
    intro rest
    induction rest with
    | nil => rfl
    | cons text rest ih =>
        simp only [List.flatMap_cons, withoutBlanks_append, hseparator, List.nil_append, ih]
  cases texts with
  | nil => rfl
  | cons first rest => rw [join, withoutBlanks_append, hrest, List.flatMap_cons]

/-- The second text is the first one with white space put in, at any number of places. -/
inductive Spaced : Text → Text → Prop
  | nil : Spaced [] []
  | keep {text spaced : Text} (c : Char) : Spaced text spaced → Spaced (c :: text) (c :: spaced)
  | blank {c : Char} {text spaced : Text} :
      c ∈ whiteSpace → Spaced text spaced → Spaced text (c :: spaced)

theorem Spaced.withoutBlanks_eq {text spaced : Text} (h : Spaced text spaced) :
    withoutBlanks spaced = withoutBlanks text := by
  induction h with
  | nil => rfl
  | keep c _ ih =>
      simp only [withoutBlanks] at ih
      simp only [withoutBlanks, List.filter_cons, ih]
  | @blank c text spaced hc _ ih =>
      have hblank : (!isBlank c) = false := by rw [isBlank_iff_mem.mpr hc, Bool.not_true]
      rw [withoutBlanks, List.filter_cons_of_neg (by rw [hblank]; exact Bool.false_ne_true)]
      exact ih

end Text

/-! ## Texts of digits and blank characters -/

namespace Hex

theorem withoutBlanks_encode (data : Bytes) : Text.withoutBlanks (encode data) = encode data := by
  have hdigit : ∀ number < 16, (!Text.isBlank (Text.hexDigit number)) = true := by decide
  refine List.filter_eq_self.mpr fun c hc => ?_
  obtain ⟨number, hnumber, rfl⟩ := exists_of_mem_encode hc
  exact hdigit number hnumber

theorem decodeSpaced_of_withoutBlanks {text : Text} {data : Bytes}
    (h : Text.withoutBlanks text = encode data) : decodeSpaced text = .ok data := by
  rw [decodeSpaced, h, decode_encode]

theorem decodeSpaced_eq_ok_iff {text : Text} {data : Bytes} :
    decodeSpaced text = .ok data ↔ Spells (text.filter (· ∉ Text.whiteSpace)) data := by
  rw [decodeSpaced, decode_eq_ok_iff, Text.withoutBlanks_eq_filter]

/--
A text is read as data exactly if, of its characters that are no white space, there are two digits
for each byte, which spell the data.  White space that is put into a text, be it between the two
digits of a byte, does not change what it is read as.
-/
theorem decodeSpaced_eq_ok_iff_spells (text : Text) (data : Bytes) :
    (decodeSpaced text = .ok data ↔
      (text.filter (· ∉ Text.whiteSpace)).length = 2 * data.length ∧
        Spells (text.filter (· ∉ Text.whiteSpace)) data) ∧
    ∀ spaced, Text.Spaced text spaced → decodeSpaced spaced = decodeSpaced text := by
  constructor
  · rw [decodeSpaced_eq_ok_iff]
    exact ⟨fun h => ⟨h.length_eq, h⟩, And.right⟩
  · intro spaced hspaced
    rw [decodeSpaced, decodeSpaced, hspaced.withoutBlanks_eq]

/-- Digits of both cases, a wide blank character between the two of a byte. -/
theorem decodeSpaced_eq_ok_iff_spells_wide_blank :
    let text : Text := "a16F".toList
    let spaced : Text := "a1 6\u3000F\n".toList
    Text.Spaced text spaced ∧ decodeSpaced spaced = .ok [0xA1, 0x6F] ∧
      Spells (spaced.filter (· ∉ Text.whiteSpace)) [0xA1, 0x6F] := by
  intro text spaced
  have hspaced : Text.Spaced text spaced :=
    .keep 'a' (.keep '1' (.blank (by decide) (.keep '6' (.blank (by decide) (.keep 'F'
      (.blank (by decide) .nil))))))
  have htext : decodeSpaced text = .ok [0xA1, 0x6F] := by decide
  have hread : decodeSpaced spaced = .ok [0xA1, 0x6F] :=
    ((decodeSpaced_eq_ok_iff_spells text [0xA1, 0x6F]).2 spaced hspaced).trans htext
  have hdigits := (decodeSpaced_eq_ok_iff_spells spaced [0xA1, 0x6F]).1.mp hread
  exact ⟨hspaced, hread, hdigits.2⟩

end Hex

end Cbor

import Cbor.Text.Utf8

/-!
# Well-formed text

The sequences of bytes that are characters stand between the reader and the writer of UTF-8: what is
written for a text is read as the text, and bytes that are read without an ill-formed part are what
is written for it.
-/

namespace Cbor.Utf8

/-! ## Characters as bytes -/

def IsTail (byte : UInt8) : Prop := 0x80 ≤ byte.toNat ∧ byte.toNat ≤ 0xBF

/-- The bytes of a character and its code point: no overlong forms, no surrogates, and nothing
beyond U+10FFFF. -/
inductive Sequence : Bytes → Nat → Prop
  | one {a : UInt8} : a.toNat < 0x80 → Sequence [a] a.toNat
  | two {a b : UInt8} : 0xC2 ≤ a.toNat → a.toNat < 0xE0 → IsTail b →
      Sequence [a, b] (a.toNat % 32 * 64 + b.toNat % 64)
  | three {a b c : UInt8} : 0xE0 ≤ a.toNat → a.toNat < 0xF0 → IsTail b → IsTail c →
      (a.toNat = 0xE0 → 0xA0 ≤ b.toNat) → (a.toNat = 0xED → b.toNat ≤ 0x9F) →
      Sequence [a, b, c] ((a.toNat % 16 * 64 + b.toNat % 64) * 64 + c.toNat % 64)
  | four {a b c d : UInt8} : 0xF0 ≤ a.toNat → a.toNat < 0xF5 → IsTail b → IsTail c → IsTail d →
      (a.toNat = 0xF0 → 0x90 ≤ b.toNat) → (a.toNat = 0xF4 → b.toNat ≤ 0x8F) →
      Sequence [a, b, c, d]
        (((a.toNat % 8 * 64 + b.toNat % 64) * 64 + c.toNat % 64) * 64 + d.toNat % 64)

/-! ## Reading -/

section

variable {byte : UInt8}

theorem lead?_two (hlow : 0xC2 ≤ byte.toNat) (hhigh : byte.toNat < 0xE0) :
    lead? byte = some { bits := byte.toNat % 32, more := 1 } := by
  simp only [lead?, UInt8.lt_iff_toNat_lt, UInt8.reduceToNat]
  rw [if_neg (Nat.not_lt.mpr hlow), if_pos hhigh]

/-- The second byte has tighter bounds behind the first bytes at the ends of their range. -/
theorem lead?_three (hlow : 0xE0 ≤ byte.toNat) (hhigh : byte.toNat < 0xF0) :
    lead? byte = some {
      bits := byte.toNat % 16
      more := 2
      low := if byte.toNat = 0xE0 then 0xA0 else 0x80
      high := if byte.toNat = 0xED then 0x9F else 0xBF } := by
  simp only [lead?, UInt8.lt_iff_toNat_lt, ← UInt8.toNat_inj, UInt8.reduceToNat]
  grind

theorem lead?_four (hlow : 0xF0 ≤ byte.toNat) (hhigh : byte.toNat < 0xF5) :
    lead? byte = some {
      bits := byte.toNat % 8
      more := 3
      low := if byte.toNat = 0xF0 then 0x90 else 0x80
      high := if byte.toNat = 0xF4 then 0x8F else 0xBF } := by
  simp only [lead?, UInt8.lt_iff_toNat_lt, ← UInt8.toNat_inj, UInt8.reduceToNat]
  grind

theorem bounds_of_lead? {lead : Lead} (h : lead? byte = some lead) :
    0xC2 ≤ byte.toNat ∧ byte.toNat < 0xF5 := by
  simp only [lead?, UInt8.lt_iff_toNat_lt, ← UInt8.toNat_inj, UInt8.reduceToNat] at h
  grind

end

theorem continuation_cons {more : Nat} {low high : UInt8} {bits : Nat} {byte : UInt8}
    {rest : Bytes} (hlow : low.toNat ≤ byte.toNat) (hhigh : byte.toNat ≤ high.toNat) :
    continuation (more + 1) low high bits (byte :: rest) =
      continuation more 0x80 0xBF (bits * 64 + byte.toNat % 64) rest := by
  rw [continuation, if_pos ⟨UInt8.le_iff_toNat_le.mpr hlow, UInt8.le_iff_toNat_le.mpr hhigh⟩]

theorem IsTail.continuation {more bits : Nat} {byte : UInt8} (h : IsTail byte) (rest : Bytes) :
    continuation (more + 1) 0x80 0xBF bits (byte :: rest) =
      continuation more 0x80 0xBF (bits * 64 + byte.toNat % 64) rest :=
  continuation_cons h.1 h.2

theorem exists_of_continuation {more : Nat} {low high : UInt8} {bits : Nat} {input rest : Bytes}
    {c : Char} (h : continuation (more + 1) low high bits input = (some c, rest)) :
    ∃ byte tail, input = byte :: tail ∧ low.toNat ≤ byte.toNat ∧ byte.toNat ≤ high.toNat ∧
      continuation more 0x80 0xBF (bits * 64 + byte.toNat % 64) tail = (some c, rest) := by
  cases input with
  | nil => simp [continuation] at h
  | cons byte tail =>
      rw [continuation] at h
      split at h
      · next hbounds =>
          exact ⟨byte, tail, rfl, UInt8.le_iff_toNat_le.mp hbounds.1,
            UInt8.le_iff_toNat_le.mp hbounds.2, h⟩
      · simp at h

theorem eq_of_continuation_zero {low high : UInt8} {bits : Nat} {input rest : Bytes} {c : Char}
    (h : continuation 0 low high bits input = (some c, rest)) :
    c = Char.ofNat bits ∧ input = rest := by
  simpa [continuation, eq_comm] using h

/-- What bounds the second byte: it is one behind a first byte, and the first bytes at the ends of
their range bound it more tightly. -/
theorem bounds_iff_isTail {a b : UInt8} {first last : Nat} (low high : UInt8)
    (hlow : 0x80 ≤ low.toNat) (hhigh : high.toNat ≤ 0xBF) :
    ((if a.toNat = first then low else 0x80).toNat ≤ b.toNat ∧
      b.toNat ≤ (if a.toNat = last then high else 0xBF).toNat) ↔
    IsTail b ∧ (a.toNat = first → low.toNat ≤ b.toNat) ∧
      (a.toNat = last → b.toNat ≤ high.toNat) := by
  have htail : (0x80 : UInt8).toNat = 0x80 ∧ (0xBF : UInt8).toNat = 0xBF := ⟨rfl, rfl⟩
  unfold IsTail
  split <;> split <;> omega

theorem not_lt_of_le {a : UInt8} (h : 0xC2 ≤ a.toNat) : ¬a < 0x80 := by
  simp only [UInt8.lt_iff_toNat_lt, UInt8.reduceToNat]
  omega

theorem Sequence.split {a : UInt8} {more : Bytes} {code : Nat} (h : Sequence (a :: more) code)
    (rest : Bytes) : Utf8.split a (more ++ rest) = (some (Char.ofNat code), rest) := by
  cases h with
  | one ha => exact if_pos (UInt8.lt_iff_toNat_lt.mpr ha)
  | two hlow hhigh hb =>
      rw [Utf8.split, if_neg (not_lt_of_le hlow), lead?_two hlow hhigh]
      exact hb.continuation rest
  | three hlow hhigh hb hc hfirst hlast =>
      obtain ⟨hblow, hbhigh⟩ :=
        (bounds_iff_isTail 0xA0 0x9F (by decide) (by decide)).mpr ⟨hb, hfirst, hlast⟩
      rw [Utf8.split, if_neg (not_lt_of_le (by omega)), lead?_three hlow hhigh]
      exact (continuation_cons hblow hbhigh).trans (hc.continuation rest)
  | four hlow hhigh hb hc hd hfirst hlast =>
      obtain ⟨hblow, hbhigh⟩ :=
        (bounds_iff_isTail 0x90 0x8F (by decide) (by decide)).mpr ⟨hb, hfirst, hlast⟩
      rw [Utf8.split, if_neg (not_lt_of_le (by omega)), lead?_four hlow hhigh]
      exact (continuation_cons hblow hbhigh).trans
        ((hc.continuation _).trans (hd.continuation rest))

theorem exists_sequence_of_lead {a : UInt8} {lead : Lead} {input rest : Bytes} {c : Char}
    (hlead : lead? a = some lead)
    (h : continuation lead.more lead.low lead.high lead.bits input = (some c, rest)) :
    ∃ more code, input = more ++ rest ∧ Sequence (a :: more) code ∧ c = Char.ofNat code := by
  obtain ⟨hlow, hhigh⟩ := bounds_of_lead? hlead
  by_cases htwo : a.toNat < 0xE0
  · rw [lead?_two hlow htwo] at hlead
    cases hlead
    obtain ⟨b, tail, rfl, hblow, hbhigh, h⟩ := exists_of_continuation h
    obtain ⟨rfl, rfl⟩ := eq_of_continuation_zero h
    exact ⟨[b], _, rfl, .two hlow htwo ⟨hblow, hbhigh⟩, rfl⟩
  · have hthree := Nat.le_of_not_lt htwo
    by_cases hfour : a.toNat < 0xF0
    · rw [lead?_three hthree hfour] at hlead
      cases hlead
      obtain ⟨b, tail, rfl, hblow, hbhigh, h⟩ := exists_of_continuation h
      obtain ⟨c, tail, rfl, hclow, hchigh, h⟩ := exists_of_continuation h
      obtain ⟨rfl, rfl⟩ := eq_of_continuation_zero h
      obtain ⟨hb, hfirst, hlast⟩ :=
        (bounds_iff_isTail 0xA0 0x9F (by decide) (by decide)).mp ⟨hblow, hbhigh⟩
      exact ⟨[b, c], _, rfl, .three hthree hfour hb ⟨hclow, hchigh⟩ hfirst hlast, rfl⟩
    · rw [lead?_four (Nat.le_of_not_lt hfour) hhigh] at hlead
      cases hlead
      obtain ⟨b, tail, rfl, hblow, hbhigh, h⟩ := exists_of_continuation h
      obtain ⟨c, tail, rfl, hclow, hchigh, h⟩ := exists_of_continuation h
      obtain ⟨d, tail, rfl, hdlow, hdhigh, h⟩ := exists_of_continuation h
      obtain ⟨rfl, rfl⟩ := eq_of_continuation_zero h
      obtain ⟨hb, hfirst, hlast⟩ :=
        (bounds_iff_isTail 0x90 0x8F (by decide) (by decide)).mp ⟨hblow, hbhigh⟩
      exact ⟨[b, c, d], _, rfl,
        .four (Nat.le_of_not_lt hfour) hhigh hb ⟨hclow, hchigh⟩ ⟨hdlow, hdhigh⟩ hfirst hlast, rfl⟩

theorem exists_sequence_of_split {a : UInt8} {input rest : Bytes} {c : Char}
    (h : split a input = (some c, rest)) :
    ∃ more code, input = more ++ rest ∧ Sequence (a :: more) code ∧ c = Char.ofNat code := by
  rw [split] at h
  split at h
  · next ha =>
      cases h
      exact ⟨[], a.toNat, rfl, .one (UInt8.lt_iff_toNat_lt.mp ha), rfl⟩
  · split at h
    · simp at h
    · next lead hlead => exact exists_sequence_of_lead hlead h

/-! ## Writing -/

theorem Sequence.isValidChar {bytes : Bytes} {code : Nat} (h : Sequence bytes code) :
    code.isValidChar := by
  rw [Nat.isValidChar]
  cases h with
  | one ha => omega
  | two => omega
  | three _ _ hb _ _ hlast =>
      obtain ⟨hlow, hhigh⟩ := hb
      omega
  | four _ _ hb _ _ hfirst hlast =>
      obtain ⟨hlow, hhigh⟩ := hb
      omega

theorem Sequence.encodeChar {bytes : Bytes} {code : Nat} (h : Sequence bytes code) :
    String.utf8EncodeChar (Char.ofNat code) = bytes := by
  have hcode : (Char.ofNat code).val.toNat = code := by
    rw [Char.ofNat, dif_pos h.isValidChar]
    rfl
  have hbyte : ∀ (byte : UInt8) {number : Nat}, number = byte.toNat →
      UInt8.ofNat number = byte := by
    rintro byte _ rfl
    exact UInt8.ofNat_toNat
  simp only [String.utf8EncodeChar, hcode]
  cases h with
  | @one a ha => rw [if_pos (by omega), hbyte a rfl]
  | @two a b hlow hhigh hb =>
      obtain ⟨hblow, hbhigh⟩ := hb
      rw [if_neg (by omega), if_pos (by omega), hbyte a (by omega), hbyte b (by omega)]
  | @three a b c hlow hhigh hb hc hfirst hlast =>
      obtain ⟨hblow, hbhigh⟩ := hb
      obtain ⟨hclow, hchigh⟩ := hc
      rw [if_neg (by omega), if_neg (by omega), if_pos (by omega), hbyte a (by omega),
        hbyte b (by omega), hbyte c (by omega)]
  | @four a b c d hlow hhigh hb hc hd hfirst hlast =>
      obtain ⟨hblow, hbhigh⟩ := hb
      obtain ⟨hclow, hchigh⟩ := hc
      obtain ⟨hdlow, hdhigh⟩ := hd
      rw [if_neg (by omega), if_neg (by omega), if_neg (by omega), hbyte a (by omega),
        hbyte b (by omega), hbyte c (by omega), hbyte d (by omega)]

theorem exists_sequence {code : Nat} (h : code.isValidChar) : ∃ bytes, Sequence bytes code := by
  have hbyte : ∀ number < 256, ∃ byte : UInt8, byte.toNat = number :=
    fun number hnumber => ⟨UInt8.ofNat number, UInt8.toNat_ofNat_of_lt' hnumber⟩
  rw [Nat.isValidChar] at h
  obtain ⟨last, hlast⟩ := hbyte (code % 64 + 0x80) (by omega)
  obtain ⟨third, hthird⟩ := hbyte (code / 64 % 64 + 0x80) (by omega)
  obtain ⟨second, hsecond⟩ := hbyte (code / 4096 % 64 + 0x80) (by omega)
  have htails : IsTail last ∧ IsTail third ∧ IsTail second := by
    unfold IsTail
    omega
  obtain ⟨hlast', hthird', hsecond'⟩ := htails
  by_cases hone : code < 0x80
  · obtain ⟨a, rfl⟩ := hbyte code (by omega)
    exact ⟨[a], .one hone⟩
  · by_cases htwo : code < 0x800
    · obtain ⟨a, ha⟩ := hbyte (code / 64 + 0xC0) (by omega)
      have hsequence : Sequence [a, last] _ := .two (by omega) (by omega) hlast'
      have hcode : a.toNat % 32 * 64 + last.toNat % 64 = code := by omega
      exact ⟨_, hcode ▸ hsequence⟩
    · by_cases hthree : code < 0x10000
      · obtain ⟨a, ha⟩ := hbyte (code / 4096 + 0xE0) (by omega)
        have hsequence : Sequence [a, third, last] _ :=
          .three (by omega) (by omega) hthird' hlast' (by omega) (by omega)
        have hcode : (a.toNat % 16 * 64 + third.toNat % 64) * 64 + last.toNat % 64 = code := by
          omega
        exact ⟨_, hcode ▸ hsequence⟩
      · obtain ⟨a, ha⟩ := hbyte (code / 262144 + 0xF0) (by omega)
        have hsequence : Sequence [a, second, third, last] _ :=
          .four (by omega) (by omega) hsecond' hthird' hlast' (by omega) (by omega)
        have hcode : ((a.toNat % 8 * 64 + second.toNat % 64) * 64 + third.toNat % 64) * 64 +
            last.toNat % 64 = code := by omega
        exact ⟨_, hcode ▸ hsequence⟩

theorem sequence_encodeChar (c : Char) : Sequence (String.utf8EncodeChar c) c.toNat := by
  have hvalid : c.toNat.isValidChar := c.valid
  obtain ⟨bytes, hbytes⟩ := exists_sequence hvalid
  have hencode := hbytes.encodeChar
  rw [Char.ofNat_toNat] at hencode
  rwa [hencode]

/-! ## Texts -/

theorem Sequence.exists_cons {bytes : Bytes} {code : Nat} (h : Sequence bytes code) :
    ∃ a more, bytes = a :: more := by
  cases h <;> exact ⟨_, _, rfl⟩

theorem loop_step (round : UInt8) (rounds : Bytes) (found : List (Option Char)) (byte : UInt8)
    (rest : Bytes) :
    read.loop (round :: rounds) found (byte :: rest) =
      read.loop rounds ((split byte rest).1 :: found) (split byte rest).2 := rfl

theorem loop_eq_append (rounds : Bytes) (found : List (Option Char)) (rest : Bytes) :
    read.loop rounds found rest = found.reverse ++ read.loop rounds [] rest := by
  induction rounds generalizing found rest with
  | nil => simp [read.loop]
  | cons round rounds ih =>
      cases rest with
      | nil => simp [read.loop]
      | cons byte rest =>
          rw [loop_step, loop_step, ih, ih [(split byte rest).1], List.reverse_cons,
            List.append_assoc]
          rfl

theorem loop_cons (round : UInt8) (rounds : Bytes) (byte : UInt8) (rest : Bytes) :
    read.loop (round :: rounds) [] (byte :: rest) =
      (split byte rest).1 :: read.loop rounds [] (split byte rest).2 := by
  rw [loop_step, loop_eq_append]
  rfl

theorem loop_encode (text : Text) {rounds : Bytes}
    (hrounds : (encode text).length ≤ rounds.length) :
    read.loop rounds [] (encode text) = text.map some := by
  induction text generalizing rounds with
  | nil => cases rounds <;> rfl
  | cons c text ih =>
      have hsequence := sequence_encodeChar c
      obtain ⟨a, more, hchar⟩ := hsequence.exists_cons
      have hsplit : encode (c :: text) = a :: (more ++ encode text) := by
        rw [encode, List.flatMap_cons, hchar]
        rfl
      rw [hchar] at hsequence
      rw [hsplit] at hrounds ⊢
      cases rounds with
      | nil => contradiction
      | cons round rounds =>
          have hlength : (encode text).length ≤ rounds.length := by
            simp only [List.length_cons, List.length_append] at hrounds
            omega
          rw [loop_cons, hsequence.split, Char.ofNat_toNat, ih hlength]
          rfl

theorem read_encode (text : Text) : read (encode text) = text.map some :=
  loop_encode text (Nat.le_refl _)

theorem lossy_encode (text : Text) : lossy (encode text) = text := by
  rw [lossy, read_encode, List.map_map]
  exact List.map_id' text

theorem encode_injective : Function.Injective encode :=
  Function.LeftInverse.injective lossy_encode

theorem decode?_encode (text : Text) : decode? (encode text) = some text := by
  simp [decode?, read_encode]

theorem encode_of_loop_eq {rounds rest : Bytes} {text : Text}
    (hrounds : rest.length ≤ rounds.length) (h : read.loop rounds [] rest = text.map some) :
    encode text = rest := by
  induction rounds generalizing rest text with
  | nil =>
      rw [List.length_eq_zero_iff.mp (Nat.le_zero.mp hrounds)]
      rw [List.map_eq_nil_iff.mp h.symm]
      rfl
  | cons round rounds ih =>
      cases rest with
      | nil =>
          rw [List.map_eq_nil_iff.mp h.symm]
          rfl
      | cons byte rest =>
          obtain ⟨char, left, hsplit⟩ : ∃ char left, split byte rest = (char, left) := ⟨_, _, rfl⟩
          rw [loop_cons, hsplit] at h
          obtain ⟨c, text, rfl, rfl, htext⟩ := List.map_eq_cons_iff.mp h.symm
          obtain ⟨more, code, rfl, hsequence, rfl⟩ := exists_sequence_of_split hsplit
          have hleft : left.length ≤ rounds.length := by
            simp only [List.length_cons, List.length_append] at hrounds
            omega
          have htail := ih hleft htext.symm
          rw [encode] at htail
          rw [encode, List.flatMap_cons, htail, hsequence.encodeChar]
          rfl

theorem read_eq_map_some_iff {bytes : Bytes} {text : Text} :
    read bytes = text.map some ↔ encode text = bytes := by
  constructor
  · exact encode_of_loop_eq (Nat.le_refl _)
  · rintro rfl
    exact read_encode text

theorem decode?_eq_some_iff {bytes : Bytes} {text : Text} :
    decode? bytes = some text ↔ encode text = bytes := by
  constructor
  · intro h
    simp only [decode?] at h
    split at h
    · next hall =>
        cases h
        apply read_eq_map_some_iff.mp
        rw [List.map_filterMap_some_eq_filter_map_isSome, List.map_id]
        exact (List.filter_eq_self.mpr (List.all_eq_true.mp hall)).symm
    · contradiction
  · rintro rfl
    exact decode?_encode text

theorem encode_lossy {bytes : Bytes} (h : '\uFFFD' ∉ lossy bytes) :
    encode (lossy bytes) = bytes := by
  apply read_eq_map_some_iff.mp
  rw [lossy, List.map_map]
  refine (List.map_id _).symm.trans (List.map_congr_left fun char hchar => ?_)
  cases char with
  | some c => rfl
  | none => exact absurd (List.mem_map.mpr ⟨none, hchar, rfl⟩) h

/-- The bytes are the UTF-8 form of a text, in which U+FFFD does not occur. -/
def IsPlain (bytes : Bytes) : Prop := ∃ text, '\uFFFD' ∉ text ∧ encode text = bytes

theorem isPlain_iff {bytes : Bytes} : IsPlain bytes ↔ '\uFFFD' ∉ lossy bytes := by
  constructor
  · rintro ⟨text, htext, rfl⟩
    rwa [lossy_encode]
  · intro h
    exact ⟨lossy bytes, h, encode_lossy h⟩

theorem IsPlain.eq_of_lossy_eq {bytes other : Bytes} (h : IsPlain bytes)
    (heq : lossy other = lossy bytes) : other = bytes := by
  have hbytes := isPlain_iff.mp h
  have hother : '\uFFFD' ∉ lossy other := heq ▸ hbytes
  rw [← encode_lossy hother, heq, encode_lossy hbytes]

/-- The bytes are the UTF-8 form of a text. -/
def WellFormed (bytes : Bytes) : Prop := ∃ text, encode text = bytes

theorem WellFormed.encode_lossy {bytes : Bytes} (h : WellFormed bytes) :
    encode (lossy bytes) = bytes := by
  obtain ⟨text, rfl⟩ := h
  rw [lossy_encode]

end Cbor.Utf8

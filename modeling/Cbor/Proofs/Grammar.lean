import Cbor.Item.Entries
import Cbor.Proofs.BigEndian
import Cbor.Proofs.Widening
import Cbor.Wire.Cursor
import Cbor.Wire.Head
import Mathlib.Algebra.Ring.Nat

/-!
# The grammar of items

Which bytes encode which item, said without a reader: heads, strings, and items under a budget
of nested arrays, maps and tags.  An argument may be spelled wider than it has to be.
-/

namespace Cbor

variable {α : Type}

/-! ## Heads -/

namespace Head

def toByte (head : Head) : UInt8 := UInt8.ofNat (32 * head.major.code + head.info)

theorem ofByte_toByte {major : Major} {info : Nat} (h : info < 32) :
    ofByte (toByte ⟨major, info⟩) = ⟨major, info⟩ := by
  have hcode : major.code < 8 := by cases major <;> decide
  have hbyte : (toByte ⟨major, info⟩).toNat = 32 * major.code + info := by
    simp only [toByte, UInt8.toNat_ofNat']
    omega
  have hdiv : (32 * major.code + info) / 32 = major.code := by omega
  have hmod : (32 * major.code + info) % 32 = info := by omega
  rw [ofByte, hbyte, hdiv, hmod, Major.ofCode_code]

theorem toByte_ofByte (byte : UInt8) : toByte (ofByte byte) = byte := by
  have hcode : ∀ code < 8, (Major.ofCode code).code = code := by decide
  have hbyte := byte.toNat_lt
  apply UInt8.toNat_inj.mp
  simp only [toByte, ofByte, UInt8.toNat_ofNat', hcode (byte.toNat / 32) (by omega)]
  omega

end Head

namespace Argument

def widths : List (Nat × Nat) := [(24, 1), (25, 2), (26, 4), (27, 8)]

/-- What the bytes behind a first byte with the additional information `info` stand for. -/
inductive Spells : (info : Nat) → (word : Bytes) → Argument → Prop
  | small {info : Nat} (hinfo : info < 24) : Spells info [] (.number (UInt64.ofNat info))
  | wide {info width : Nat} {number : UInt64} (hwidth : (info, width) ∈ widths)
      (hfits : number.toNat < 256 ^ width) :
      Spells info (Bytes.ofNat width number.toNat) (.number number)
  | indefinite : Spells 31 [] .indefinite

theorem info_lt_of_mem_widths {info width : Nat} (h : (info, width) ∈ widths) : info < 28 := by
  simp [widths] at h
  omega

theorem Spells.info_lt {info : Nat} {word : Bytes} {argument : Argument}
    (h : Spells info word argument) : info < 32 := by
  cases h with
  | small hinfo => omega
  | wide hwidth => exact Nat.lt_trans (info_lt_of_mem_widths hwidth) (by decide)
  | indefinite => decide

end Argument

/-- The head of an item: its first byte and the bytes of its argument. -/
inductive Head.Spells (major : Major) : (word : Bytes) → Argument → Prop
  | mk {info : Nat} {word : Bytes} {argument : Argument} :
      Argument.Spells info word argument →
      Head.Spells major (Head.toByte ⟨major, info⟩ :: word) argument

/-! ## Words in a row -/

/-- Words of a language one after another, and what each of them means. -/
inductive Row (Word : Bytes → α → Prop) : Bytes → List α → Prop
  | nil : Row Word [] []
  | cons {word body : Bytes} {x : α} {xs : List α} :
      Word word x → Row Word body xs → Row Word (word ++ body) (x :: xs)

theorem Row.sum_map_le_length {Word : Bytes → α → Prop} {weight : α → Nat}
    (hweight : ∀ {word x}, Word word x → weight x ≤ word.length) {body : Bytes} {xs : List α}
    (h : Row Word body xs) : (xs.map weight).sum ≤ body.length := by
  induction h with
  | nil => exact Nat.zero_le _
  | cons hword _ ih =>
      rw [List.map_cons, List.sum_cons, List.length_append]
      exact Nat.add_le_add (hweight hword) ih

/-! ## Strings -/

inductive EncodesChunk (major : Major) : Bytes → Bytes → Prop
  | mk {head content : Bytes} {length : UInt64} :
      Head.Spells major head (.number length) → content.length = length.toNat →
      EncodesChunk major (head ++ content) content

/-- A string of either form; the chunks of an indefinite one are definite. -/
inductive EncodesString (major : Major) : Bytes → Bytes → Prop
  | definite {word content : Bytes} :
      EncodesChunk major word content → EncodesString major word content
  | chunked {head body : Bytes} {chunks : List Bytes} :
      Head.Spells major head .indefinite → Row (EncodesChunk major) body chunks →
      EncodesString major (head ++ (body ++ [breakByte])) chunks.flatten

/-! ## Items -/

/-- Items that hold no other items. -/
inductive EncodesLeaf : Bytes → Item → Prop
  | unsigned {head : Bytes} {number : UInt64} :
      Head.Spells .unsigned head (.number number) → EncodesLeaf head (.unsigned number)
  | negative {head : Bytes} {number : UInt64} :
      Head.Spells .negative head (.number number) → number.toNat < 2 ^ 64 - 1 →
      EncodesLeaf head (.negative (number + 1))
  | bytes {word content : Bytes} :
      EncodesString .bytes word content → EncodesLeaf word (.bytes content)
  | text {word content : Bytes} :
      EncodesString .text word content → EncodesLeaf word (.text content)
  | no : EncodesLeaf [Head.toByte ⟨.simple, 20⟩] (.bool false)
  | yes : EncodesLeaf [Head.toByte ⟨.simple, 21⟩] (.bool true)
  | null : EncodesLeaf [Head.toByte ⟨.simple, 22⟩] .null
  | undefined : EncodesLeaf [Head.toByte ⟨.simple, 23⟩] .undefined
  | half {bits : Nat} {wide : UInt32} (hbits : bits < 2 ^ 16)
      (hwide : FloatFormat.WidensHalf bits wide.toNat) :
      EncodesLeaf (Head.toByte ⟨.simple, 25⟩ :: Bytes.ofNat 2 bits) (.single wide)
  | single (bits : UInt32) :
      EncodesLeaf (Head.toByte ⟨.simple, 26⟩ :: Bytes.ofNat 4 bits.toNat) (.single bits)
  | double (bits : UInt64) :
      EncodesLeaf (Head.toByte ⟨.simple, 27⟩ :: Bytes.ofNat 8 bits.toNat) (.double bits)

mutual

/-- Items under a budget of levels; each array, map and tag takes one. -/
inductive Encodes : (budget : Nat) → Bytes → Item → Prop
  | leaf {budget : Nat} {word : Bytes} {item : Item} :
      EncodesLeaf word item → Encodes budget word item
  | array {budget : Nat} {head body : Bytes} {count : UInt64} {items : List Item} :
      Head.Spells .array head (.number count) → EncodesItems budget body items →
      items.length = count.toNat → Encodes (budget + 1) (head ++ body) (.array items)
  | openArray {budget : Nat} {head body : Bytes} {items : List Item} :
      Head.Spells .array head .indefinite → EncodesItems budget body items →
      Encodes (budget + 1) (head ++ (body ++ [breakByte])) (.array items)
  | map {budget : Nat} {head body : Bytes} {count : UInt64} {pairs : List (Bytes × Item)} :
      Head.Spells .map head (.number count) → EncodesPairs budget body pairs →
      pairs.length = count.toNat →
      Encodes (budget + 1) (head ++ body) (.map (Entries.ofPairs pairs))
  | openMap {budget : Nat} {head body : Bytes} {pairs : List (Bytes × Item)} :
      Head.Spells .map head .indefinite → EncodesPairs budget body pairs →
      Encodes (budget + 1) (head ++ (body ++ [breakByte])) (.map (Entries.ofPairs pairs))
  | tagged {budget : Nat} {head word : Bytes} {tag : UInt64} {content : Item} :
      Head.Spells .tag head (.number tag) → Encodes budget word content →
      Encodes (budget + 1) (head ++ word) (.tagged tag content)

inductive EncodesItems : (budget : Nat) → Bytes → List Item → Prop
  | nil {budget : Nat} : EncodesItems budget [] []
  | cons {budget : Nat} {word body : Bytes} {item : Item} {items : List Item} :
      Encodes budget word item → EncodesItems budget body items →
      EncodesItems budget (word ++ body) (item :: items)

inductive EncodesPairs : (budget : Nat) → Bytes → List (Bytes × Item) → Prop
  | nil {budget : Nat} : EncodesPairs budget [] []
  | cons {budget : Nat} {keyWord word body key : Bytes} {item : Item}
      {pairs : List (Bytes × Item)} :
      EncodesString .text keyWord key → Encodes budget word item →
      EncodesPairs budget body pairs →
      EncodesPairs budget (keyWord ++ word ++ body) ((key, item) :: pairs)

end

end Cbor

import Cbor.Proofs.MapEntries
import Cbor.Proofs.Sequences

/-!
# The nesting limit

The limit turns a decoding into a refusal or leaves it as it is: what decodes, and every other
fault, is the same under all larger limits.  An item nests no deeper than its limit, and only data
with more openings of levels than the limit allows can be refused.
-/

namespace Cbor

variable {limit budget : Nat}

/-! ## Nesting of items -/

namespace Item

mutual

/-- The number of arrays, maps and tags inside one another. -/
def nesting : Item → Nat
  | .array items => itemsNesting items + 1
  | .map entries => entriesNesting entries + 1
  | .tagged _ content => nesting content + 1
  | .unsigned _ | .negative _ | .bytes _ | .text _ | .bool _ | .null | .undefined | .single _
  | .double _ => 0

def itemsNesting : List Item → Nat
  | [] => 0
  | item :: items => max (nesting item) (itemsNesting items)

def entriesNesting : List (Bytes × Item) → Nat
  | [] => 0
  | (_, value) :: entries => max (nesting value) (entriesNesting entries)

end

theorem itemsNesting_le_iff {items : List Item} {bound : Nat} :
    itemsNesting items ≤ bound ↔ ∀ item ∈ items, item.nesting ≤ bound := by
  induction items with
  | nil => simp [itemsNesting]
  | cons item items ih => simp only [itemsNesting, Nat.max_le, ih, List.forall_mem_cons]

theorem entriesNesting_le_iff {entries : List (Bytes × Item)} {bound : Nat} :
    entriesNesting entries ≤ bound ↔ ∀ entry ∈ entries, entry.2.nesting ≤ bound := by
  induction entries with
  | nil => simp [entriesNesting]
  | cons entry entries ih => simp only [entriesNesting, Nat.max_le, ih, List.forall_mem_cons]

end Item

theorem Row.forall_mem {α : Type} {Word : Bytes → α → Prop} {P : α → Prop}
    (hword : ∀ {word x}, Word word x → P x) {body : Bytes} {xs : List α}
    (h : Row Word body xs) : ∀ x ∈ xs, P x := by
  induction h with
  | nil => simp
  | cons hfirst _ ih => simpa using ⟨hword hfirst, ih⟩

theorem EncodesLeaf.nesting_eq {word : Bytes} {item : Item} (h : EncodesLeaf word item) :
    item.nesting = 0 := by
  cases h <;> rfl

theorem Encodes.nesting_le {word : Bytes} {item : Item} (h : Encodes budget word item) :
    item.nesting ≤ budget := by
  induction budget generalizing word item with
  | zero =>
      cases h with
      | leaf hleaf => exact Nat.le_of_eq hleaf.nesting_eq
  | succ budget ih =>
      have hitems : ∀ {body items}, EncodesItems budget body items →
          Item.itemsNesting items ≤ budget := by
        intro body items h
        apply Item.itemsNesting_le_iff.mpr
        exact (encodesItems_iff_row.mp h).forall_mem fun hitem => ih hitem
      -- repeated keys drop values but add none
      have hpairs : ∀ {body pairs}, EncodesPairs budget body pairs →
          Item.entriesNesting (Entries.ofPairs pairs) ≤ budget := by
        intro body pairs h
        have hpair : ∀ {word pair}, EncodesPair budget word pair → pair.2.nesting ≤ budget := by
          rintro _ _ ⟨-, hitem⟩
          exact ih hitem
        apply Item.entriesNesting_le_iff.mpr
        intro entry hentry
        exact (encodesPairs_iff_row.mp h).forall_mem (fun hword => hpair hword) entry
          (Entries.mem_of_mem_ofPairs hentry)
      cases h with
      | leaf hleaf => rw [hleaf.nesting_eq]; exact Nat.zero_le _
      | array _ h => exact Nat.succ_le_succ (hitems h)
      | openArray _ h => exact Nat.succ_le_succ (hitems h)
      | map _ h => exact Nat.succ_le_succ (hpairs h)
      | openMap _ h => exact Nat.succ_le_succ (hpairs h)
      | tagged _ h => exact Nat.succ_le_succ (ih h)

/-! ## Larger budgets -/

theorem Row.imp {α : Type} {Word Word' : Bytes → α → Prop}
    (hword : ∀ {word x}, Word word x → Word' word x) {body : Bytes} {xs : List α}
    (h : Row Word body xs) : Row Word' body xs := by
  induction h with
  | nil => exact .nil
  | cons hfirst _ ih => exact .cons (hword hfirst) ih

theorem EncodesItems.imp {low high : Nat}
    (hitem : ∀ {word item}, Encodes low word item → Encodes high word item) {body : Bytes}
    {items : List Item} (h : EncodesItems low body items) : EncodesItems high body items :=
  encodesItems_iff_row.mpr ((encodesItems_iff_row.mp h).imp hitem)

theorem EncodesPairs.imp {low high : Nat}
    (hitem : ∀ {word item}, Encodes low word item → Encodes high word item) {body : Bytes}
    {pairs : List (Bytes × Item)} (h : EncodesPairs low body pairs) :
    EncodesPairs high body pairs := by
  apply encodesPairs_iff_row.mpr
  apply (encodesPairs_iff_row.mp h).imp
  rintro _ _ ⟨hkey, hvalue⟩
  exact .mk hkey (hitem hvalue)

theorem Encodes.mono {low high : Nat} (hle : low ≤ high) {word : Bytes} {item : Item}
    (h : Encodes low word item) : Encodes high word item := by
  induction low generalizing high word item with
  | zero =>
      cases h with
      | leaf hleaf => exact .leaf hleaf
  | succ low ih =>
      cases high with
      | zero => contradiction
      | succ high =>
          have hitem : ∀ {word item}, Encodes low word item → Encodes high word item :=
            fun hitem => ih (Nat.le_of_succ_le_succ hle) hitem
          cases h with
          | leaf hleaf => exact .leaf hleaf
          | array hhead hitems hcount => exact .array hhead (hitems.imp hitem) hcount
          | openArray hhead hitems => exact .openArray hhead (hitems.imp hitem)
          | map hhead hpairs hcount => exact .map hhead (hpairs.imp hitem) hcount
          | openMap hhead hpairs => exact .openMap hhead (hpairs.imp hitem)
          | tagged hhead hcontent => exact .tagged hhead (hitem hcontent)

theorem Level.mono {low high : Nat} (hle : low ≤ high) {word : Bytes} {slot : Slot}
    (h : Level low word slot) : Level high word slot := by
  cases h with
  | array hhead hitems hallows => exact .array hhead (hitems.imp (Encodes.mono hle)) hallows
  | key hhead hpairs hallows => exact .key hhead (hpairs.imp (Encodes.mono hle)) hallows
  | value hhead hpairs hallows hkey =>
      exact .value hhead (hpairs.imp (Encodes.mono hle)) hallows hkey
  | tag hhead => exact .tag hhead

theorem OpenContext.mono {low high levels : Nat} (hle : low ≤ high) {slot last : Slot}
    {context : Bytes} (h : OpenContext low levels slot context last) :
    OpenContext high levels slot context last := by
  induction h generalizing high with
  | here => exact .here
  | level hlevel _ ih =>
      cases high with
      | zero => contradiction
      | succ high =>
          have hle := Nat.le_of_succ_le_succ hle
          exact .level (hlevel.mono hle) (ih hle)
  | string hmajor hhead hrow => exact .string hmajor hhead hrow
  | keyString hhead hrow => exact .keyString hhead hrow

/-! ## Faults under another limit -/

section

variable {limit' budget' : Nat} {input : Bytes} {error : DecodeError}

theorem ItemFault.change (h : ItemFault limit budget input error)
    (herror : error ≠ .depthExceeded limit) : ItemFault limit' budget' input error := by
  cases h with
  | ended => exact .ended
  | head hmajor hhead => exact .head hmajor hhead
  | indefinite hmajor hhead => exact .indefinite hmajor hhead
  | overflow hhead hnumber => exact .overflow hhead hnumber
  | content hmajor hcontent => exact .content hmajor hcontent
  | simple hinfo => exact .simple hinfo
  | float hwidth hcut => exact .float hwidth hcut
  | depth => contradiction

theorem ImmediateFault.change {slot : Slot} (h : ImmediateFault limit budget slot input error)
    (herror : error ≠ .depthExceeded limit) : ImmediateFault limit' budget' slot input error := by
  cases slot with
  | item closable =>
      cases h with
      | element hitem => exact .element (hitem.change herror)
      | ended => exact .ended
      | closable hinput hitem => exact .closable hinput (hitem.change herror)
  | key | chunk => exact h

theorem FirstFault.mono {slot : Slot} (hle : budget ≤ budget')
    (h : FirstFault limit budget slot input error) (herror : error ≠ .depthExceeded limit) :
    FirstFault limit' budget' slot input error := by
  obtain ⟨hopen, hfault⟩ := h
  exact .mk (hopen.mono hle) (hfault.change herror)

end

/-! ## Decoding under two limits -/

section

variable {low high : Options} {data : Bytes}

theorem decodeWith_refused_or_eq (hle : low.maxDepth ≤ high.maxDepth) (data : Bytes) :
    decodeWith low data = .error (.depthExceeded low.maxDepth.toNat) ∨
      decodeWith low data = decodeWith high data := by
  have hle : low.maxDepth.toNat ≤ high.maxDepth.toNat := UInt64.le_iff_toNat_le.mp hle
  cases h : decodeWith low data with
  | ok found =>
      obtain ⟨item, length⟩ := found
      right
      rw [eq_comm, decodeWith_eq_ok_iff_append]
      obtain ⟨word, rest, hsplit, hword, hlength⟩ := (decodeWith_eq_ok_iff_append ..).mp h
      exact ⟨word, rest, hsplit, hword.mono hle, hlength⟩
  | error error =>
      by_cases herror : error = .depthExceeded low.maxDepth.toNat
      · left
        rw [herror]
      · right
        rw [eq_comm, decodeWith_eq_error_iff_firstFault]
        exact ((decodeWith_eq_error_iff_firstFault ..).mp h).mono hle herror

theorem decodeWith_eq_of_ok (hle : low.maxDepth ≤ high.maxDepth) {found : Item × Nat}
    (h : decodeWith low data = .ok found) : decodeWith high data = .ok found := by
  rcases decodeWith_refused_or_eq hle data with hrefused | heq
  · rw [h] at hrefused
    contradiction
  · rw [← heq, h]

theorem Walks.mono (hle : low.maxDepth ≤ high.maxDepth) {offset : Nat} {items : List Item}
    (h : Walks low data offset items) : Walks high data offset items := by
  induction h with
  | start => exact .start
  | step _ hoffset hitem ih => exact .step ih hoffset (decodeWith_eq_of_ok hle hitem)

theorem decodeAllWith_refused_or_eq (hle : low.maxDepth ≤ high.maxDepth) (data : Bytes) :
    decodeAllWith low data = .error (.depthExceeded low.maxDepth.toNat) ∨
      decodeAllWith low data = decodeAllWith high data := by
  cases h : decodeAllWith low data with
  | ok items =>
      right
      rw [eq_comm, decodeAllWith_eq_ok_iff_walks]
      exact (decodeAllWith_eq_ok_iff_walks.mp h).mono hle
  | error error =>
      obtain ⟨offset, items, hwalk, hoffset, hdecode⟩ := decodeAllWith_eq_error_iff_walkFails.mp h
      rcases decodeWith_refused_or_eq hle (data.drop offset) with hrefused | heq
      · left
        rw [hdecode] at hrefused
        cases hrefused
        rfl
      · right
        rw [eq_comm, decodeAllWith_eq_error_iff_walkFails]
        exact ⟨offset, items, hwalk.mono hle, hoffset, by rw [← heq, hdecode]⟩

end

/-! ## Openings of levels -/

/-- A byte with the major type of an item that holds others, wherever it stands. -/
def opensLevel (byte : UInt8) : Bool :=
  (Head.ofByte byte).major ∈ [Major.array, .map, .tag]

theorem Head.Spells.countP_opensLevel_pos {major : Major} {head : Bytes} {argument : Argument}
    (h : Head.Spells major head argument) (hmajor : major ∈ [Major.array, .map, .tag]) :
    0 < head.countP opensLevel := by
  obtain @⟨info, _, _, hargument⟩ := h
  have hopens : opensLevel (Head.toByte ⟨major, info⟩) = true := by
    rw [opensLevel, Head.ofByte_toByte hargument.info_lt]
    exact decide_eq_true hmajor
  rw [List.countP_cons_of_pos hopens]
  exact Nat.succ_pos _

theorem Head.OpensLevel.countP_opensLevel_pos {head : Bytes} (h : Head.OpensLevel head) :
    0 < head.countP opensLevel := by
  cases h with
  | array hhead | map hhead | tag hhead => exact hhead.countP_opensLevel_pos (by decide)

theorem Level.countP_opensLevel_pos {word : Bytes} {slot : Slot} (h : Level budget word slot) :
    0 < word.countP opensLevel := by
  cases h with
  | array hhead | key hhead | value hhead =>
      have hpos := hhead.countP_opensLevel_pos (by decide)
      rw [List.countP_append]
      omega
  | tag hhead => exact hhead.countP_opensLevel_pos (by decide)

theorem OpenContext.levels_le_countP {levels : Nat} {slot last : Slot} {context : Bytes}
    (h : OpenContext budget levels slot context last) : levels ≤ context.countP opensLevel := by
  induction h with
  | here | string | keyString => exact Nat.zero_le _
  | level hlevel _ ih =>
      have hpos := hlevel.countP_opensLevel_pos
      rw [List.countP_append]
      omega

theorem Head.Fault.ne_depthExceeded {major : Major} {input : Bytes} {bound : Nat} :
    ¬Head.Fault major input (.depthExceeded bound) := by
  rintro ⟨⟨⟩⟩

theorem KeyFault.ne_depthExceeded {input : Bytes} {bound : Nat} :
    ¬KeyFault input (.depthExceeded bound) := by
  intro hfault
  cases hfault with
  | head hhead => exact Head.Fault.ne_depthExceeded hhead
  | content hcontent => cases hcontent

theorem ItemFault.of_depthExceeded {input : Bytes} {bound : Nat}
    (h : ItemFault limit budget input (.depthExceeded bound)) :
    budget = 0 ∧ ∃ head rest, input = head ++ rest ∧ Head.OpensLevel head := by
  cases h with
  | head _ hhead => exact absurd hhead Head.Fault.ne_depthExceeded
  | content _ hcontent => cases hcontent
  | depth hbudget hhead => exact ⟨hbudget, _, _, rfl, hhead⟩

/-- Only where no level is left and another one opens, the limit is exceeded. -/
theorem ImmediateFault.of_depthExceeded {slot : Slot} {input : Bytes} {bound : Nat}
    (h : ImmediateFault limit budget slot input (.depthExceeded bound)) :
    budget = 0 ∧ ∃ head rest, input = head ++ rest ∧ Head.OpensLevel head := by
  cases slot with
  | item closable =>
      cases h with
      | element hfault | closable _ hfault => exact hfault.of_depthExceeded
  | key closable =>
      cases h with
      | element hfault | closable _ hfault => exact absurd hfault KeyFault.ne_depthExceeded
  | chunk string =>
      cases h with
      | closable _ hfault => cases hfault

theorem FirstFault.lt_countP {slot : Slot} {input : Bytes} {bound : Nat}
    (h : FirstFault limit budget slot input (.depthExceeded bound)) :
    budget < input.countP opensLevel := by
  obtain ⟨hopen, hfault⟩ := h
  obtain ⟨hbudget, head, rest, rfl, hhead⟩ := hfault.of_depthExceeded
  have hcontext := hopen.levels_le_countP
  have hpos := hhead.countP_opensLevel_pos
  rw [List.countP_append, List.countP_append]
  omega

section

variable {options : Options} {data : Bytes}

theorem decodeWith_ne_depthExceeded (h : data.countP opensLevel ≤ options.maxDepth.toNat)
    (bound : Nat) : decodeWith options data ≠ .error (.depthExceeded bound) := by
  intro hdecode
  have hlt := ((decodeWith_eq_error_iff_firstFault ..).mp hdecode).lt_countP
  omega

theorem decodeAllWith_ne_depthExceeded (h : data.countP opensLevel ≤ options.maxDepth.toNat)
    (bound : Nat) : decodeAllWith options data ≠ .error (.depthExceeded bound) := by
  intro hdecode
  obtain ⟨offset, items, -, -, hitem⟩ := decodeAllWith_eq_error_iff_walkFails.mp hdecode
  have hrest : (data.drop offset).countP opensLevel ≤ data.countP opensLevel :=
    (List.drop_sublist offset data).countP_le
  exact decodeWith_ne_depthExceeded (Nat.le_trans hrest h) bound hitem

theorem nesting_le_of_decodeWith {item : Item} {length : Nat}
    (h : decodeWith options data = .ok (item, length)) :
    item.nesting ≤ options.maxDepth.toNat := by
  obtain ⟨word, rest, -, hword, -⟩ := (decodeWith_eq_ok_iff_append ..).mp h
  exact hword.nesting_le

theorem Walks.nesting_le {offset : Nat} {items : List Item} (h : Walks options data offset items) :
    ∀ item ∈ items, item.nesting ≤ options.maxDepth.toNat := by
  induction h with
  | start => simp
  | step _ _ hitem ih =>
      intro item hmem
      rcases List.mem_append.mp hmem with hmem | hmem
      · exact ih item hmem
      · rw [List.mem_singleton.mp hmem]
        exact nesting_le_of_decodeWith hitem

end

/--
Under a larger limit a decoding is the same unless the smaller one refuses it; items nest no
deeper than the limit; and the limit refuses nothing if it is at least the number of bytes that
could open a level.
-/
theorem decodeWith_nestingLimit {low high : Options} (hle : low.maxDepth ≤ high.maxDepth)
    (data : Bytes) :
    (decodeWith low data = .error (.depthExceeded low.maxDepth.toNat) ∨
      decodeWith low data = decodeWith high data) ∧
    (decodeAllWith low data = .error (.depthExceeded low.maxDepth.toNat) ∨
      decodeAllWith low data = decodeAllWith high data) ∧
    (∀ item length, decodeWith low data = .ok (item, length) →
      item.nesting ≤ low.maxDepth.toNat) ∧
    (∀ items, decodeAllWith low data = .ok items →
      ∀ item ∈ items, item.nesting ≤ low.maxDepth.toNat) ∧
    (data.countP opensLevel ≤ low.maxDepth.toNat → ∀ bound,
      decodeWith low data ≠ .error (.depthExceeded bound) ∧
        decodeAllWith low data ≠ .error (.depthExceeded bound)) := by
  refine ⟨decodeWith_refused_or_eq hle data, decodeAllWith_refused_or_eq hle data,
    fun _ _ => nesting_le_of_decodeWith, ?_, ?_⟩
  · intro items hitems
    exact (decodeAllWith_eq_ok_iff_walks.mp hitems).nesting_le
  · intro hcount bound
    exact ⟨decodeWith_ne_depthExceeded hcount bound, decodeAllWith_ne_depthExceeded hcount bound⟩

/-- Of two arrays in a row the second nests too deep for the limit 1, but not for 2. -/
theorem decodeWith_nestingLimit_two_arrays :
    (⟨1⟩ : Options).maxDepth ≤ (⟨2⟩ : Options).maxDepth ∧
      decodeWith ⟨1⟩ [0x81, 0x00, 0x81, 0x81, 0x00] = .ok (.array [.unsigned 0], 2) ∧
      (Item.array [.unsigned 0]).nesting ≤ (⟨1⟩ : Options).maxDepth.toNat ∧
      (decodeAllWith ⟨1⟩ [0x81, 0x00, 0x81, 0x81, 0x00] = .error (.depthExceeded 1) ∨
        decodeAllWith ⟨1⟩ [0x81, 0x00, 0x81, 0x81, 0x00] =
          decodeAllWith ⟨2⟩ [0x81, 0x00, 0x81, 0x81, 0x00]) ∧
      decodeAllWith ⟨2⟩ [0x81, 0x81, 0x00] = .ok [.array [.array [.unsigned 0]]] ∧
      [0x81, 0x81, 0x00].countP opensLevel ≤ (⟨2⟩ : Options).maxDepth.toNat ∧
      decodeAllWith ⟨2⟩ [0x81, 0x81, 0x00] ≠ .error (.depthExceeded 2) := by
  have hle : (⟨1⟩ : Options).maxDepth ≤ (⟨2⟩ : Options).maxDepth := by decide
  have hitem : decodeWith ⟨1⟩ [0x81, 0x00, 0x81, 0x81, 0x00] = .ok (.array [.unsigned 0], 2) := by
    decide
  have hcount : [0x81, 0x81, 0x00].countP opensLevel ≤ (⟨2⟩ : Options).maxDepth.toNat := by decide
  obtain ⟨-, hall, hnesting, -, -⟩ := decodeWith_nestingLimit hle [0x81, 0x00, 0x81, 0x81, 0x00]
  have hrefl : (⟨2⟩ : Options).maxDepth ≤ (⟨2⟩ : Options).maxDepth := by decide
  obtain ⟨-, -, -, -, hnever⟩ := decodeWith_nestingLimit hrefl [0x81, 0x81, 0x00]
  exact ⟨hle, hitem, hnesting _ _ hitem, hall, by decide, hcount, (hnever hcount 2).2⟩

end Cbor

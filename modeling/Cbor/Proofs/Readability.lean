import Cbor.Item.Diagnostic
import Cbor.Proofs.JsonLexemes
import Cbor.Proofs.Parts
import Cbor.Proofs.WellFormedText

/-!
# Readability of diagnostic text

Items without floats and with UTF-8 for text have different diagnostic texts when they differ.
Such a text tells where it ends once it is known what may follow an item, so the parts of an array
or a map can be told apart one after another.
-/

namespace Cbor

/-! ## Lexemes -/

theorem Hex.encode_append_inj {data data' : Bytes} {rest rest' : Text}
    (h : encode data ++ '\'' :: rest = encode data' ++ '\'' :: rest') :
    data = data' ∧ rest = rest' := by
  have hdigit : ∀ number < 16, (Text.hexDigit number != '\'') = true := by decide
  have hdigits : ∀ data : Bytes, ∀ c ∈ encode data, (c != '\'') = true := by
    intro data c hc
    obtain ⟨number, hnumber, rfl⟩ := exists_of_mem_encode hc
    exact hdigit number hnumber
  obtain ⟨hencode, hrest⟩ := Text.append_inj_of_span (hdigits data) (hdigits data')
    (by simp) (by simp) h
  exact ⟨encode_injective hencode, List.tail_eq_of_cons_eq hrest⟩

namespace Diagnostic

theorem readsBack_spell : Json.ReadsBack spell where
  ne_nil c := by
    unfold spell
    split
    case h_6 => split <;> simp
    all_goals simp
  read c round rounds found rest := by
    unfold spell
    split
    case h_1 | h_2 | h_3 | h_4 | h_5 => rfl
    case h_6 hquote hbackslash _ _ _ =>
      by_cases hcontrol : Text.isControl c
      · have hcode : c.toNat < 0x100 := by
          simp [Text.isControl] at hcontrol
          omega
        rw [if_pos hcontrol]
        simp [Json.readCharacters, Json.readEscape_hexNat hcode]
      · have hplain : ¬c = '"' ∧ ¬c = '\\' := ⟨hquote, hbackslash⟩
        have hcode : ¬c.toNat < 0x20 := by
          simp [Text.isControl] at hcontrol
          omega
        rw [if_neg hcontrol]
        simp [Json.readCharacters, hplain, hcode]

theorem string_append_inj {content content' : Bytes} (hcontent : Utf8.WellFormed content)
    (hcontent' : Utf8.WellFormed content') {rest rest' : Text}
    (h : string content ++ rest = string content' ++ rest') :
    content = content' ∧ rest = rest' := by
  simp only [string, Text.quoted, List.cons_append, List.append_assoc, List.nil_append,
    List.cons.injEq, true_and] at h
  have hread := Json.readString_spelled readsBack_spell (Utf8.lossy content) rest
  rw [h, Json.readString_spelled readsBack_spell, Except.ok.injEq, Prod.mk.injEq] at hread
  refine ⟨?_, hread.2.symm⟩
  rw [← hcontent.encode_lossy, ← hread.1, hcontent'.encode_lossy]

/-! ## Rows -/

/-- The text ends here, or a character follows that may stand behind an item. -/
def Ends (rest : Text) : Prop := ∀ c ∈ rest.head?, c ∈ [',', ']', '}', ')']

theorem Ends.not_digit {rest : Text} (h : Ends rest) : ∀ c ∈ rest.head?, c.isDigit = false := by
  intro c hc
  have hmem := h c hc
  simp only [List.mem_cons, List.not_mem_nil, or_false] at hmem
  rcases hmem with rfl | rfl | rfl | rfl <;> rfl

section

variable {α : Type} {write : α → Text} {Valid : α → Prop} {close : Char} {xs ys : List α}
  {rest rest' : Text}

/-- What is written for `x` tells it from all valid values, and where it ends. -/
def Tells (write : α → Text) (Valid : α → Prop) (x : α) : Prop :=
  ∀ y, Valid y → ∀ rest rest', Ends rest → Ends rest' → write x ++ rest = write y ++ rest' →
    x = y ∧ rest = rest'

private theorem ends_tail (hclose : Ends [close]) (xs : List α) (rest : Text) :
    Ends (xs.flatMap (fun x => ", ".toList ++ write x) ++ close :: rest) := by
  cases xs with
  | nil => simpa [Ends] using hclose
  | cons x xs => simp [Ends]

theorem tail_append_inj (hclose : Ends [close]) (hcomma : close ≠ ',')
    (hxs : ∀ x ∈ xs, Tells write Valid x) (hys : ∀ y ∈ ys, Valid y)
    (h : xs.flatMap (fun x => ", ".toList ++ write x) ++ close :: rest =
      ys.flatMap (fun y => ", ".toList ++ write y) ++ close :: rest') :
    xs = ys ∧ rest = rest' := by
  induction xs generalizing ys with
  | nil =>
      cases ys with
      | nil => simpa using h
      | cons y ys => simp [hcomma] at h
  | cons x xs ih =>
      cases ys with
      | nil => simp [hcomma.symm] at h
      | cons y ys =>
          rw [List.forall_mem_cons] at hxs hys
          simp only [List.flatMap_cons, List.append_assoc, List.append_cancel_left_eq] at h
          obtain ⟨rfl, htail⟩ := hxs.1 y hys.1 _ _ (ends_tail hclose _ _) (ends_tail hclose _ _) h
          obtain ⟨rfl, hrest⟩ := ih hxs.2 hys.2 htail
          exact ⟨rfl, hrest⟩

theorem join_append_inj (hclose : Ends [close]) (hcomma : close ≠ ',')
    (hbegins : ∀ x, Valid x → ∀ rest rest', write x ++ rest ≠ close :: rest')
    (hxs : ∀ x ∈ xs, Valid x ∧ Tells write Valid x) (hys : ∀ y ∈ ys, Valid y)
    (h : Text.join ", ".toList (xs.map write) ++ close :: rest =
      Text.join ", ".toList (ys.map write) ++ close :: rest') :
    xs = ys ∧ rest = rest' := by
  cases xs with
  | nil =>
      cases ys with
      | nil => simpa [Text.join] using h
      | cons y ys =>
          simp only [List.map_cons, Text.join, List.append_assoc] at h
          exact absurd h.symm (hbegins y (hys y List.mem_cons_self) _ _)
  | cons x xs =>
      rw [List.forall_mem_cons] at hxs
      simp only [List.map_cons, Text.join, List.append_assoc, List.flatMap_map] at h
      cases ys with
      | nil => exact absurd h (hbegins x hxs.1.1 _ _)
      | cons y ys =>
          rw [List.forall_mem_cons] at hys
          simp only [List.map_cons, List.append_assoc, List.flatMap_map] at h
          obtain ⟨rfl, htail⟩ :=
            hxs.1.2 y hys.1 _ _ (ends_tail hclose _ _) (ends_tail hclose _ _) h
          obtain ⟨rfl, hrest⟩ :=
            tail_append_inj hclose hcomma (fun x hx => (hxs.2 x hx).2) hys.2 htail
          exact ⟨rfl, hrest⟩

end

end Diagnostic

/-! ## Items -/

namespace Item

/-- The item itself is no float, and what it has of text is UTF-8. -/
def Lucid : Item → Prop
  | .text content => Utf8.WellFormed content
  | .map entries => ∀ entry ∈ entries, Utf8.WellFormed entry.1
  | .single _ | .double _ => False
  | _ => True

/-- Stands for all characters that texts of the same kind of item begin with. -/
def kindOf (c : Char) : Char := if c.isDigit then '0' else if c = 'f' then 't' else c

def lead? : Item → Option Char
  | .unsigned _ | .tagged _ _ => some '0'
  | .negative _ => some '-'
  | .bytes _ => some 'h'
  | .text _ => some '"'
  | .array _ => some '['
  | .map _ => some '{'
  | .bool _ => some 't'
  | .null => some 'n'
  | .undefined => some 'u'
  | .single _ | .double _ => none

private theorem kindOf_head?_ofNat (number : Nat) (rest : Text) :
    (Text.ofNat number ++ rest).head?.map kindOf = some '0' := by
  obtain ⟨c, digits, hdigits⟩ := List.exists_cons_of_ne_nil (Text.ofNat_ne_nil number)
  have hc : c.isDigit := Text.isDigit_of_mem_ofNat (hdigits ▸ List.mem_cons_self)
  rw [hdigits]
  exact congrArg some (if_pos hc)

theorem lead?_eq {item : Item} (h : item.Lucid) (rest : Text) :
    item.lead? = (item.diagnostic ++ rest).head?.map kindOf := by
  cases item with
  | unsigned number => rw [diagnostic_unsigned, kindOf_head?_ofNat, lead?]
  | tagged tag content =>
      rw [diagnostic_tagged, List.append_assoc, List.append_assoc, kindOf_head?_ofNat, lead?]
  | bool truth => cases truth <;> rfl
  | single | double => exact h.elim
  | _ => rfl

theorem diagnostic_append_ne {item : Item} (h : item.Lucid) (rest rest' : Text) :
    item.diagnostic ++ rest ≠ ']' :: rest' := by
  intro heq
  have hlead := lead?_eq h rest
  rw [heq] at hlead
  cases item <;> simp [lead?, kindOf] at hlead

open Diagnostic

theorem tells_of_lead? {item : Item} (h : item.Lucid)
    (hsame : ∀ other : Item, other.Throughout Lucid → item.lead? = other.lead? →
      ∀ rest rest', Ends rest → Ends rest' → item.diagnostic ++ rest = other.diagnostic ++ rest' →
        item = other ∧ rest = rest') :
    Tells diagnostic (Throughout Lucid) item := by
  intro other hother rest rest' hrest hrest' heq
  refine hsame other hother ?_ rest rest' hrest hrest' heq
  rw [lead?_eq h rest, heq, lead?_eq hother.here]

private theorem ofNat_append_ne_tag {rest : Text} (hrest : Ends rest) (number tag : Nat)
    (more : Text) :
    Text.ofNat number ++ rest ≠ Text.ofNat tag ++ '(' :: more := by
  intro heq
  -- the digits end where they do, and what then opens a tag may not follow an item
  obtain ⟨-, rfl⟩ := Text.ofNat_append_inj hrest.not_digit (by simp) heq
  simp [Ends] at hrest

theorem tells_unsigned (number : UInt64) :
    Tells diagnostic (Throughout Lucid) (unsigned number) := by
  refine tells_of_lead? trivial fun other hother hlead rest rest' hrest hrest' heq => ?_
  cases other with
  | unsigned number' =>
      obtain ⟨hnumber, htail⟩ := Text.ofNat_append_inj hrest.not_digit hrest'.not_digit heq
      exact ⟨by rw [UInt64.toNat_inj.mp hnumber], htail⟩
  | tagged tag content =>
      rw [diagnostic_unsigned, diagnostic_tagged, List.append_assoc, List.append_assoc] at heq
      exact absurd heq (ofNat_append_ne_tag hrest _ _ _)
  | _ => simp [lead?] at hlead

theorem tells_negative (magnitude : UInt64) :
    Tells diagnostic (Throughout Lucid) (negative magnitude) := by
  refine tells_of_lead? trivial fun other hother hlead rest rest' hrest hrest' heq => ?_
  cases other with
  | negative magnitude' =>
      simp only [diagnostic_negative, List.cons_append, List.cons.injEq, true_and] at heq
      obtain ⟨hnumber, htail⟩ := Text.ofNat_append_inj hrest.not_digit hrest'.not_digit heq
      exact ⟨by rw [UInt64.toNat_inj.mp hnumber], htail⟩
  | _ => simp [lead?] at hlead

theorem tells_bytes (content : Bytes) :
    Tells diagnostic (Throughout Lucid) (bytes content) := by
  refine tells_of_lead? trivial fun other hother hlead rest rest' hrest hrest' heq => ?_
  cases other with
  | bytes content' =>
      simp only [diagnostic_bytes, List.cons_append, List.append_assoc, List.nil_append,
        List.cons.injEq, true_and] at heq
      obtain ⟨rfl, htail⟩ := Hex.encode_append_inj heq
      exact ⟨rfl, htail⟩
  | _ => simp [lead?] at hlead

theorem tells_text {content : Bytes} (hcontent : Utf8.WellFormed content) :
    Tells diagnostic (Throughout Lucid) (text content) := by
  refine tells_of_lead? hcontent fun other hother hlead rest rest' hrest hrest' heq => ?_
  cases other with
  | text content' =>
      obtain ⟨rfl, htail⟩ := string_append_inj hcontent hother.here heq
      exact ⟨rfl, htail⟩
  | _ => simp [lead?] at hlead

theorem tells_bool (truth : Bool) : Tells diagnostic (Throughout Lucid) (bool truth) := by
  refine tells_of_lead? trivial fun other hother hlead rest rest' hrest hrest' heq => ?_
  cases other with
  | bool truth' => cases truth <;> cases truth' <;> simp at heq <;> simp [heq]
  | _ => simp [lead?] at hlead

theorem tells_tagged {tag : UInt64} {content : Item}
    (hcontent : Tells diagnostic (Throughout Lucid) content) :
    Tells diagnostic (Throughout Lucid) (tagged tag content) := by
  refine tells_of_lead? trivial fun other hother hlead rest rest' hrest hrest' heq => ?_
  cases other with
  | unsigned number =>
      rw [diagnostic_unsigned, diagnostic_tagged, List.append_assoc, List.append_assoc] at heq
      exact absurd heq.symm (ofNat_append_ne_tag hrest' _ _ _)
  | tagged tag' content' =>
      simp only [diagnostic_tagged, List.append_assoc, List.cons_append, List.nil_append] at heq
      obtain ⟨htag, htail⟩ := Text.ofNat_append_inj (by simp) (by simp) heq
      obtain ⟨hsame, hclose⟩ := hcontent content' (hother.of_mem (List.mem_singleton.mpr rfl)) _ _
        (by simp [Ends]) (by simp [Ends]) (List.cons.inj htail).2
      exact ⟨by rw [UInt64.toNat_inj.mp htag, hsame], (List.cons.inj hclose).2⟩
  | _ => simp [lead?] at hlead

theorem tells_array {items : List Item} (h : (array items).Throughout Lucid)
    (hitems : ∀ item ∈ items, Tells diagnostic (Throughout Lucid) item) :
    Tells diagnostic (Throughout Lucid) (array items) := by
  refine tells_of_lead? h.here fun other hother hlead rest rest' hrest hrest' heq => ?_
  cases other with
  | array others =>
      simp only [diagnostic_array, List.cons_append, List.append_assoc, List.nil_append,
        List.cons.injEq, true_and] at heq
      obtain ⟨rfl, htail⟩ := join_append_inj (by simp [Ends]) (by decide)
        (fun _ hitem => diagnostic_append_ne hitem.here)
        (fun item hitem => ⟨h.of_mem hitem, hitems item hitem⟩) (fun _ => hother.of_mem) heq
      exact ⟨rfl, htail⟩
  | _ => simp [lead?] at hlead

theorem tells_entry {entry : Bytes × Item} (hkey : Utf8.WellFormed entry.1)
    (hvalue : Tells diagnostic (Throughout Lucid) entry.2) :
    Tells (fun entry => string entry.1 ++ (": ".toList ++ diagnostic entry.2))
      (fun entry => Utf8.WellFormed entry.1 ∧ entry.2.Throughout Lucid) entry := by
  rintro other ⟨hkey', hvalue'⟩ rest rest' hrest hrest' heq
  simp only [List.append_assoc] at heq
  obtain ⟨hsame, htail⟩ := string_append_inj hkey hkey' heq
  obtain ⟨hsame', htail⟩ :=
    hvalue other.2 hvalue' rest rest' hrest hrest' (List.append_cancel_left htail)
  exact ⟨Prod.ext hsame hsame', htail⟩

theorem tells_map {entries : List (Bytes × Item)} (h : (map entries).Throughout Lucid)
    (hvalues : ∀ entry ∈ entries, Tells diagnostic (Throughout Lucid) entry.2) :
    Tells diagnostic (Throughout Lucid) (map entries) := by
  refine tells_of_lead? h.here fun other hother hlead rest rest' hrest hrest' heq => ?_
  cases other with
  | map others =>
      simp only [diagnostic_map, List.cons_append, List.append_assoc, List.nil_append,
        List.cons.injEq, true_and] at heq
      obtain ⟨rfl, htail⟩ := join_append_inj (by simp [Ends]) (by decide)
        (fun _ _ => by simp [string, Text.quoted])
        (fun entry hentry => ⟨⟨h.here entry hentry, h.of_mem_map hentry⟩,
          tells_entry (h.here entry hentry) (hvalues entry hentry)⟩)
        (fun entry hentry => ⟨hother.here entry hentry, hother.of_mem_map hentry⟩) heq
      exact ⟨rfl, htail⟩
  | _ => simp [lead?] at hlead

theorem tells_of_lucid {item : Item} (h : item.Throughout Lucid) :
    Tells diagnostic (Throughout Lucid) item := by
  induction h with
  | @mk item hhere hchildren ih =>
      have hitem := Throughout.mk hhere hchildren
      cases item with
      | unsigned number => exact tells_unsigned number
      | negative magnitude => exact tells_negative magnitude
      | bytes content => exact tells_bytes content
      | text content => exact tells_text hhere
      | array items => exact tells_array hitem ih
      | map entries => exact tells_map hitem (List.forall_mem_map.mp ih)
      | tagged tag content => exact tells_tagged (List.forall_mem_singleton.mp ih)
      | bool truth => exact tells_bool truth
      | null | undefined =>
          refine tells_of_lead? trivial fun other hother hlead rest rest' hrest hrest' heq => ?_
          cases other <;> simp_all [lead?]
      | single | double => exact hhere.elim

/-- Two items without floats and with UTF-8 for text are the same if their texts are. -/
theorem eq_of_diagnostic_eq {item other : Item} (hitem : item.Throughout Lucid)
    (hother : other.Throughout Lucid) (h : item.diagnostic = other.diagnostic) :
    item = other := by
  have hends : Ends [] := by simp [Ends]
  rw [← List.append_nil item.diagnostic, ← List.append_nil other.diagnostic] at h
  exact (tells_of_lucid hitem other hother [] [] hends hends h).1

/-- A tagged map with a control character in its key, as it is written here and as it is decoded
from chunks. -/
theorem eq_of_diagnostic_eq_control_key :
    let item : Item :=
      .tagged 24 (.map [(Utf8.encode ['a', '\x85'], .array [.bytes [0x0A], .negative 1])])
    ∃ other length,
      decodeWith {} [0xD8, 0x18, 0xBF, 0x7F, 0x61, 0x61, 0x62, 0xC2, 0x85, 0xFF, 0x82, 0x41, 0x0A,
        0x20, 0xFF] = .ok (other, length) ∧
      item.Throughout Lucid ∧ other.Throughout Lucid ∧
      item.diagnostic = "24(\x7b\"a\\u0085\": [h'0a', -1]\x7d)".toList ∧
      item.diagnostic = other.diagnostic ∧ item = other := by
  intro item
  have hlucid : ∀ key, Utf8.WellFormed key →
      (tagged 24 (map [(key, array [bytes [0x0A], negative 1])])).Throughout Lucid := by
    intro key hkey
    refine .mk trivial ?_
    simp only [children, List.forall_mem_singleton]
    refine .mk (List.forall_mem_singleton.mpr hkey) ?_
    simp only [children, List.map_cons, List.map_nil, List.forall_mem_singleton]
    refine .mk trivial ?_
    simp only [children, List.forall_mem_cons]
    exact ⟨.leaf rfl trivial, .leaf rfl trivial, by simp⟩
  have hkey : Utf8.WellFormed [0x61, 0xC2, 0x85] := ⟨['a', '\x85'], by decide⟩
  have hitem : item.Throughout Lucid := hlucid _ ⟨_, rfl⟩
  refine ⟨_, 15, ?_, hitem, hlucid _ hkey, by decide, ?_, ?_⟩
  · decide
  · decide
  · exact eq_of_diagnostic_eq hitem (hlucid _ hkey) (by decide)

end Item

end Cbor

import Cbor.Proofs.MapEntries
import Cbor.Proofs.Nesting

/-!
# Parts of items

What holds of an item and of all items in it.  For items that are encoded it is enough that it
holds of those without parts, of arrays, of the maps that entries are put into, and of tagged
items, whatever they contain.
-/

namespace Cbor

namespace Item

def children : Item → List Item
  | .array items => items
  | .map entries => entries.map Prod.snd
  | .tagged _ content => [content]
  | .unsigned _ | .negative _ | .bytes _ | .text _ | .bool _ | .null | .undefined | .single _
  | .double _ => []

/-- The property holds of the item and of all items in it. -/
inductive Throughout (P : Item → Prop) : Item → Prop
  | mk {item : Item} :
      P item → (∀ child ∈ item.children, Throughout P child) → Throughout P item

variable {P : Item → Prop}

theorem Throughout.here {item : Item} (h : item.Throughout P) : P item := by
  cases h
  assumption

theorem Throughout.leaf {item : Item} (hchildren : item.children = []) (h : P item) :
    item.Throughout P :=
  .mk h (by simp [hchildren])

theorem Throughout.of_mem {item child : Item} (h : item.Throughout P)
    (hchild : child ∈ item.children) : child.Throughout P := by
  obtain ⟨-, hchildren⟩ := h
  exact hchildren child hchild

theorem Throughout.imp {Q : Item → Prop} (hPQ : ∀ part, P part → Q part) {item : Item}
    (h : item.Throughout P) : item.Throughout Q := by
  induction h with
  | mk hhere _ ih => exact .mk (hPQ _ hhere) ih

theorem Throughout.of_mem_map {entries : List (Bytes × Item)} (h : (map entries).Throughout P)
    {entry : Bytes × Item} (hentry : entry ∈ entries) : entry.2.Throughout P :=
  h.of_mem (List.mem_map_of_mem hentry)

/-! ## Maps in order -/

def KeysAscend : Item → Prop
  | .map entries => Entries.Ascending entries
  | _ => True

end Item

/-! ## Encoded items -/

theorem EncodesLeaf.children_eq {word : Bytes} {item : Item} (h : EncodesLeaf word item) :
    item.children = [] := by
  cases h <;> rfl

theorem Encodes.throughout {P : Item → Prop}
    (hleaf : ∀ {word item}, EncodesLeaf word item → P item) (harray : ∀ items, P (.array items))
    (hmap : ∀ pairs, P (.map (Entries.ofPairs pairs)))
    (htagged : ∀ tag content, P (.tagged tag content)) {budget : Nat} {word : Bytes} {item : Item}
    (h : Encodes budget word item) : item.Throughout P := by
  induction budget generalizing word item with
  | zero =>
      cases h with
      | leaf h => exact .leaf h.children_eq (hleaf h)
  | succ budget ih =>
      have hitems : ∀ {body items}, EncodesItems budget body items →
          ∀ child ∈ items, child.Throughout P :=
        fun h => (encodesItems_iff_row.mp h).forall_mem fun hitem => ih hitem
      have hpairs : ∀ {body pairs}, EncodesPairs budget body pairs →
          ∀ child ∈ (Item.map (Entries.ofPairs pairs)).children, child.Throughout P := by
        intro body pairs h
        have hpair : ∀ {word pair}, EncodesPair budget word pair → pair.2.Throughout P := by
          rintro _ _ ⟨-, hitem⟩
          exact ih hitem
        have hall := (encodesPairs_iff_row.mp h).forall_mem fun hword => hpair hword
        rw [Item.children, List.forall_mem_map]
        exact fun entry hentry => hall entry (Entries.mem_of_mem_ofPairs hentry)
      cases h with
      | leaf h => exact .leaf h.children_eq (hleaf h)
      | array _ h => exact .mk (harray _) (hitems h)
      | openArray _ h => exact .mk (harray _) (hitems h)
      | map _ h => exact .mk (hmap _) (hpairs h)
      | openMap _ h => exact .mk (hmap _) (hpairs h)
      | tagged _ h => exact .mk (htagged _ _) (List.forall_mem_singleton.mpr (ih h))

/-- The maps of a decoded item are in order, those that stand in it included. -/
theorem keysAscend_of_decodeWith {options : Options} {data : Bytes} {item : Item} {length : Nat}
    (h : decodeWith options data = .ok (item, length)) : item.Throughout Item.KeysAscend := by
  obtain ⟨word, rest, -, hword, -⟩ := (decodeWith_eq_ok_iff_append ..).mp h
  refine hword.throughout (fun hleaf => ?_) (fun _ => trivial)
    (fun pairs => Entries.ascending_ofPairs pairs) (fun _ _ => trivial)
  cases hleaf <;> trivial

end Cbor

import Cbor.Conformance.Expectation
import Cbor.Proofs.Parts
import Cbor.Proofs.WellFormedText
import Mathlib.Data.List.Nodup

/-!
# Separation of items

Different items may have one recorded form: ill-formed text is recorded as U+FFFD, and keys that
become one text keep one entry.  The form of an item whose text is plain is that of no other
item, though: no bytes but its own are read as plain text, so that its keys stay apart and no
other map can have gained or lost one of them.
-/

namespace Cbor

/-- What is recorded of the item itself says all about it: its text is plain, and a negative
integer is below zero. -/
def Item.Legible : Item → Prop
  | .negative magnitude => 1 ≤ magnitude.toNat
  | .text content => Utf8.IsPlain content
  | .map entries => ∀ entry ∈ entries, Utf8.IsPlain entry.1
  | _ => True

namespace Expectation

/-- No other item with maps in order has the recorded form of the item. -/
def Separates (item : Item) : Prop :=
  ∀ other : Item, other.Throughout Item.KeysAscend → ofItem other = ofItem item → other = item

theorem eq_of_ofItems_eq {items others : List Item} (hitems : ∀ item ∈ items, Separates item)
    (hothers : ∀ other ∈ others, other.Throughout Item.KeysAscend)
    (h : ofItems others = ofItems items) : others = items := by
  induction items generalizing others with
  | nil => cases others <;> simp_all [ofItems]
  | cons item items ih =>
      cases others with
      | nil => simp [ofItems] at h
      | cons other others =>
          rw [ofItems, ofItems, List.cons.injEq] at h
          rw [List.forall_mem_cons] at hitems hothers
          rw [hitems.1 other hothers.1 h.1, ih hitems.2 hothers.2 h.2]

/-! ## Entries of maps -/

section

variable {entries others : List (Bytes × Item)}

theorem nodup_keys_ofEntries (hascending : Entries.Ascending entries)
    (hplain : ∀ entry ∈ entries, Utf8.IsPlain entry.1) :
    ((ofEntries entries).map Prod.fst).Nodup := by
  have hkeys : (entries.map Prod.fst).Nodup :=
    (List.pairwise_map.mpr hascending).imp fun hlt => ne_of_irrefl hlt
  have hlossy : ∀ first ∈ entries.map Prod.fst, ∀ second ∈ entries.map Prod.fst,
      Utf8.lossy first = Utf8.lossy second → first = second := by
    intro first _ second hsecond heq
    obtain ⟨entry, hentry, rfl⟩ := List.mem_map.mp hsecond
    exact (hplain entry hentry).eq_of_lossy_eq heq
  have hmapped := hkeys.map_on hlossy
  rw [List.map_map] at hmapped
  rwa [ofEntries_eq_map, List.map_map]

theorem mem_ofPairs_ofEntries (hascending : Entries.Ascending entries)
    (hplain : ∀ entry ∈ entries, Utf8.IsPlain entry.1) {found : Text × Expectation} :
    found ∈ Entries.ofPairs (ofEntries entries) ↔
      ∃ entry ∈ entries, (Utf8.lossy entry.1, ofItem entry.2) = found := by
  rw [Entries.mem_ofPairs_of_nodup (nodup_keys_ofEntries hascending hplain), ofEntries_eq_map,
    List.mem_map]

theorem mem_keys_of_ofEntries_eq (hplain : ∀ entry ∈ entries, Utf8.IsPlain entry.1)
    (h : Entries.ofPairs (ofEntries others) = Entries.ofPairs (ofEntries entries)) :
    ∀ other ∈ others, Utf8.IsPlain other.1 := by
  intro other hother
  have hform : (Utf8.lossy other.1, ofItem other.2) ∈ ofEntries others := by
    rw [ofEntries_eq_map]
    exact List.mem_map_of_mem hother
  obtain ⟨value, hvalue⟩ := Entries.exists_mem_ofPairs hform
  rw [h] at hvalue
  have hvalue := Entries.mem_of_mem_ofPairs hvalue
  rw [ofEntries_eq_map] at hvalue
  obtain ⟨entry, hentry, heq⟩ := List.mem_map.mp hvalue
  rw [(hplain entry hentry).eq_of_lossy_eq (congrArg Prod.fst heq).symm]
  exact hplain entry hentry

theorem eq_of_ofEntries_eq (hascending : Entries.Ascending entries)
    (hothers : Entries.Ascending others) (hplain : ∀ entry ∈ entries, Utf8.IsPlain entry.1)
    (hvalues : ∀ entry ∈ entries, Separates entry.2)
    (hordered : ∀ other ∈ others, other.2.Throughout Item.KeysAscend)
    (h : Entries.ofPairs (ofEntries others) = Entries.ofPairs (ofEntries entries)) :
    others = entries := by
  have hplain' := mem_keys_of_ofEntries_eq hplain h
  have hsame : ∀ other ∈ others, ∀ entry ∈ entries,
      (Utf8.lossy other.1, ofItem other.2) = (Utf8.lossy entry.1, ofItem entry.2) →
      other = entry := by
    intro other hother entry hentry heq
    obtain ⟨hkey, hvalue⟩ := Prod.mk.inj heq
    exact Prod.ext ((hplain entry hentry).eq_of_lossy_eq hkey)
      (hvalues entry hentry other.2 (hordered other hother) hvalue)
  refine hascending.eq_of_mem_iff hothers fun entry => ⟨fun hother => ?_, fun hentry => ?_⟩
  · have hform := (mem_ofPairs_ofEntries hothers hplain').mpr ⟨entry, hother, rfl⟩
    rw [h] at hform
    obtain ⟨entry', hentry', heq⟩ := (mem_ofPairs_ofEntries hascending hplain).mp hform
    rwa [hsame entry hother entry' hentry' heq.symm]
  · have hform := (mem_ofPairs_ofEntries hascending hplain).mpr ⟨entry, hentry, rfl⟩
    rw [← h] at hform
    obtain ⟨other, hother, heq⟩ := (mem_ofPairs_ofEntries hothers hplain').mp hform
    rwa [← hsame other hother entry hentry heq]

end

/-! ## Items -/

theorem separates_of_legible {item : Item} (hlegible : item.Throughout Item.Legible)
    (hordered : item.Throughout Item.KeysAscend) : Separates item := by
  induction hlegible with
  | @mk item hhere _ ih =>
      intro other hother h
      have hchildren : ∀ child ∈ item.children, Separates child :=
        fun child hchild => ih child hchild (hordered.of_mem hchild)
      cases item with
      | unsigned number | negative magnitude | bytes content | bool truth | null | undefined
      | single bits | double bits => cases other <;> simp_all [ofItem]
      | text content =>
          cases other with
          | text other =>
              simp only [ofItem, Expectation.text.injEq] at h
              rw [Utf8.IsPlain.eq_of_lossy_eq hhere h]
          | _ => simp [ofItem] at h
      | array items =>
          cases other with
          | array others =>
              simp only [ofItem, Expectation.array.injEq] at h
              have hsame : others = items :=
                eq_of_ofItems_eq hchildren (fun _ => hother.of_mem) h
              rw [hsame]
          | _ => simp [ofItem] at h
      | map entries =>
          cases other with
          | map others =>
              simp only [ofItem, Expectation.map.injEq] at h
              have hsame : others = entries :=
                eq_of_ofEntries_eq hordered.here hother.here hhere
                  (List.forall_mem_map.mp hchildren) (fun _ => hother.of_mem_map) h
              rw [hsame]
          | _ => simp [ofItem] at h
      | tagged tag content =>
          cases other with
          | tagged tag' other =>
              simp only [ofItem, Expectation.tagged.injEq] at h
              have hcontent := List.forall_mem_singleton.mp hchildren
              have hsame := hcontent other (hother.of_mem (List.mem_singleton.mpr rfl)) h.2
              rw [h.1, hsame]
          | _ => simp [ofItem] at h

end Expectation

end Cbor

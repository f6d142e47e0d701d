import Cbor.Item.Entries
import Mathlib.Algebra.Ring.Nat
import Mathlib.Data.List.Induction
import Mathlib.Data.List.Sort

/-!
# Ascending entries

The entries are the last pairs of each key in ascending order, and pairs that stand in ascending
order already are their own entries.
-/

namespace Cbor.Entries

variable {κ α : Type} [LT κ] [DecidableLT κ] {key : κ} {value : α} {entries : List (κ × α)}

theorem ofPairs_append_singleton (pairs : List (κ × α)) (pair : κ × α) :
    ofPairs (pairs ++ [pair]) = insert pair.1 pair.2 (ofPairs pairs) := by
  rw [ofPairs, List.foldl_append]
  rfl

/-! ## Members -/

theorem mem_of_mem_insert {entry : κ × α} (h : entry ∈ insert key value entries) :
    entry = (key, value) ∨ entry ∈ entries := by
  induction entries with
  | nil => simpa [insert] using h
  | cons first entries ih =>
      simp only [insert] at h
      split at h
      · simpa using h
      · split at h
        · rcases List.mem_cons.mp h with rfl | h
          · exact .inr List.mem_cons_self
          · exact (ih h).imp_right (List.mem_cons_of_mem _)
        · exact (List.mem_cons.mp h).imp_right (List.mem_cons_of_mem _)

theorem mem_of_mem_ofPairs {pairs : List (κ × α)} {entry : κ × α} (h : entry ∈ ofPairs pairs) :
    entry ∈ pairs := by
  induction pairs using List.reverseRecOn with
  | nil => exact h
  | append_singleton pairs pair ih =>
      rw [ofPairs_append_singleton] at h
      rcases mem_of_mem_insert h with rfl | h
      · simp
      · exact List.mem_append_left _ (ih h)

theorem sum_map_insert_le (weight : κ × α → Nat) (key : κ) (value : α) (entries : List (κ × α)) :
    ((insert key value entries).map weight).sum ≤
      weight (key, value) + (entries.map weight).sum := by
  induction entries with
  | nil => simp [insert]
  | cons first entries ih =>
      obtain ⟨k, v⟩ := first
      rw [insert]
      split
      · simp
      · split <;> simp only [List.map_cons, List.sum_cons] <;> omega

theorem sum_map_ofPairs_le (weight : κ × α → Nat) (pairs : List (κ × α)) :
    ((ofPairs pairs).map weight).sum ≤ (pairs.map weight).sum := by
  induction pairs using List.reverseRecOn with
  | nil => exact Nat.le_refl _
  | append_singleton pairs pair ih =>
      have hinsert := sum_map_insert_le weight pair.1 pair.2 (ofPairs pairs)
      rw [Prod.mk.eta] at hinsert
      rw [ofPairs_append_singleton, List.map_append, List.sum_append, List.map_singleton,
        List.sum_singleton]
      omega

/-! ## Order -/

theorem Ascending.insert [Trans (· < · : κ → κ → Prop) (· < ·) (· < ·)]
    [Std.Trichotomous (· < · : κ → κ → Prop)] (h : Ascending entries) (key : κ) (value : α) :
    Ascending (insert key value entries) := by
  induction entries with
  | nil => simp [Entries.insert, Ascending]
  | cons first entries ih =>
      obtain ⟨k, v⟩ := first
      obtain ⟨hfirst, hrest⟩ := List.pairwise_cons.mp h
      rw [Entries.insert]
      split
      · next hlt =>
          refine List.pairwise_cons.mpr ⟨fun entry hentry => ?_, h⟩
          rcases List.mem_cons.mp hentry with rfl | hentry
          · exact hlt
          · exact Trans.trans hlt (hfirst entry hentry)
      · next hge =>
          split
          · next hgt =>
              refine List.pairwise_cons.mpr ⟨fun entry hentry => ?_, ih hrest⟩
              rcases mem_of_mem_insert hentry with rfl | hentry
              · exact hgt
              · exact hfirst entry hentry
          · next hle =>
              have heq : key = k := Std.Trichotomous.trichotomous key k hge hle
              subst heq
              exact List.pairwise_cons.mpr ⟨hfirst, hrest⟩

theorem ascending_ofPairs [Trans (· < · : κ → κ → Prop) (· < ·) (· < ·)]
    [Std.Trichotomous (· < · : κ → κ → Prop)] (pairs : List (κ × α)) :
    Ascending (ofPairs pairs) := by
  induction pairs using List.reverseRecOn with
  | nil => exact List.Pairwise.nil
  | append_singleton pairs pair ih =>
      rw [ofPairs_append_singleton]
      exact ih.insert pair.1 pair.2

theorem insert_eq_append [Std.Asymm (· < · : κ → κ → Prop)]
    (h : ∀ entry ∈ entries, entry.1 < key) (value : α) :
    insert key value entries = entries ++ [(key, value)] := by
  induction entries with
  | nil => rfl
  | cons first entries ih =>
      obtain ⟨hfirst, hrest⟩ := List.forall_mem_cons.mp h
      have hnot : ¬key < first.1 := Std.Asymm.asymm _ _ hfirst
      rw [insert, if_neg hnot, if_pos hfirst, ih hrest, List.cons_append]

theorem ofPairs_of_ascending [Std.Asymm (· < · : κ → κ → Prop)] {pairs : List (κ × α)}
    (h : Ascending pairs) : ofPairs pairs = pairs := by
  induction pairs using List.reverseRecOn with
  | nil => rfl
  | append_singleton pairs pair ih =>
      obtain ⟨hpairs, -, hlast⟩ := List.pairwise_append.mp h
      have hbelow : ∀ entry ∈ pairs, entry.1 < pair.1 :=
        fun entry hentry => hlast entry hentry pair List.mem_cons_self
      rw [ofPairs_append_singleton, ih hpairs, insert_eq_append hbelow]

omit [DecidableLT κ] in
theorem Ascending.eq_of_mem_iff [Std.Asymm (· < · : κ → κ → Prop)] {others : List (κ × α)}
    (h : Ascending entries) (hothers : Ascending others)
    (hmem : ∀ entry, entry ∈ others ↔ entry ∈ entries) : others = entries := by
  have hasymm : Std.Asymm fun first second : κ × α => first.1 < second.1 :=
    ⟨fun first second => Std.Asymm.asymm first.1 second.1⟩
  exact List.Pairwise.eq_of_mem_iff hothers h hmem

/-! ## The last pair of each key -/

section

variable [Trans (· < · : κ → κ → Prop) (· < ·) (· < ·)] [Std.Irrefl (· < · : κ → κ → Prop)]
  [Std.Trichotomous (· < · : κ → κ → Prop)]

theorem mem_insert_iff (h : Ascending entries) {entry : κ × α} :
    entry ∈ insert key value entries ↔
      entry = (key, value) ∨ entry ∈ entries ∧ entry.1 ≠ key := by
  induction entries with
  | nil => simp [insert]
  | cons first entries ih =>
      obtain ⟨k, v⟩ := first
      obtain ⟨hfirst, hrest⟩ := List.pairwise_cons.mp h
      rw [insert]
      split
      · next hlt =>
          have hne : ∀ entry ∈ (k, v) :: entries, entry.1 ≠ key := by
            rw [List.forall_mem_cons]
            exact ⟨ne_of_irrefl' hlt,
              fun entry hentry => ne_of_irrefl' (Trans.trans hlt (hfirst entry hentry))⟩
          rw [List.mem_cons]
          exact or_congr_right (iff_self_and.mpr (hne entry))
      · next hge =>
          split
          · next hgt =>
              have hne : entry = (k, v) → entry.1 ≠ key := by
                rintro rfl
                exact ne_of_irrefl hgt
              rw [List.mem_cons, List.mem_cons, ih hrest, or_and_right, ← or_assoc,
                ← or_assoc, and_iff_left_of_imp hne, or_comm (a := entry = (k, v))]
          · next hle =>
              have heq : key = k := Std.Trichotomous.trichotomous key k hge hle
              subst heq
              have hne : entry ∈ entries → entry.1 ≠ key :=
                fun hentry => ne_of_irrefl' (hfirst entry hentry)
              have hdropped : ¬(entry = (key, v) ∧ entry.1 ≠ key) := by
                rintro ⟨rfl, hkey⟩
                exact hkey rfl
              rw [List.mem_cons, List.mem_cons, or_and_right, or_iff_right hdropped,
                and_iff_left_of_imp hne]

/-- The entries are the pairs behind which their key does not occur again. -/
theorem mem_ofPairs_iff {pairs : List (κ × α)} {entry : κ × α} :
    entry ∈ ofPairs pairs ↔
      ∃ before after, pairs = before ++ entry :: after ∧
        ∀ later ∈ after, later.1 ≠ entry.1 := by
  induction pairs using List.reverseRecOn with
  | nil => simp [ofPairs]
  | append_singleton pairs pair ih =>
      rw [ofPairs_append_singleton, mem_insert_iff (ascending_ofPairs pairs), ih]
      constructor
      · rintro (rfl | ⟨⟨before, after, rfl, hafter⟩, hne⟩)
        · exact ⟨pairs, [], rfl, by simp⟩
        · refine ⟨before, after ++ [pair], by simp, fun later hlater => ?_⟩
          rcases List.mem_append.mp hlater with hlater | hlater
          · exact hafter later hlater
          · rw [List.mem_singleton.mp hlater]
            exact hne.symm
      · rintro ⟨before, after, heq, hafter⟩
        rcases List.eq_nil_or_concat' after with rfl | ⟨after, last, rfl⟩
        · obtain ⟨-, hlast⟩ := List.append_inj' heq rfl
          exact .inl (List.singleton_inj.mp hlast).symm
        · rw [← List.cons_append, ← List.append_assoc] at heq
          obtain ⟨rfl, hlast⟩ := List.append_inj' heq rfl
          obtain rfl := List.singleton_inj.mp hlast
          rw [List.forall_mem_append, List.forall_mem_singleton] at hafter
          exact .inr ⟨⟨before, after, rfl, hafter.1⟩, hafter.2.symm⟩

theorem exists_mem_ofPairs {pairs : List (κ × α)} {pair : κ × α} (h : pair ∈ pairs) :
    ∃ value, (pair.1, value) ∈ ofPairs pairs := by
  induction pairs using List.reverseRecOn with
  | nil => contradiction
  | append_singleton pairs last ih =>
      rw [ofPairs_append_singleton]
      simp only [mem_insert_iff (ascending_ofPairs pairs)]
      by_cases hkey : pair.1 = last.1
      · exact ⟨last.2, .inl (Prod.ext hkey rfl)⟩
      · rcases List.mem_append.mp h with h | h
        · obtain ⟨value, hvalue⟩ := ih h
          exact ⟨value, .inr ⟨hvalue, hkey⟩⟩
        · exact absurd (congrArg Prod.fst (List.mem_singleton.mp h)) hkey

theorem mem_ofPairs_of_nodup {pairs : List (κ × α)} (h : (pairs.map Prod.fst).Nodup)
    {entry : κ × α} : entry ∈ ofPairs pairs ↔ entry ∈ pairs := by
  refine ⟨mem_of_mem_ofPairs, fun hentry => mem_ofPairs_iff.mpr ?_⟩
  obtain ⟨before, after, rfl⟩ := List.append_of_mem hentry
  refine ⟨before, after, rfl, fun later hlater hkey => ?_⟩
  rw [List.map_append, List.map_cons, List.nodup_append, List.nodup_cons] at h
  exact h.2.1.1 (hkey ▸ List.mem_map_of_mem hlater)

end

end Cbor.Entries

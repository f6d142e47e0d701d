import Cbor.Proofs.Progress

/-!
# Sequences item by item

Decoding all of the data agrees with decoding the first item of what is left again and again,
since reading at a position of the data is decoding what is left there.  So a sequence behind
another one decodes as it does on its own.
-/

namespace Cbor

variable {options : Options} {data : Bytes}

/-! ## Reading at a position -/

/-- Reading at an offset is decoding the rest on its own, with the offset added. -/
theorem Item.read_eq_decodeWith (options : Options) (offset : Nat) (rest : Bytes) :
    Item.read options.maxDepth.toNat options.maxDepth.toNat ⟨offset, rest⟩ =
      (decodeWith options rest).map fun (item, length) =>
        (item, ⟨offset + length, rest.drop length⟩) := by
  cases h : decodeWith options rest with
  | ok found =>
      obtain ⟨item, length⟩ := found
      obtain ⟨word, tail, rfl, hword, rfl⟩ := (decodeWith_eq_ok_iff_append ..).mp h
      rw [Item.read_accepts _ _ hword]
      simp [Except.map]
  | error error =>
      exact (Item.read_eq_error_iff ..).mpr ((decodeWith_eq_error_iff_firstFault ..).mp h)

theorem length_pos_of_decodeWith {rest : Bytes} {item : Item} {length : Nat}
    (h : decodeWith options rest = .ok (item, length)) : 0 < length ∧ length ≤ rest.length := by
  obtain ⟨word, tail, rfl, hword, rfl⟩ := (decodeWith_eq_ok_iff_append ..).mp h
  obtain ⟨byte, others, rfl, -⟩ := hword.continues
  simp

/-! ## Walking over the items -/

/-- Decoding the first item of what is left, again and again, has come to the offset. -/
inductive Walks (options : Options) (data : Bytes) : (offset : Nat) → List Item → Prop
  | start : Walks options data 0 []
  | step {offset length : Nat} {items : List Item} {item : Item} :
      Walks options data offset items → offset < data.length →
      decodeWith options (data.drop offset) = .ok (item, length) →
      Walks options data (offset + length) (items ++ [item])

/-- The walk stops at the end of the data, or at an item that does not decode. -/
def WalkFails (options : Options) (data : Bytes) (error : DecodeError) : Prop :=
  ∃ offset items, Walks options data offset items ∧ offset < data.length ∧
    decodeWith options (data.drop offset) = .error error

theorem Walks.offset_le {offset : Nat} {items : List Item} (h : Walks options data offset items) :
    offset ≤ data.length := by
  cases h with
  | start => exact Nat.zero_le _
  | step _ hoffset hitem =>
      have hlength := (length_pos_of_decodeWith hitem).2
      rw [List.length_drop] at hlength
      omega

theorem Walks.ends_or_fails {offset : Nat} {items : List Item}
    (h : Walks options data offset items) :
    (∃ all, Walks options data data.length all) ∨ ∃ error, WalkFails options data error := by
  -- on what is left of the data
  induction hleft : data.length - offset using Nat.strongRecOn generalizing offset items with
  | ind left ih =>
      have hle := h.offset_le
      by_cases hoffset : offset < data.length
      · cases hdecode : decodeWith options (data.drop offset) with
        | error error => exact .inr ⟨error, offset, items, h, hoffset, hdecode⟩
        | ok found =>
            obtain ⟨item, length⟩ := found
            have hlength := length_pos_of_decodeWith hdecode
            exact ih _ (by omega) (.step h hoffset hdecode) rfl
      · have hend : offset = data.length := by omega
        exact .inl ⟨items, hend ▸ h⟩

/-! ## The pass over the whole -/

section

variable {offset : Nat} {rest : Bytes} {rounds : Bytes} {found : List Item} {round : UInt8}

theorem readAll_nil (limit : Nat) :
    readAll limit rounds found ⟨offset, []⟩ = .ok found.reverse := by
  cases rounds <;> rfl

theorem readAll_of_ok {item : Item} {length : Nat}
    (h : decodeWith options rest = .ok (item, length)) :
    readAll options.maxDepth.toNat (round :: rounds) found ⟨offset, rest⟩ =
      readAll options.maxDepth.toNat rounds (item :: found)
        ⟨offset + length, rest.drop length⟩ := by
  have hlength := length_pos_of_decodeWith h
  cases rest with
  | nil =>
      simp only [List.length_nil] at hlength
      omega
  | cons byte tail => simp only [readAll, Item.read_eq_decodeWith, h, Except.map, ok_bind]

theorem readAll_of_error {error : DecodeError} (hrest : rest ≠ [])
    (h : decodeWith options rest = .error error) :
    readAll options.maxDepth.toNat (round :: rounds) found ⟨offset, rest⟩ = .error error := by
  cases rest with
  | nil => contradiction
  | cons byte tail => simp only [readAll, Item.read_eq_decodeWith, h, Except.map, error_bind]

end

theorem readAll_of_walks {offset : Nat} {items : List Item} (h : Walks options data offset items) :
    ∃ rounds : Bytes, data.length - offset ≤ rounds.length ∧
      decodeAllWith options data =
        readAll options.maxDepth.toNat rounds items.reverse ⟨offset, data.drop offset⟩ := by
  -- each step of the walk is one round of the pass, and leaves a round for each remaining byte
  induction h with
  | start => exact ⟨data, Nat.le_refl _, rfl⟩
  | step _ hoffset hitem ih =>
      obtain ⟨rounds, hrounds, hpass⟩ := ih
      have hlength := length_pos_of_decodeWith hitem
      cases rounds with
      | nil =>
          simp only [List.length_nil] at hrounds
          omega
      | cons round rounds =>
          refine ⟨rounds, ?_, ?_⟩
          · simp only [List.length_cons] at hrounds
            omega
          · rw [hpass, readAll_of_ok hitem, List.drop_drop, List.reverse_append]
            rfl

theorem decodeAllWith_of_walks {items : List Item} (h : Walks options data data.length items) :
    decodeAllWith options data = .ok items := by
  obtain ⟨rounds, -, hpass⟩ := readAll_of_walks h
  rw [hpass, List.drop_length, readAll_nil, List.reverse_reverse]

theorem decodeAllWith_of_walkFails {error : DecodeError} (h : WalkFails options data error) :
    decodeAllWith options data = .error error := by
  obtain ⟨offset, items, hwalk, hoffset, hdecode⟩ := h
  obtain ⟨rounds, hrounds, hpass⟩ := readAll_of_walks hwalk
  have hrest : data.drop offset ≠ [] := by
    rw [ne_eq, List.drop_eq_nil_iff]
    omega
  cases rounds with
  | nil =>
      simp only [List.length_nil] at hrounds
      omega
  | cons round rounds => rw [hpass, readAll_of_error hrest hdecode]

theorem decodeAllWith_eq_ok_iff_walks {items : List Item} :
    decodeAllWith options data = .ok items ↔ Walks options data data.length items := by
  constructor
  · intro hdecode
    rcases (Walks.start : Walks options data 0 []).ends_or_fails with
      ⟨all, hall⟩ | ⟨error, hfails⟩
    · rw [decodeAllWith_of_walks hall] at hdecode
      cases hdecode
      exact hall
    · rw [decodeAllWith_of_walkFails hfails] at hdecode
      contradiction
  · exact decodeAllWith_of_walks

theorem decodeAllWith_eq_error_iff_walkFails {error : DecodeError} :
    decodeAllWith options data = .error error ↔ WalkFails options data error := by
  constructor
  · intro hdecode
    rcases (Walks.start : Walks options data 0 []).ends_or_fails with
      ⟨all, hall⟩ | ⟨found, hfails⟩
    · rw [decodeAllWith_of_walks hall] at hdecode
      contradiction
    · rw [decodeAllWith_of_walkFails hfails] at hdecode
      cases hdecode
      exact hfails
  · exact decodeAllWith_of_walkFails

/-! ## The walk that keeps its steps -/

def Walk.outcome (found : Walk) : Except DecodeError (List Item) :=
  match found.fault with
  | none => .ok (found.steps.map Step.item)
  | some (_, error) => .error error

theorem readAll_eq_outcome (options : Options) (rounds : Bytes) (found : List Step) (offset : Nat)
    (rest : Bytes) :
    readAll options.maxDepth.toNat rounds (found.map Step.item) ⟨offset, rest⟩ =
      (Walk.resume options rounds found offset rest).outcome := by
  induction rounds generalizing found offset rest with
  | nil => simp [readAll, Walk.resume, Walk.outcome]
  | cons round rounds ih =>
      cases rest with
      | nil => simp [readAll, Walk.resume, Walk.outcome]
      | cons byte tail =>
          cases h : decodeWith options (byte :: tail) with
          | ok found' =>
              obtain ⟨item, length⟩ := found'
              have hstep := ih (⟨offset, (byte :: tail).take length, item⟩ :: found)
                (offset + length) ((byte :: tail).drop length)
              rw [readAll_of_ok h]
              simpa only [Walk.resume, h, List.splitAt_eq, List.map_cons] using hstep
          | error error =>
              rw [readAll_of_error (List.cons_ne_nil _ _) h]
              simp only [Walk.resume, h, Walk.outcome]

/--
Decoding all of the data is the walk over its items: it succeeds with the items of a walk to the
end, and fails with the fault that the walk stops at, because an item that is read at an offset
of the data is the one that decodes from there on its own.  As far as a guarded run can address
the data, it comes to the same as the walk, although it never lets go of what it has passed.
-/
theorem decodeAllWith_eq_walk (options : Options) (data : Bytes) :
    decodeAllWith options data = (walk options data).outcome ∧
      (data.length < 2 ^ 63 →
        Guarded.decodeAllWith options data = (walk options data).outcome.mapError .inr) ∧
      (∀ items, decodeAllWith options data = .ok items ↔
        Walks options data data.length items) ∧
      (∀ error, decodeAllWith options data = .error error ↔
        ∃ offset items, Walks options data offset items ∧ offset < data.length ∧
          decodeWith options (data.drop offset) = .error error) ∧
      ∀ offset, Item.read options.maxDepth.toNat options.maxDepth.toNat
          ⟨offset, data.drop offset⟩ =
        (decodeWith options (data.drop offset)).map fun (item, length) =>
          (item, ⟨offset + length, data.drop (offset + length)⟩) := by
  have hwalk : decodeAllWith options data = (walk options data).outcome :=
    readAll_eq_outcome options data [] 0 data
  refine ⟨hwalk, fun hdata => ?_, fun _ => decodeAllWith_eq_ok_iff_walks,
    fun _ => decodeAllWith_eq_error_iff_walkFails, fun offset => ?_⟩
  · rw [Guarded.decodeAllWith_eq hdata, hwalk]
  · rw [Item.read_eq_decodeWith]
    simp only [List.drop_drop]

/-- Two items and an integer that is cut.  The walk stops at the offset 3; up to there it comes to
the items. -/
theorem decodeAllWith_eq_walk_cut :
    let data : Bytes := [0x01, 0x81, 0xF6, 0x18]
    data.length < 2 ^ 63 ∧ (data.take 3).length < 2 ^ 63 ∧
      Guarded.decodeAllWith {} (data.take 3) = .ok [.unsigned 1, .array [.null]] ∧
      Guarded.decodeAllWith {} data = .error (.inr (.argumentTooShort 1)) ∧
      (walk {} data).fault = some (3, .argumentTooShort 1) ∧
      Item.read 128 128 ⟨1, data.drop 1⟩ = .ok (.array [.null], ⟨3, [0x18]⟩) := by
  intro data
  have hdata : data.length < 2 ^ 63 := by decide
  have hitems : (data.take 3).length < 2 ^ 63 := by decide
  have hwhole : (walk {} (data.take 3)).outcome = .ok [.unsigned 1, .array [.null]] := by decide
  have hcut : (walk {} data).outcome = .error (.argumentTooShort 1) := by decide
  have harray : decodeWith {} (data.drop 1) = .ok (.array [.null], 2) := by decide
  obtain ⟨-, hrun, -⟩ := decodeAllWith_eq_walk {} (data.take 3)
  obtain ⟨-, hstop, -, -, hread⟩ := decodeAllWith_eq_walk {} data
  refine ⟨hdata, hitems, ?_, ?_, by decide, ?_⟩
  · rw [hrun hitems, hwhole]
    rfl
  · rw [hstop hdata, hcut]
    rfl
  · exact (hread 1).trans (by rw [harray]; rfl)

/-! ## One sequence behind another -/

theorem Walks.append {offset : Nat} {items : List Item} (h : Walks options data offset items)
    (more : Bytes) : Walks options (data ++ more) offset items := by
  induction h with
  | start => exact .start
  | @step offset length items item _ hoffset hitem ih =>
      have hinside : offset < (data ++ more).length := by
        rw [List.length_append]
        omega
      refine .step ih hinside ?_
      rw [List.drop_append_of_le_length (Nat.le_of_lt hoffset)]
      exact decodeWith_append_of_ok hitem more

theorem Walks.trans {more : Bytes} {offset : Nat} {items others : List Item}
    (h : Walks options data data.length items) (h' : Walks options more offset others) :
    Walks options (data ++ more) (data.length + offset) (items ++ others) := by
  induction h' with
  | start =>
      rw [List.append_nil]
      exact h.append more
  | @step offset length others item _ hoffset hitem ih =>
      have hinside : data.length + offset < (data ++ more).length := by
        rw [List.length_append]
        omega
      rw [← List.append_assoc, ← Nat.add_assoc]
      refine .step ih hinside ?_
      rwa [List.drop_length_add_append]

theorem WalkFails.behind {more : Bytes} {items : List Item} {error : DecodeError}
    (h : Walks options data data.length items) (hfails : WalkFails options more error) :
    WalkFails options (data ++ more) error := by
  obtain ⟨offset, others, hwalk, hoffset, hdecode⟩ := hfails
  refine ⟨data.length + offset, items ++ others, h.trans hwalk, ?_, ?_⟩
  · rw [List.length_append]
    omega
  · rwa [List.drop_length_add_append]

/--
Of two sequences, one behind the other, the items are those of the first and then those of the
second; and if the first one decodes, a fault in the second one is the fault of both.
-/
theorem decodeAllWith_append (options : Options) (data more : Bytes) {items : List Item}
    (h : decodeAllWith options data = .ok items) :
    (∀ others, decodeAllWith options more = .ok others →
      decodeAllWith options (data ++ more) = .ok (items ++ others)) ∧
    ∀ error, decodeAllWith options more = .error error →
      decodeAllWith options (data ++ more) = .error error := by
  rw [decodeAllWith_eq_ok_iff_walks] at h
  constructor
  · intro others hothers
    rw [decodeAllWith_eq_ok_iff_walks] at hothers ⊢
    rw [List.length_append]
    exact h.trans hothers
  · intro error herror
    rw [decodeAllWith_eq_error_iff_walkFails] at herror ⊢
    exact .behind h herror

/-- Behind an integer and an array with a tagged item in it comes a map, or an array that is
nested beyond the limit. -/
theorem decodeAllWith_append_map :
    let options : Options := { maxDepth := 2 }
    let data : Bytes := [0x01, 0x9F, 0xC1, 0x20, 0xFF]
    decodeAllWith options data = .ok [.unsigned 1, .array [.tagged 1 (.negative 1)]] ∧
      decodeAllWith options (data ++ [0xA1, 0x60, 0x81, 0xF6]) =
        .ok [.unsigned 1, .array [.tagged 1 (.negative 1)], .map [([], .array [.null])]] ∧
      decodeAllWith options (data ++ [0x05, 0x81, 0x81, 0x80, 0x1C]) =
        .error (.depthExceeded 2) := by
  intro options data
  have hdata : decodeAllWith options data =
      .ok [.unsigned 1, .array [.tagged 1 (.negative 1)]] := by decide
  have hmap : decodeAllWith options [0xA1, 0x60, 0x81, 0xF6] =
      .ok [.map [([], .array [.null])]] := by decide
  have hnested : decodeAllWith options [0x05, 0x81, 0x81, 0x80, 0x1C] =
      .error (.depthExceeded 2) := by decide
  exact ⟨hdata, (decodeAllWith_append options data _ hdata).1 _ hmap,
    (decodeAllWith_append options data _ hdata).2 _ hnested⟩

end Cbor

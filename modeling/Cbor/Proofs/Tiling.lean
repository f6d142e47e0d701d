import Cbor.Cli.Inspection
import Cbor.Proofs.Extension
import Cbor.Proofs.Sequences

/-!
# Sequences taken apart

The steps of a walk take up the data from its first byte, one behind the other, up to its end or to
the item that does not decode.  So a sequence is shown item by item as it is decoded as a whole.
-/

namespace Cbor

variable {options : Options} {data : Bytes}

/-! ## Tilings -/

/--
The steps take up the bytes, which start at `offset`, to the last one: each step has bytes, they
decode on their own and to their end to its item, and the next step starts where it stops.
-/
inductive Tiles (options : Options) : (offset : Nat) → List Step → Bytes → Prop
  | nil (offset : Nat) : Tiles options offset [] []
  | cons {offset : Nat} {bytes rest : Bytes} {item : Item} {steps : List Step} :
      bytes ≠ [] → decodeWith options bytes = .ok (item, bytes.length) →
      Tiles options (offset + bytes.length) steps rest →
      Tiles options offset (⟨offset, bytes, item⟩ :: steps) (bytes ++ rest)

theorem exists_bytes_of_decodeWith {item : Item} {length : Nat}
    (h : decodeWith options data = .ok (item, length)) :
    ∃ bytes rest, data = bytes ++ rest ∧ bytes.length = length ∧ bytes ≠ [] ∧
      decodeWith options bytes = .ok (item, bytes.length) := by
  have hlength := length_pos_of_decodeWith h
  obtain ⟨bytes, rest, rfl, hbytes, rfl⟩ := (decodeWith_eq_ok_iff_append ..).mp h
  refine ⟨bytes, rest, rfl, rfl, List.length_pos_iff.mp hlength.1, ?_⟩
  exact (decodeWith_eq_ok_iff_append ..).mpr ⟨bytes, [], (List.append_nil _).symm, hbytes, rfl⟩

theorem Tiles.slice {offset : Nat} {steps : List Step} (h : Tiles options offset steps data)
    {step : Step} (hstep : step ∈ steps) :
    offset ≤ step.offset ∧
      (data.drop (step.offset - offset)).take step.bytes.length = step.bytes := by
  induction h with
  | nil => contradiction
  | @cons offset bytes rest item steps _ _ _ ih =>
      rcases List.mem_cons.mp hstep with rfl | hstep
      · simp
      · obtain ⟨hle, hslice⟩ := ih hstep
        have hsplit : step.offset - offset =
            bytes.length + (step.offset - (offset + bytes.length)) := by omega
        refine ⟨by omega, ?_⟩
        rw [hsplit, List.drop_length_add_append, hslice]

theorem Tiles.eq_nil_iff {offset : Nat} {steps : List Step} (h : Tiles options offset steps data) :
    steps = [] ↔ data = [] := by
  cases h with
  | nil => exact iff_of_true rfl rfl
  | cons hne => exact iff_of_false (List.cons_ne_nil _ _) (List.append_ne_nil_of_left_ne_nil hne _)

/-! ## The walk -/

namespace Walk

/-- How a walk over bytes that start at `offset` ends: it takes up all of them, or stops at the
first item that does not decode. -/
inductive Ends (options : Options) (offset : Nat) (steps : List Step) (data : Bytes) :
    Option (Nat × DecodeError) → Prop
  | whole : Tiles options offset steps data → Ends options offset steps data none
  | fault {taken left : Bytes} {error : DecodeError} :
      data = taken ++ left → Tiles options offset steps taken → left ≠ [] →
      decodeWith options left = .error error →
      Ends options offset steps data (some (offset + taken.length, error))

theorem Ends.cons {offset : Nat} {bytes rest : Bytes} {item : Item} {steps : List Step}
    {fault : Option (Nat × DecodeError)} (hne : bytes ≠ [])
    (hbytes : decodeWith options bytes = .ok (item, bytes.length))
    (h : Ends options (offset + bytes.length) steps rest fault) :
    Ends options offset (⟨offset, bytes, item⟩ :: steps) (bytes ++ rest) fault := by
  cases h with
  | whole htiles => exact .whole (.cons hne hbytes htiles)
  | @fault taken left error hrest htiles hleft herror =>
      subst hrest
      have hends := Ends.fault (List.append_assoc bytes taken left).symm
        (.cons hne hbytes htiles) hleft herror
      rwa [List.length_append, ← Nat.add_assoc] at hends

section

variable {round : UInt8} {rounds rest : Bytes} {found : List Step} {offset : Nat}

theorem resume_nil : resume options rounds found offset [] = ⟨found.reverse, none⟩ := by
  cases rounds <;> rfl

theorem resume_of_error {error : DecodeError} (hrest : rest ≠ [])
    (h : decodeWith options rest = .error error) :
    resume options (round :: rounds) found offset rest =
      ⟨found.reverse, some (offset, error)⟩ := by
  cases rest with
  | nil => contradiction
  | cons byte tail => simp only [resume, h]

theorem resume_of_ok {item : Item} {length : Nat} (hrest : rest ≠ [])
    (h : decodeWith options rest = .ok (item, length)) :
    resume options (round :: rounds) found offset rest =
      resume options rounds (⟨offset, rest.take length, item⟩ :: found) (offset + length)
        (rest.drop length) := by
  cases rest with
  | nil => contradiction
  | cons byte tail => simp only [resume, h, List.splitAt_eq]

theorem resume_of_tiles {steps : List Step} {taken : Bytes} (h : Tiles options offset steps taken)
    (hrounds : (taken ++ rest).length ≤ rounds.length) (found : List Step) :
    ∃ rounds' : Bytes, rest.length ≤ rounds'.length ∧
      resume options rounds found offset (taken ++ rest) =
        resume options rounds' (steps.reverse ++ found) (offset + taken.length) rest := by
  -- every step has a byte, so each round that is used up leaves one for each byte that is left
  induction h generalizing rounds found with
  | nil => exact ⟨rounds, hrounds, rfl⟩
  | @cons offset bytes others item steps hne hbytes _ ih =>
      have hpos := List.length_pos_iff.mpr hne
      rw [List.append_assoc] at hrounds ⊢
      cases rounds with
      | nil =>
          rw [List.length_append, List.length_nil] at hrounds
          omega
      | cons round rounds =>
          have hothers : (others ++ rest).length ≤ rounds.length := by
            rw [List.length_append, List.length_cons] at hrounds
            omega
          obtain ⟨rounds', hrounds', hresume⟩ := ih hothers (⟨offset, bytes, item⟩ :: found)
          refine ⟨rounds', hrounds', ?_⟩
          have hhead := decodeWith_append_of_ok hbytes (others ++ rest)
          rw [resume_of_ok (List.append_ne_nil_of_left_ne_nil hne _) hhead, List.take_left,
            List.drop_left, hresume, List.reverse_cons, List.append_assoc, List.length_append,
            Nat.add_assoc]
          rfl

end

theorem Ends.walk_eq {steps : List Step} {fault : Option (Nat × DecodeError)}
    (h : Ends options 0 steps data fault) : walk options data = ⟨steps, fault⟩ := by
  cases h with
  | whole htiles =>
      have hrounds : (data ++ []).length ≤ data.length := by simp
      obtain ⟨rounds, -, hresume⟩ := resume_of_tiles htiles hrounds []
      rw [List.append_nil] at hresume
      rw [walk, hresume, resume_nil, List.append_nil, List.reverse_reverse]
  | @fault taken left error hdata htiles hleft herror =>
      subst hdata
      obtain ⟨rounds, hrounds, hresume⟩ :=
        resume_of_tiles htiles (Nat.le_refl (taken ++ left).length) []
      have hpos := List.length_pos_iff.mpr hleft
      cases rounds with
      | nil =>
          rw [List.length_nil] at hrounds
          omega
      | cons round rounds =>
          rw [walk, hresume, resume_of_error hleft herror, List.append_nil, List.reverse_reverse]

theorem exists_ends (options : Options) (offset : Nat) (data : Bytes) :
    ∃ steps fault, Ends options offset steps data fault := by
  -- on what is left of the data
  induction hleft : data.length using Nat.strongRecOn generalizing offset data with
  | ind left ih =>
      by_cases hdata : data = []
      · subst hdata
        exact ⟨[], none, .whole (.nil offset)⟩
      · cases hdecode : decodeWith options data with
        | error error =>
            exact ⟨[], _, .fault (List.nil_append data).symm (.nil offset) hdata hdecode⟩
        | ok found =>
            obtain ⟨item, length⟩ := found
            obtain ⟨bytes, rest, rfl, -, hne, hbytes⟩ := exists_bytes_of_decodeWith hdecode
            have hpos := List.length_pos_iff.mpr hne
            have hless : rest.length < left := by
              rw [← hleft, List.length_append]
              omega
            obtain ⟨steps, fault, hends⟩ := ih rest.length hless (offset + bytes.length) rest rfl
            exact ⟨_, fault, hends.cons hne hbytes⟩

theorem ends_walk (options : Options) (data : Bytes) :
    Ends options 0 (walk options data).steps data (walk options data).fault := by
  obtain ⟨steps, fault, hends⟩ := exists_ends options 0 data
  rw [hends.walk_eq]
  exact hends

end Walk

/-! ## Sequences shown item by item -/

namespace Inspection

theorem splitItems_eq_walk (options : Options) (hdata : data ≠ []) :
    splitItems options true data =
      match (walk options data).fault with
      | none => .ok (walk options data).steps
      | some fault => .error fault := by
  have hsequence : (true && !data.isEmpty) = true := by simp [hdata]
  exact if_pos hsequence

theorem splitItems_eq_ok_iff_tiles (hdata : data ≠ []) {steps : List Step} :
    splitItems options true data = .ok steps ↔ Tiles options 0 steps data := by
  constructor
  · intro hsplit
    have hends := Walk.ends_walk options data
    rw [splitItems_eq_walk options hdata] at hsplit
    cases hfault : (walk options data).fault with
    | some fault => simp [hfault] at hsplit
    | none =>
        rw [hfault] at hsplit hends
        cases hsplit
        cases hends with
        | whole htiles => exact htiles
  · intro htiles
    rw [splitItems_eq_walk options hdata, (Walk.Ends.whole htiles).walk_eq]

theorem splitItems_of_tiles_of_error {steps : List Step} {taken rest : Bytes}
    {error : DecodeError} (htiles : Tiles options 0 steps taken) (hrest : rest ≠ [])
    (h : decodeWith options rest = .error error) :
    splitItems options true (taken ++ rest) = .error (taken.length, error) := by
  have hends := Walk.Ends.fault rfl htiles hrest h
  rw [splitItems_eq_walk options (List.append_ne_nil_of_right_ne_nil _ hrest), hends.walk_eq,
    Nat.zero_add]

theorem splitItems_eq_error_iff_tiles (hdata : data ≠ []) {offset : Nat} {error : DecodeError} :
    splitItems options true data = .error (offset, error) ↔
      offset < data.length ∧ (∃ steps, Tiles options 0 steps (data.take offset)) ∧
        decodeWith options (data.drop offset) = .error error := by
  constructor
  · intro hsplit
    have hends := Walk.ends_walk options data
    rw [splitItems_eq_walk options hdata] at hsplit
    cases hfault : (walk options data).fault with
    | none => simp [hfault] at hsplit
    | some fault =>
        rw [hfault] at hsplit hends
        cases hsplit
        generalize (walk options data).steps = steps at hends
        cases hends with
        | @fault taken left _ hsplit htiles hleft herror =>
            have hpos := List.length_pos_iff.mpr hleft
            subst hsplit
            rw [Nat.zero_add, List.take_left, List.drop_left, List.length_append]
            exact ⟨by omega, ⟨steps, htiles⟩, herror⟩
  · rintro ⟨hoffset, ⟨steps, htiles⟩, herror⟩
    have hleft : data.drop offset ≠ [] := by
      rw [ne_eq, List.drop_eq_nil_iff]
      omega
    have hsplit := splitItems_of_tiles_of_error htiles hleft herror
    rwa [List.take_append_drop, List.length_take_of_le (Nat.le_of_lt hoffset)] at hsplit

theorem decodeAllWith_eq_splitItems (options : Options) (hdata : data ≠ []) :
    decodeAllWith options data =
      match splitItems options true data with
      | .ok steps => .ok (steps.map Step.item)
      | .error (_, error) => .error error := by
  have hwalk : decodeAllWith options data = (walk options data).outcome :=
    readAll_eq_outcome options data [] 0 data
  rw [hwalk, splitItems_eq_walk options hdata, Walk.outcome]
  cases (walk options data).fault <;> rfl

theorem splitItems_eq_first {sequence : Bool} (h : (sequence && !data.isEmpty) = false) :
    splitItems options sequence data =
      match decodeWith options data with
      | .error error => .error (0, error)
      | .ok (item, length) => .ok [⟨0, data.take length, item⟩] :=
  if_neg (Bool.not_eq_true _ ▸ h)

theorem splitItems_of_tiles {step : Step} {steps : List Step} {taken : Bytes}
    (h : Tiles options 0 (step :: steps) taken) (rest : Bytes) :
    splitItems options false (taken ++ rest) = .ok [step] := by
  cases h with
  | @cons _ bytes others item _ hne hbytes _ =>
      have hfirst := decodeWith_append_of_ok hbytes (others ++ rest)
      rw [List.append_assoc, splitItems_eq_first (Bool.false_and _), hfirst]
      simp only [List.take_left]

theorem tiles_singleton {item : Item} {length : Nat}
    (h : decodeWith options data = .ok (item, length)) :
    Tiles options 0 [⟨0, data.take length, item⟩] (data.take length) := by
  obtain ⟨bytes, rest, rfl, rfl, hne, hbytes⟩ := exists_bytes_of_decodeWith h
  have htiles := Tiles.cons hne hbytes (.nil (0 + bytes.length))
  rw [List.append_nil] at htiles
  rwa [List.take_left]

theorem decodeAllWith_eq_error_iff (options : Options) (hdata : data ≠ []) {error : DecodeError} :
    decodeAllWith options data = .error error ↔
      ∃ offset, splitItems options true data = .error (offset, error) := by
  rw [decodeAllWith_eq_splitItems options hdata]
  cases splitItems options true data with
  | ok steps => simp
  | error fault =>
      constructor
      · intro h
        cases h
        exact ⟨fault.1, rfl⟩
      · rintro ⟨offset, h⟩
        cases h
        rfl

theorem failure_inspectData {inspection : Inspection} {offset : Nat} {error : DecodeError}
    (h : splitItems inspection.options inspection.sequence data = .error (offset, error))
    (store : Store) :
    (inspection.inspectData store data).failure =
      some ("Failed to decode item at offset ".toList ++ Text.ofNat offset ++ ": ".toList ++
        error.message) := by
  rw [inspectData, h]
  rfl

/--
Taking a sequence apart agrees with decoding it as a whole: it succeeds with the same items, which
take up the data from its first byte to its last and decode from their own bytes, or it fails with
the same error, at the offset where the items before it end, which the message names.  Without the
sequence it gives the first item alone, whatever follows.
-/
theorem splitItems_sequence (options : Options) (data : Bytes) (hdata : data ≠ []) :
    (∀ items, decodeAllWith options data = .ok items ↔
      ∃ steps, splitItems options true data = .ok steps ∧ steps.map Step.item = items) ∧
    (∀ steps, splitItems options true data = .ok steps ↔ Tiles options 0 steps data) ∧
    (∀ steps, splitItems options true data = .ok steps → ∀ step ∈ steps,
      (data.drop step.offset).take step.bytes.length = step.bytes) ∧
    (∀ error, decodeAllWith options data = .error error ↔
      ∃ offset, splitItems options true data = .error (offset, error)) ∧
    (∀ offset error, splitItems options true data = .error (offset, error) ↔
      offset < data.length ∧ (∃ steps, Tiles options 0 steps (data.take offset)) ∧
        decodeWith options (data.drop offset) = .error error) ∧
    (∀ inspection : Inspection, inspection.options = options → inspection.sequence = true →
      ∀ offset error, splitItems options true data = .error (offset, error) →
        ∀ store, (inspection.inspectData store data).failure =
          some ("Failed to decode item at offset ".toList ++ Text.ofNat offset ++ ": ".toList ++
            error.message)) ∧
    (∀ item length, decodeWith options data = .ok (item, length) →
      splitItems options false data = .ok [⟨0, data.take length, item⟩]) ∧
    ∀ step steps taken rest, Tiles options 0 (step :: steps) taken → data = taken ++ rest →
      splitItems options false data = .ok [step] := by
  refine ⟨fun items => ?_, fun _ => splitItems_eq_ok_iff_tiles hdata,
    fun steps hsplit step hstep => ?_, fun _ => decodeAllWith_eq_error_iff options hdata,
    fun _ _ => splitItems_eq_error_iff_tiles hdata, ?_, fun item length hfirst => ?_, ?_⟩
  · rw [decodeAllWith_eq_splitItems options hdata]
    cases splitItems options true data <;> simp
  · have hslice := ((splitItems_eq_ok_iff_tiles hdata).mp hsplit).slice hstep
    rw [Nat.sub_zero] at hslice
    exact hslice.2
  · rintro inspection rfl hsequence offset error hsplit store
    exact failure_inspectData (hsequence ▸ hsplit) store
  · have hsplit := splitItems_of_tiles (tiles_singleton hfirst) (data.drop length)
    rwa [List.take_append_drop] at hsplit
  · rintro step steps taken rest htiles rfl
    exact splitItems_of_tiles htiles rest

/-- Two items, an integer and an array, and the head of a third that is cut. -/
theorem splitItems_sequence_cut_head :
    ([0x01, 0x81, 0xF6, 0x18] : Bytes) ≠ [] ∧
      splitItems {} true [0x01, 0x81, 0xF6, 0x18] = .error (3, .argumentTooShort 1) ∧
      decodeAllWith {} [0x01, 0x81, 0xF6, 0x18] = .error (.argumentTooShort 1) ∧
      (∃ steps, Tiles {} 0 steps [0x01, 0x81, 0xF6]) ∧
      splitItems {} false [0x01, 0x81, 0xF6, 0x18] = .ok [⟨0, [0x01], .unsigned 1⟩] := by
  have hsplit : splitItems {} true [0x01, 0x81, 0xF6, 0x18] = .error (3, .argumentTooShort 1) := by
    decide
  have hdata : ([0x01, 0x81, 0xF6, 0x18] : Bytes) ≠ [] := by decide
  obtain ⟨-, -, -, hall, hfault, -, hfirst, -⟩ :=
    splitItems_sequence {} [0x01, 0x81, 0xF6, 0x18] hdata
  exact ⟨hdata, hsplit, (hall _).mpr ⟨3, hsplit⟩, ((hfault 3 _).mp hsplit).2.1,
    hfirst (.unsigned 1) 1 (by decide)⟩

end Inspection

end Cbor

import Cbor.Proofs.Extension
import Cbor.Proofs.Guarded

/-!
# Guarded runs have no breach

A guarded run agrees with the readers at every offset of the data, and every item that it reads
ends behind its start and inside the data.
-/

namespace Cbor

variable {α β : Type} {data : Bytes}

def Cursor.within (data : Bytes) (offset : Nat) : Cursor := ⟨offset, data.drop offset⟩

theorem Cursor.next?_within_of_lt {offset : Nat} (h : offset < data.length) :
    (Cursor.within data offset).next? = some (data[offset], Cursor.within data (offset + 1)) := by
  simp only [Cursor.within, List.drop_eq_getElem_cons h, Cursor.next?_cons]

theorem Cursor.next?_within_of_le {offset : Nat} (h : data.length ≤ offset) :
    (Cursor.within data offset).next? = none := by
  rw [Cursor.within, List.drop_of_length_le h, Cursor.next?_nil]

theorem Cursor.take?_within {count offset : Nat} (h : offset + count ≤ data.length) :
    (Cursor.within data offset).take? count =
      some ((data.drop offset).take count, Cursor.within data (offset + count)) := by
  have hlength : ((data.drop offset).take count).length = count := by
    rw [List.length_take, List.length_drop]
    omega
  simp [Cursor.take?, Cursor.within, hlength, List.drop_drop]

/-! ## Agreement -/

namespace Guarded

/--
Two computations from an offset agree: they fail with the same decoding error, or give the same
at the same end, which lies in the data and at least `progress` bytes behind the offset.
-/
inductive Agree (data : Bytes) (offset progress : Nat) :
    Guarded (α × Nat) → Except DecodeError (α × Cursor) → Prop
  | ok {x : α} {stop : Nat} :
      offset + progress ≤ stop → stop ≤ data.length →
      Agree data offset progress (.ok (x, stop)) (.ok (x, Cursor.within data stop))
  | fault (error : DecodeError) :
      Agree data offset progress (.error (.inr error)) (.error error)

def Tracks (data : Bytes) (progress : Nat) (guarded : Nat → Guarded (α × Nat))
    (reader : Reader α) : Prop :=
  ∀ offset ≤ data.length, Agree data offset progress (guarded offset)
    (reader (Cursor.within data offset))

variable {offset progress : Nat} {guarded : Guarded (α × Nat)}
  {result : Except DecodeError (α × Cursor)}

/-- The progress of a sequence may be counted from any origin. -/
theorem Agree.bind {origin total : Nat} {next : α × Nat → Guarded (β × Nat)}
    {next' : α × Cursor → Except DecodeError (β × Cursor)}
    (h : Agree data offset progress guarded result)
    (hnext : ∀ x stop, offset + progress ≤ stop → stop ≤ data.length →
      Agree data origin total (next (x, stop)) (next' (x, Cursor.within data stop))) :
    Agree data origin total (guarded >>= next) (result >>= next') := by
  cases h with
  | fault error => exact .fault error
  | @ok x stop hstart hend => exact hnext x stop hstart hend

theorem Agree.map (f : α → β) (h : Agree data offset progress guarded result) :
    Agree data offset progress (guarded >>= fun found => .ok (f found.1, found.2))
      (result >>= fun found => .ok (f found.1, found.2)) :=
  h.bind fun _ _ hstart hend => .ok hstart hend

theorem Agree.shift {start progress' : Nat} (h : Agree data start progress' guarded result)
    (hle : offset + progress ≤ start + progress') : Agree data offset progress guarded result := by
  cases h with
  | fault error => exact .fault error
  | ok hstart hend => exact .ok (by omega) hend

theorem Agree.inChunk (h : Agree data offset progress guarded result) :
    Agree data offset progress (Guarded.inChunk guarded) (result.mapError .inChunk) := by
  cases h with
  | fault error => exact .fault (.inChunk error)
  | ok hstart hend => exact .ok hstart hend

theorem Agree.eq_mapError (h : Agree data offset progress guarded result) :
    guarded = (result.map fun (x, cursor) => (x, cursor.offset)).mapError .inr := by
  cases h with
  | fault error => rfl
  | ok hstart hend => rfl

/-! ## Steps -/

theorem add_eq {first second : Nat} (h : first + second < 2 ^ 64) :
    add first second = .ok (first + second) := if_pos h

theorem slice_eq (h : offset ≤ data.length) : slice data offset = .ok (data.drop offset) := if_pos h

theorem exactly_agree {guarded : Nat → Guarded (α × Nat)} {reader : Reader α}
    (helement : Tracks data 1 guarded reader) {rounds : Nat} (count : Nat) (found : List α)
    {offset : Nat} (hoffset : offset ≤ data.length) (hrounds : data.length - offset < rounds) :
    Agree data offset 0 (exactly guarded rounds count found offset)
      (Reader.exactly.loop reader count found (Cursor.within data offset)) := by
  -- every round takes a byte, so the bytes that are left outlast the rounds
  induction count generalizing rounds found offset with
  | zero =>
      cases rounds with
      | zero => contradiction
      | succ rounds => exact .ok (Nat.le_refl _) hoffset
  | succ count ih =>
      cases rounds with
      | zero => contradiction
      | succ rounds =>
          refine (helement offset hoffset).bind fun x stop hstart hend => ?_
          exact (ih (x :: found) hend (by omega)).shift (by omega)

section

variable (hdata : data.length < 2 ^ 63)
include hdata

/-- A reader that gives the same at every offset, and never more than there is, may be run in a
slice. -/
theorem inSlice_tracks {reader : Reader α} {Word : Bytes → α → Prop}
    {Fault : Bytes → DecodeError → Prop} (haccepts : reader.Accepts Word)
    (hrejects : reader.Rejects Fault) (hcovers : ∀ input, Covers Word Fault input) :
    Tracks data 0 (inSlice data reader) reader := by
  intro offset hoffset
  rw [inSlice, slice_eq hoffset, ok_bind, Cursor.within]
  rcases hcovers (data.drop offset) with ⟨word, x, rest, hsplit, hword⟩ | ⟨error, hfault⟩
  · have hlength : offset + word.length ≤ data.length := by
      have h := congrArg List.length hsplit
      rw [List.length_drop, List.length_append] at h
      omega
    have hrest : data.drop (offset + word.length) = rest := by
      rw [← List.drop_drop, hsplit, List.drop_left]
    rw [hsplit, Cursor.start, haccepts hword, haccepts hword, ← hrest]
    have hstop : add offset (0 + word.length) = .ok (offset + word.length) := by
      rw [Nat.zero_add]
      exact add_eq (by omega)
    simp only [lift, Except.mapError, ok_bind, hstop]
    exact .ok (Nat.le_add_right _ _) hlength
  · rw [Cursor.start, hrejects hfault, hrejects hfault]
    exact .fault error

theorem argument_tracks {info : Nat} (hinfo : info < 32) :
    Tracks data 0 (argument data info) (Argument.read info) :=
  inSlice_tracks hdata (Argument.read_accepts info) (Argument.read_rejects info)
    (Argument.covers hinfo)

theorem number_tracks {info : Nat} (hinfo : info < 32) :
    Tracks data 0 (number data info) (Argument.readNumber info) := by
  intro offset hoffset
  refine (argument_tracks hdata hinfo offset hoffset).bind fun argument stop hstart hend => ?_
  cases argument with
  | number value => exact .ok hstart hend
  | indefinite => exact .fault _

theorem content_tracks (length : UInt64) :
    Tracks data 0 (content data length) (StringContent.readDefinite length) := by
  have haccepts : (StringContent.readDefinite length).Accepts
      fun word found => word = found ∧ word.length = length.toNat := by
    rintro word _ ⟨rfl, hlength⟩ offset rest
    rw [StringContent.readDefinite_append hlength, hlength]
  have hrejects : (StringContent.readDefinite length).Rejects
      fun input error => input.length < length.toNat ∧ error = .contentTooShort length.toNat := by
    rintro input _ ⟨hcut, rfl⟩ offset
    exact StringContent.readDefinite_of_lt hcut offset
  apply inSlice_tracks hdata haccepts hrejects
  intro input
  by_cases hcut : input.length < length.toNat
  · exact .inr ⟨_, hcut, rfl⟩
  · refine .inl ⟨input.take length.toNat, _, input.drop length.toNat, by simp, rfl, ?_⟩
    rw [List.length_take]
    omega

/-! ## Loops -/

theorem untilBreak_agree {guarded : Nat → Guarded (α × Nat)} {reader : Reader α}
    (helement : Tracks data 1 guarded reader) {rounds : Nat} {left : Bytes} (found : List α)
    {offset : Nat} (hoffset : offset ≤ data.length) (hrounds : data.length - offset < rounds)
    (hleft : data.length - offset ≤ left.length) :
    Agree data offset 0 (untilBreak data guarded rounds found offset)
      (Reader.untilBreak.loop reader left found (Cursor.within data offset)) := by
  induction rounds generalizing left found offset with
  | zero => contradiction
  | succ rounds ih =>
      rw [untilBreak]
      by_cases hlt : offset < data.length
      · cases left with
        | nil =>
            simp only [List.length_nil] at hleft
            omega
        | cons byte left =>
            rw [List.getElem?_eq_getElem hlt, Reader.untilBreak.loop,
              Cursor.next?_within_of_lt hlt]
            by_cases hbreak : data[offset] = breakByte
            · simp only [if_pos hbreak, add_eq (show offset + 1 < 2 ^ 64 by omega), ok_bind]
              exact .ok (Nat.le_succ _) hlt
            · simp only [if_neg hbreak]
              refine (helement offset hoffset).bind fun x stop hstart hend => ?_
              simp only [List.length_cons] at hleft
              exact (ih (x :: found) hend (by omega) (by omega)).shift (by omega)
      · have hend : data.length ≤ offset := by omega
        rw [List.getElem?_eq_none hend]
        cases left with
        | nil => exact .fault _
        | cons byte left =>
            rw [Reader.untilBreak.loop, Cursor.next?_within_of_le hend]
            exact .fault _

theorem elements_tracks {guarded : Nat → Guarded (α × Nat)} {reader : Reader α}
    (helement : Tracks data 1 guarded reader) (argument : Argument) :
    Tracks data 0 (elements data guarded argument) (Item.readElements reader argument) := by
  intro offset hoffset
  cases argument with
  | number count =>
      exact exactly_agree helement count.toNat [] hoffset (Nat.lt_succ_self _)
  | indefinite =>
      apply untilBreak_agree hdata helement [] hoffset (Nat.lt_succ_self _)
      simp only [Cursor.within, List.length_drop, Nat.le_refl]

/-! ## Strings and simple values -/

theorem byte_agree {offset : Nat} (hoffset : offset ≤ data.length) {error : DecodeError}
    {next : UInt8 → Nat → Guarded (α × Nat)} {next' : UInt8 → Reader α}
    (hnext : ∀ byte, Tracks data 0 (next byte) (next' byte)) :
    Agree data offset 1
      (match data[offset]? with
        | none => fault error
        | some byte => do
            let behind ← add offset 1
            next byte behind)
      (match (Cursor.within data offset).next? with
        | none => .error error
        | some (byte, cursor) => next' byte cursor) := by
  by_cases hlt : offset < data.length
  · rw [List.getElem?_eq_getElem hlt, Cursor.next?_within_of_lt hlt]
    simp only [add_eq (show offset + 1 < 2 ^ 64 by omega), ok_bind]
    exact (hnext _ (offset + 1) hlt).shift (Nat.le_refl _)
  · have hend : data.length ≤ offset := by omega
    rw [List.getElem?_eq_none hend, Cursor.next?_within_of_le hend]
    exact .fault error

theorem chunk_tracks (major : Major) :
    Tracks data 1 (chunk data major) (StringContent.readChunk major) := by
  intro offset hoffset
  apply byte_agree hdata hoffset
  intro byte behind hbehind
  by_cases hmajor : (Head.ofByte byte).major = major
  · simp only [hmajor, ne_eq, not_true_eq_false, if_false]
    refine (argument_tracks hdata (Head.info_lt byte) behind hbehind).inChunk.bind
      fun argument start hstart hend => ?_
    cases argument with
    | number length => exact (content_tracks hdata length start hend).inChunk.shift (by omega)
    | indefinite => exact .fault _
  · simp only [hmajor, ne_eq, not_false_eq_true, if_true]
    exact .fault _

theorem string_tracks {head : Head} (hinfo : head.info < 32) :
    Tracks data 0 (string data head) (StringContent.read head) := by
  intro offset hoffset
  refine (argument_tracks hdata hinfo offset hoffset).bind fun argument start hstart hend => ?_
  cases argument with
  | number length => exact (content_tracks hdata length start hend).shift (by omega)
  | indefinite =>
      have hchunks := elements_tracks hdata (chunk_tracks hdata head.major) .indefinite start hend
      exact (hchunks.map List.flatten).shift (by omega)

theorem float_tracks {width : Nat} (hwidth : width ≤ 8) :
    Tracks data 0 (float data width) (Simple.readFloat width) := by
  intro offset hoffset
  rw [float, add_eq (show offset + width < 2 ^ 64 by omega), ok_bind, Simple.readFloat]
  by_cases hend : offset + width ≤ data.length
  · rw [if_pos hend, Cursor.take?_within hend]
    exact .ok (Nat.le_add_right _ _) hend
  · have hcut : (data.drop offset).length < width := by
      rw [List.length_drop]
      omega
    rw [if_neg hend, Cursor.within, Cursor.take?_of_lt hcut]
    exact .fault _

omit hdata in
theorem simple_of_invalid {info : Nat} (h : info < 20 ∨ info = 24 ∨ 28 ≤ info) (offset : Nat) :
    simple data info offset = fault (.invalidInfo info) := by
  unfold simple
  split
  case h_8 => rfl
  all_goals omega

theorem simple_tracks (info : Nat) : Tracks data 0 (simple data info) (Simple.read info) := by
  intro offset hoffset
  by_cases hinvalid : info < 20 ∨ info = 24 ∨ 28 ≤ info
  · rw [simple_of_invalid hinvalid, Simple.read_of_invalid hinvalid]
    exact .fault _
  obtain rfl | rfl | rfl | rfl | rfl | rfl | rfl : info = 20 ∨ info = 21 ∨ info = 22 ∨
      info = 23 ∨ info = 25 ∨ info = 26 ∨ info = 27 := by omega
  · exact .ok (Nat.le_refl _) hoffset
  · exact .ok (Nat.le_refl _) hoffset
  · exact .ok (Nat.le_refl _) hoffset
  · exact .ok (Nat.le_refl _) hoffset
  · exact (float_tracks hdata (show 2 ≤ 8 by decide) offset hoffset).map fun bits =>
      Item.single (UInt32.ofNat (FloatFormat.half.widen .single bits.toNat))
  · exact (float_tracks hdata (show 4 ≤ 8 by decide) offset hoffset).map fun bits =>
      Item.single bits.toUInt32
  · exact (float_tracks hdata (show 8 ≤ 8 by decide) offset hoffset).map Item.double

/-! ## Items -/

omit hdata in
theorem capacity_eq_ok {offset : Nat} (hoffset : offset ≤ data.length) (argument : Argument) :
    ∃ room, capacity data argument offset = .ok room ∧ room ≤ data.length - offset := by
  cases argument with
  | number count =>
      refine ⟨min count.toNat (data.drop offset).length, ?_, ?_⟩
      · rw [capacity, slice_eq hoffset, ok_bind]
      · rw [← List.length_drop]
        exact Nat.min_le_right ..
  | indefinite => exact ⟨0, rfl, Nat.zero_le _⟩

theorem list_tracks {value : Nat → Guarded (Item × Nat)} {reader : Reader Item}
    (hvalue : Tracks data 1 value reader) (argument : Argument) :
    Tracks data 0 (list data value argument) (fun cursor => do
      let (items, cursor) ← Item.readElements reader argument cursor
      .ok (.array items, cursor)) := by
  intro offset hoffset
  obtain ⟨room, hcapacity, hroom⟩ := capacity_eq_ok hoffset argument
  have hreserve : reserve data room offset = .ok () := if_pos hroom
  rw [list, hcapacity, ok_bind, hreserve, ok_bind]
  exact (elements_tracks hdata hvalue argument offset hoffset).map Item.array

theorem entry_tracks {value : Nat → Guarded (Item × Nat)} {reader : Reader Item}
    (hvalue : Tracks data 1 value reader) :
    Tracks data 1 (entry data value) (Item.readEntry reader) := by
  intro offset hoffset
  apply byte_agree hdata hoffset
  intro byte behind hbehind
  by_cases hmajor : (Head.ofByte byte).major = .text
  · simp only [hmajor, ne_eq, not_true_eq_false, if_false]
    refine (string_tracks hdata (Head.info_lt byte) behind hbehind).bind
      fun key start hstart hend => ?_
    refine (hvalue start hend).bind fun item stop hstart' hend' => ?_
    exact .ok (by omega) hend'
  · simp only [hmajor, ne_eq, not_false_eq_true, if_true]
    exact .fault _

theorem map_tracks {value : Nat → Guarded (Item × Nat)} {reader : Reader Item}
    (hvalue : Tracks data 1 value reader) (argument : Argument) :
    Tracks data 0 (map data value argument) (fun cursor => do
      let (pairs, cursor) ← Item.readElements (Item.readEntry reader) argument cursor
      .ok (.map (Entries.ofPairs pairs), cursor)) := by
  intro offset hoffset
  exact (elements_tracks hdata (entry_tracks hdata hvalue) argument offset hoffset).map
    fun pairs => Item.map (Entries.ofPairs pairs)

omit hdata in
theorem tag_tracks {value : Nat → Guarded (Item × Nat)} {reader : Reader Item}
    (hvalue : Tracks data 1 value reader) (id : UInt64) :
    Tracks data 0 (tag id value) (fun cursor => do
      let (content, cursor) ← reader cursor
      .ok (.tagged id content, cursor)) := by
  intro offset hoffset
  exact ((hvalue offset hoffset).map (Item.tagged id)).shift (Nat.le_succ _)

/-! ## Levels -/

omit hdata in
theorem descend_agree {limit levels depth origin total : Nat} {inner : Option (Reader Item)}
    {next : Nat → Guarded (Item × Nat)} {next' : Reader Item → Except DecodeError (Item × Cursor)}
    (hlimit : limit < 2 ^ 64)
    (hnone : inner = none → limit ≤ depth)
    (hsome : ∀ reader, inner = some reader →
      depth < limit ∧ Tracks data 1 (value data limit levels (depth + 1)) reader)
    (hnext : ∀ reader, Tracks data 1 (value data limit levels (depth + 1)) reader →
      Agree data origin total (next (depth + 1)) (next' reader)) :
    Agree data origin total (descend limit depth >>= next)
      (Item.descend limit inner >>= next') := by
  cases inner with
  | none =>
      rw [descend, if_pos (hnone rfl)]
      exact .fault _
  | some reader =>
      obtain ⟨hdepth, htracks⟩ := hsome reader rfl
      rw [descend, if_neg (Nat.not_le_of_lt hdepth), add_eq (by omega), ok_bind]
      exact hnext reader htracks

theorem value_tracks_readOne {limit levels depth : Nat} {inner : Option (Reader Item)}
    (hlimit : limit < 2 ^ 64) (hdepth : depth ≤ limit)
    (hnone : inner = none → limit ≤ depth)
    (hsome : ∀ reader, inner = some reader →
      depth < limit ∧ Tracks data 1 (value data limit levels (depth + 1)) reader) :
    Tracks data 1 (value data limit (levels + 1) depth) (Item.readOne limit inner) := by
  intro offset hoffset
  rw [value, if_neg (Nat.not_lt_of_le hdepth)]
  apply byte_agree hdata hoffset
  intro byte behind hbehind
  have hinfo := Head.info_lt byte
  generalize Head.ofByte byte = head at hinfo
  obtain ⟨major, info⟩ := head
  cases major with
  | unsigned => exact (number_tracks hdata hinfo behind hbehind).map Item.unsigned
  | negative =>
      refine (number_tracks hdata hinfo behind hbehind).bind fun number stop hstart hend => ?_
      by_cases hsize : number.toNat + 1 < UInt64.size
      · simp only [if_pos hsize]
        exact .ok hstart hend
      · simp only [if_neg hsize]
        exact .fault _
  | bytes => exact (string_tracks hdata hinfo behind hbehind).map Item.bytes
  | text => exact (string_tracks hdata hinfo behind hbehind).map Item.text
  | array =>
      refine (argument_tracks hdata hinfo behind hbehind).bind fun argument start hstart hend => ?_
      refine descend_agree hlimit hnone hsome fun reader htracks => ?_
      exact (list_tracks hdata htracks argument start hend).shift (by omega)
  | map =>
      refine (argument_tracks hdata hinfo behind hbehind).bind fun argument start hstart hend => ?_
      refine descend_agree hlimit hnone hsome fun reader htracks => ?_
      exact (map_tracks hdata htracks argument start hend).shift (by omega)
  | tag =>
      refine (number_tracks hdata hinfo behind hbehind).bind fun id start hstart hend => ?_
      refine descend_agree hlimit hnone hsome fun reader htracks => ?_
      exact (tag_tracks htracks id start hend).shift (by omega)
  | simple => exact simple_tracks hdata info behind hbehind

/-- The levels above an item and the budget below it make up the limit. -/
theorem value_tracks {limit budget depth : Nat} (hlimit : limit < 2 ^ 64)
    (hdepth : depth + budget = limit) :
    Tracks data 1 (value data limit (budget + 1) depth) (Item.read limit budget) := by
  induction budget generalizing depth with
  | zero =>
      apply value_tracks_readOne hdata hlimit (by omega)
      · intro _
        omega
      · simp
  | succ budget ih =>
      apply value_tracks_readOne hdata hlimit (by omega)
      · simp
      · rintro _ ⟨rfl⟩
        exact ⟨by omega, ih (by omega)⟩

/-! ## Whole runs -/

theorem decodeWith_eq (options : Options) :
    decodeWith options data = (Cbor.decodeWith options data).mapError .inr := by
  have hrun := (value_tracks hdata options.maxDepth.toNat_lt (Nat.zero_add _) 0
    (Nat.zero_le _)).eq_mapError
  rw [decodeWith, hrun, Cbor.decodeWith, Cursor.within, List.drop_zero, Cursor.start]
  cases Item.read options.maxDepth.toNat options.maxDepth.toNat ⟨0, data⟩ with
  | error error => rfl
  | ok found => rfl

theorem all_eq {options : Options} {count : Nat} {left : Bytes} (found : List Item) {offset : Nat}
    (hoffset : offset ≤ data.length) (hcount : data.length - offset < count)
    (hleft : data.length - offset ≤ left.length) :
    all data options.maxDepth.toNat count found offset =
      (readAll options.maxDepth.toNat left found (Cursor.within data offset)).mapError .inr := by
  induction count generalizing left found offset with
  | zero => contradiction
  | succ count ih =>
      rw [all]
      by_cases hlt : offset < data.length
      · rw [if_pos hlt]
        cases left with
        | nil =>
            simp only [List.length_nil] at hleft
            omega
        | cons byte left =>
            have hread : readAll options.maxDepth.toNat (byte :: left) found
                (Cursor.within data offset) = (do
                  let (item, cursor) ← Item.read options.maxDepth.toNat options.maxDepth.toNat
                    (Cursor.within data offset)
                  readAll options.maxDepth.toNat left (item :: found) cursor) := by
              simp only [readAll, Cursor.within, List.drop_eq_getElem_cons hlt]
            have hitem := value_tracks hdata options.maxDepth.toNat_lt (Nat.zero_add _) offset
              hoffset
            rw [hread]
            generalize value data options.maxDepth.toNat (options.maxDepth.toNat + 1) 0 offset =
              guarded at hitem
            generalize Item.read options.maxDepth.toNat options.maxDepth.toNat
              (Cursor.within data offset) = result at hitem
            cases hitem with
            | fault error => rfl
            | @ok item stop hstart hend =>
                simp only [List.length_cons] at hleft
                exact ih (item :: found) hend (by omega) (by omega)
      · have hend : data.length ≤ offset := by omega
        rw [if_neg hlt, Cursor.within, List.drop_of_length_le hend]
        cases left with
        | nil => rfl
        | cons byte left => rfl

theorem decodeAllWith_eq (options : Options) :
    decodeAllWith options data = (Cbor.decodeAllWith options data).mapError .inr := by
  rw [decodeAllWith, rounds, all_eq hdata [] (Nat.zero_le _) (Nat.lt_succ_self _) (Nat.le_refl _)]
  rfl

end

end Guarded

/-! ## Definite containers -/

theorem Row.mul_length_le {Word : Bytes → α → Prop} {width : Nat} {body : Bytes} {xs : List α}
    (hwidth : ∀ {word x}, Word word x → width ≤ word.length) (h : Row Word body xs) :
    width * xs.length ≤ body.length := by
  have hsum : (xs.map fun _ => width).sum ≤ body.length := h.sum_map_le_length hwidth
  rwa [List.map_const', List.sum_replicate_nat, Nat.mul_comm] at hsum

theorem EncodesPair.two_le_length {budget : Nat} {word : Bytes} {pair : Bytes × Item}
    (h : EncodesPair budget word pair) : 2 ≤ word.length := by
  obtain ⟨hkey, hitem⟩ := h
  have hkeyLength := (hkey.continues (by decide)).one_le_length
  have hitemLength := hitem.continues.one_le_length
  rw [List.length_append]
  omega

namespace Item

variable {limit budget offset : Nat} {head rest : Bytes} {count : UInt64} {item : Item}
  {cursor : Cursor}

/-- Elements that were announced and read are as many, and there were bytes for each. -/
theorem readElements_number_of_eq_ok {element : Reader α} {Word : Bytes → α → Prop}
    {Fault : Bytes → DecodeError → Prop} {width : Nat} (haccepts : element.Accepts Word)
    (hrejects : element.Rejects Fault) (hcovers : ∀ input, Covers Word Fault input)
    (hcontinues : ∀ {word x}, Word word x → Continues word)
    (hwidth : ∀ {word x}, Word word x → width ≤ word.length) {xs : List α}
    (h : readElements element (.number count) ⟨offset, rest⟩ = .ok (xs, cursor)) :
    xs.length = count.toNat ∧ width * count.toNat ≤ rest.length := by
  obtain ⟨body, tail, rfl, helements, -⟩ := (Reader.eq_ok_iff
    (readElements_accepts haccepts hcontinues _)
    (readElements_rejects haccepts hrejects hcontinues _)
    (elements_covers hcovers hcontinues _ rest) ..).mp h
  cases helements with
  | counted hrow hcount =>
      have hle := hrow.mul_length_le hwidth
      rw [hcount] at hle
      rw [List.length_append]
      exact ⟨hcount, Nat.le_trans hle (Nat.le_add_right _ _)⟩

theorem read_array_of_eq_ok (hhead : Head.Spells .array head (.number count))
    (h : read limit budget ⟨offset, head ++ rest⟩ = .ok (item, cursor)) :
    ∃ items, item = .array items ∧ items.length = count.toNat ∧ count.toNat ≤ rest.length := by
  cases budget with
  | zero =>
      rw [read, readOne_array_eq hhead] at h
      contradiction
  | succ budget =>
      rw [read, readOne_array_eq hhead, descend, ok_bind] at h
      obtain ⟨⟨items, stop⟩, helements, hitem⟩ := exists_of_bind_eq_ok h
      cases hitem
      have hcount := readElements_number_of_eq_ok (read_accepts limit budget)
        (read_rejects limit budget) (item_covers limit budget) Encodes.continues
        (fun hword => hword.continues.one_le_length) helements
      rw [Nat.one_mul] at hcount
      exact ⟨items, rfl, hcount⟩

theorem read_map_of_eq_ok (hhead : Head.Spells .map head (.number count))
    (h : read limit budget ⟨offset, head ++ rest⟩ = .ok (item, cursor)) :
    ∃ pairs, item = .map (Entries.ofPairs pairs) ∧ pairs.length = count.toNat ∧
      2 * count.toNat ≤ rest.length := by
  cases budget with
  | zero =>
      rw [read, readOne_map_eq hhead] at h
      contradiction
  | succ budget =>
      rw [read, readOne_map_eq hhead, descend, ok_bind] at h
      obtain ⟨⟨pairs, stop⟩, helements, hitem⟩ := exists_of_bind_eq_ok h
      cases hitem
      have hcount := readElements_number_of_eq_ok
        (readEntry_accepts (read_accepts limit budget))
        (readEntry_rejects (read_rejects limit budget))
        (entry_covers (item_covers limit budget)) EncodesPair.continues
        EncodesPair.two_le_length helements
      exact ⟨pairs, rfl, hcount⟩

theorem read_progress (hoffset : offset ≤ data.length)
    (h : read limit budget (.within data offset) = .ok (item, cursor)) :
    offset < cursor.offset ∧ cursor.offset ≤ data.length ∧
      cursor = .within data cursor.offset := by
  obtain ⟨word, tail, hsplit, hword, rfl⟩ := (read_eq_ok_iff ..).mp h
  have hpos := hword.continues.one_le_length
  have hlength : data.length - offset = word.length + tail.length := by
    rw [← List.length_drop, hsplit, List.length_append]
  refine ⟨Nat.lt_add_of_pos_right hpos, by dsimp only; omega, ?_⟩
  rw [Cursor.within, ← List.drop_drop, hsplit, List.drop_left]

end Item

/--
Decoding is safe, ends and makes progress.  On data of less than `2 ^ 63` bytes a guarded run has
no breach, neither for one item nor for a sequence nor for an item at any position and depth, and
gives what the readers give.  An item that is read ends behind its start and in the data, and a
definite container holds as many elements as it announces, with a byte for each (two for an
entry) behind its head.
-/
theorem guarded_runs_agree (data : Bytes) (hdata : data.length < 2 ^ 63) (options : Options) :
    Guarded.decodeWith options data = (decodeWith options data).mapError .inr ∧
    Guarded.decodeAllWith options data = (decodeAllWith options data).mapError .inr ∧
    ∀ budget depth offset, depth + budget = options.maxDepth.toNat → offset ≤ data.length →
      Guarded.value data options.maxDepth.toNat (budget + 1) depth offset =
          ((Item.read options.maxDepth.toNat budget (.within data offset)).map
            fun (item, cursor) => (item, cursor.offset)).mapError .inr ∧
        ∀ item cursor,
          Item.read options.maxDepth.toNat budget (.within data offset) = .ok (item, cursor) →
          (offset < cursor.offset ∧ cursor.offset ≤ data.length ∧
            cursor = .within data cursor.offset) ∧
          (∀ head count rest, data.drop offset = head ++ rest →
            Head.Spells .array head (.number count) →
            ∃ items, item = .array items ∧ items.length = count.toNat ∧
              count.toNat ≤ rest.length) ∧
          ∀ head count rest, data.drop offset = head ++ rest →
            Head.Spells .map head (.number count) →
            ∃ pairs, item = .map (Entries.ofPairs pairs) ∧ pairs.length = count.toNat ∧
              2 * count.toNat ≤ rest.length := by
  refine ⟨Guarded.decodeWith_eq hdata options, Guarded.decodeAllWith_eq hdata options, ?_⟩
  intro budget depth offset hdepth hoffset
  have htracks := Guarded.value_tracks hdata options.maxDepth.toNat_lt hdepth
  refine ⟨(htracks offset hoffset).eq_mapError, fun item cursor hread => ?_⟩
  refine ⟨Item.read_progress hoffset hread, ?_, ?_⟩
  · intro head count rest hsplit hhead
    rw [Cursor.within, hsplit] at hread
    exact Item.read_array_of_eq_ok hhead hread
  · intro head count rest hsplit hhead
    rw [Cursor.within, hsplit] at hread
    exact Item.read_map_of_eq_ok hhead hread

/-- A map in an array, which is the first of two items; four bytes are left for the one element
that the array announces. -/
theorem guarded_runs_agree_array_of_map :
    Guarded.decodeAllWith {} [0x81, 0xA1, 0x60, 0x00, 0x05] =
        .ok [.array [.map [([], .unsigned 0)]], .unsigned 5] ∧
      ∃ items, Item.array [.map [([], .unsigned 0)]] = .array items ∧
        items.length = (1 : UInt64).toNat ∧
        (1 : UInt64).toNat ≤ ([0xA1, 0x60, 0x00, 0x05] : Bytes).length := by
  obtain ⟨-, hall, hvalue⟩ := guarded_runs_agree [0x81, 0xA1, 0x60, 0x00, 0x05] (by decide) {}
  constructor
  · rw [hall]
    decide
  · obtain ⟨-, hread⟩ := hvalue 128 0 0 rfl (Nat.zero_le _)
    have harray := (hread _ ⟨4, [0x05]⟩ rfl).2.1 [0x81] 1 [0xA1, 0x60, 0x00, 0x05] rfl
    exact harray (.mk (@Argument.Spells.small 1 (by decide)))

end Cbor

import Cbor.Proofs.Nesting
import Cbor.Proofs.Progress

/-!
# Items at a position and a depth

An item inside of the data, below some levels of others, is read as if the data began with it
and the limit were what those levels leave of it.  Only the refusal of a further level tells the
two apart, for it names the limit.
-/

namespace Cbor

def Options.below (options : Options) (depth : UInt64) : Options :=
  { maxDepth := options.maxDepth - depth }

theorem Options.maxDepth_below {options : Options} {depth : UInt64}
    (hdepth : depth ≤ options.maxDepth) :
    (options.below depth).maxDepth.toNat = options.maxDepth.toNat - depth.toNat :=
  UInt64.toNat_sub_of_le _ _ hdepth

/-! ## The limit that an error names -/

namespace DecodeError

/-- The error with the limit that a refusal names replaced by another one. -/
def relimit (limit limit' : Nat) (error : DecodeError) : DecodeError :=
  if error = .depthExceeded limit then .depthExceeded limit' else error

variable {limit limit' : Nat}

theorem relimit_depthExceeded :
    relimit limit limit' (.depthExceeded limit) = .depthExceeded limit' := if_pos rfl

theorem relimit_of_ne {error : DecodeError} (h : error ≠ .depthExceeded limit) :
    relimit limit limit' error = error := if_neg h

end DecodeError

section

variable {limit limit' budget : Nat} {input : Bytes}

theorem ItemFault.relimit (h : ItemFault limit budget input (.depthExceeded limit)) :
    ItemFault limit' budget input (.depthExceeded limit') := by
  obtain ⟨hbudget, head, rest, rfl, hhead⟩ := h.of_depthExceeded
  exact .depth hbudget hhead

theorem ImmediateFault.relimit {slot : Slot}
    (h : ImmediateFault limit budget slot input (.depthExceeded limit)) :
    ImmediateFault limit' budget slot input (.depthExceeded limit') := by
  cases slot with
  | item closable =>
      cases h with
      | element hitem => exact .element hitem.relimit
      | closable hinput hitem => exact .closable hinput hitem.relimit
  | key closable =>
      cases h with
      | element hkey | closable _ hkey => exact absurd hkey KeyFault.ne_depthExceeded
  | chunk string =>
      cases h with
      | closable _ hchunk => cases hchunk

theorem FirstFault.relimit {slot : Slot} {error : DecodeError}
    (h : FirstFault limit budget slot input error) :
    FirstFault limit' budget slot input (error.relimit limit limit') := by
  by_cases herror : error = .depthExceeded limit
  · subst herror
    obtain ⟨hopen, hfault⟩ := h
    rw [DecodeError.relimit_depthExceeded]
    exact .mk hopen hfault.relimit
  · rw [DecodeError.relimit_of_ne herror]
    exact h.mono (Nat.le_refl _) herror

end

/-! ## Reading -/

theorem Item.read_eq_relimit (limit limit' budget : Nat) (cursor : Cursor) :
    Item.read limit' budget cursor =
      (Item.read limit budget cursor).mapError (.relimit limit limit') := by
  obtain ⟨offset, input⟩ := cursor
  cases h : Item.read limit budget ⟨offset, input⟩ with
  | ok found =>
      obtain ⟨item, cursor⟩ := found
      exact (Item.read_eq_ok_iff ..).mpr ((Item.read_eq_ok_iff ..).mp h)
  | error error => exact (Item.read_eq_error_iff ..).mpr ((Item.read_eq_error_iff ..).mp h).relimit

section

variable {options : Options} {depth : UInt64} (hdepth : depth ≤ options.maxDepth)
include hdepth

theorem Item.read_within (data : Bytes) (offset : Nat) :
    Item.read options.maxDepth.toNat (options.maxDepth.toNat - depth.toNat)
        (.within data offset) =
      ((decodeWith (options.below depth) (data.drop offset)).map fun (item, length) =>
        (item, .within data (offset + length))).mapError
          (.relimit (options.below depth).maxDepth.toNat options.maxDepth.toNat) := by
  rw [← Options.maxDepth_below hdepth,
    Item.read_eq_relimit (options.below depth).maxDepth.toNat, Cursor.within,
    Item.read_eq_decodeWith]
  simp only [List.drop_drop, Cursor.within]

theorem Guarded.value_eq {data : Bytes} {offset : Nat} (hdata : data.length < 2 ^ 63)
    (hoffset : offset ≤ data.length) :
    Guarded.value data options.maxDepth.toNat (options.maxDepth.toNat - depth.toNat + 1)
        depth.toNat offset =
      (Except.map (fun (item, length) => (item, offset + length))
        (Guarded.decodeWith (options.below depth) (data.drop offset))).mapError
          (.map id (.relimit (options.below depth).maxDepth.toNat options.maxDepth.toNat)) := by
  have hlevels : depth.toNat + (options.maxDepth.toNat - depth.toNat) = options.maxDepth.toNat :=
    Nat.add_sub_cancel' (UInt64.le_iff_toNat_le.mp hdepth)
  have hrest : (data.drop offset).length < 2 ^ 63 := by
    rw [List.length_drop]
    omega
  have htracks := Guarded.value_tracks hdata options.maxDepth.toNat_lt hlevels offset hoffset
  rw [htracks.eq_mapError, Guarded.decodeWith_eq hrest, Item.read_within hdepth]
  cases Cbor.decodeWith (options.below depth) (data.drop offset) with
  | ok found => rfl
  | error error => rfl

end

/--
Reading inside of the data, below `depth` levels of others, is decoding what is left of the data
under what is left of the limit: the same item with its end moved by the offset, or the same
error, but for the name of the limit in a refusal of a further level.  This holds for the readers
and, as far as a guarded run can address the data, for the run that counts its depth and shares
one buffer.
-/
theorem read_within_eq_decodeWith_drop {options : Options} {depth : UInt64}
    (hdepth : depth ≤ options.maxDepth) (data : Bytes) {offset : Nat}
    (hoffset : offset ≤ data.length) :
    let inner := options.below depth
    let relimit := DecodeError.relimit inner.maxDepth.toNat options.maxDepth.toNat
    inner.maxDepth.toNat = options.maxDepth.toNat - depth.toNat ∧
      Item.read options.maxDepth.toNat inner.maxDepth.toNat (.within data offset) =
        ((decodeWith inner (data.drop offset)).map fun (item, length) =>
          (item, .within data (offset + length))).mapError relimit ∧
      (data.length < 2 ^ 63 →
        Guarded.value data options.maxDepth.toNat (inner.maxDepth.toNat + 1) depth.toNat offset =
          (Except.map (fun (item, length) => (item, offset + length))
            (Guarded.decodeWith inner (data.drop offset))).mapError (.map id relimit)) := by
  intro inner relimit
  have hinner : inner.maxDepth.toNat = options.maxDepth.toNat - depth.toNat :=
    Options.maxDepth_below hdepth
  refine ⟨hinner, ?_, fun hdata => ?_⟩
  · rw [hinner]
    exact Item.read_within hdepth data offset
  · rw [hinner]
    exact Guarded.value_eq hdepth hdata hoffset

/-- Under the limit 3, an array below one level is read whole, and a tag below two levels leaves
no level for the array in it. -/
theorem read_within_eq_decodeWith_drop_tagged_array :
    let data : Bytes := [0x05, 0x82, 0xC1, 0x81, 0x80, 0x61, 0x41]
    let options : Options := { maxDepth := 3 }
    data.length < 2 ^ 63 ∧
      (1 ≤ options.maxDepth ∧ 3 ≤ data.length ∧
        decodeWith (options.below 1) (data.drop 3) = .ok (.array [.array []], 2) ∧
        Item.read 3 2 (.within data 3) = .ok (.array [.array []], .within data 5) ∧
        Guarded.value data 3 3 1 3 = .ok (.array [.array []], 5)) ∧
      (2 ≤ options.maxDepth ∧ 2 ≤ data.length ∧
        decodeWith (options.below 2) (data.drop 2) = .error (.depthExceeded 1) ∧
        Item.read 3 1 (.within data 2) = .error (.depthExceeded 3) ∧
        Guarded.value data 3 2 2 2 = .error (.inr (.depthExceeded 3))) := by
  intro data options
  have hdata : data.length < 2 ^ 63 := by decide
  have hlimit : options.maxDepth.toNat = 3 := by decide
  refine ⟨hdata, ⟨by decide, by decide, ?_⟩, ⟨by decide, by decide, ?_⟩⟩
  · have harray : decodeWith (options.below 1) (data.drop 3) = .ok (.array [.array []], 2) := by
      decide
    obtain ⟨hleft, hread, hrun⟩ :=
      read_within_eq_decodeWith_drop (show 1 ≤ options.maxDepth by decide) data
        (show 3 ≤ data.length by decide)
    rw [hleft, hlimit, Guarded.decodeWith_eq (by decide), harray] at hrun
    rw [hleft, hlimit, harray] at hread
    exact ⟨harray, hread, hrun hdata⟩
  · have hrefused : decodeWith (options.below 2) (data.drop 2) = .error (.depthExceeded 1) := by
      decide
    obtain ⟨hleft, hread, hrun⟩ :=
      read_within_eq_decodeWith_drop (show 2 ≤ options.maxDepth by decide) data
        (show 2 ≤ data.length by decide)
    rw [hleft, hlimit, Guarded.decodeWith_eq (by decide), hrefused] at hrun
    rw [hleft, hlimit, hrefused] at hread
    exact ⟨hrefused, hread, hrun hdata⟩

end Cbor

import Cbor.Proofs.JsonLexemes

/-!
# Writing trees with any blanks

The compact and the indented text of a tree are one text with different blanks between its parts.
How many containers it opens at once is the depth of the tree.
-/

namespace Cbor.Json

/-! ## Depth -/

mutual

/-- The number of containers that are open at once. -/
def depth : Json → Nat
  | .array elements => elementsDepth elements + 1
  | .object members => membersDepth members + 1
  | _ => 0

def elementsDepth : List Json → Nat
  | [] => 0
  | element :: elements => max (depth element) (elementsDepth elements)

def membersDepth : List (Text × Json) → Nat
  | [] => 0
  | (_, value) :: members => max (depth value) (membersDepth members)

end

theorem elementsDepth_le_iff {elements : List Json} {limit : Nat} :
    elementsDepth elements ≤ limit ↔ ∀ element ∈ elements, element.depth ≤ limit := by
  induction elements with
  | nil => simp [elementsDepth]
  | cons element elements ih => simp only [elementsDepth, Nat.max_le, ih, List.forall_mem_cons]

theorem membersDepth_le_iff {members : List (Text × Json)} {limit : Nat} :
    membersDepth members ≤ limit ↔ ∀ member ∈ members, member.2.depth ≤ limit := by
  induction members with
  | nil => simp [membersDepth]
  | cons member members ih => simp only [membersDepth, Nat.max_le, ih, List.forall_mem_cons]

/-- The tree is read from what is written for it: all numbers are integers of 64 bits. -/
inductive Exact : Json → Prop
  | null : Exact .null
  | bool (truth : Bool) : Exact (.bool truth)
  | integer {value : Int} : Fits value → Exact (.integer value)
  | string (text : Text) : Exact (.string text)
  | array {elements : List Json} :
      (∀ element ∈ elements, Exact element) → Exact (.array elements)
  | object {members : List (Text × Json)} :
      (∀ member ∈ members, Exact member.2) → Exact (.object members)

/-! ## Writing with any blanks -/

/-- The blanks that a writer puts before each part and the end of a container at a level, and
behind a colon. -/
structure Spacing where
  line : Nat → Text
  gap : Text
  blank_line : ∀ level, Blank (line level)
  blank_gap : Blank gap

def tail (line close : Text) (closing : Char) (parts : List Text) : Text :=
  parts.flatMap (fun part => ',' :: (line ++ part)) ++ (close ++ [closing])

namespace Spacing

def body (spacing : Spacing) (closing : Char) (level : Nat) : List Text → Text
  | [] => [closing]
  | first :: parts =>
      spacing.line (level + 1) ++
        (first ++ tail (spacing.line (level + 1)) (spacing.line level) closing parts)

mutual

def write (spacing : Spacing) : (level : Nat) → Json → Text
  | _, .null => "null".toList
  | _, .bool true => "true".toList
  | _, .bool false => "false".toList
  | _, .integer value => Text.ofInt value
  | _, .double bits => writtenDouble bits
  | _, .string text => writtenString text
  | level, .array elements =>
      '[' :: body spacing ']' level (writeElements spacing (level + 1) elements)
  | level, .object members =>
      '{' :: body spacing '}' level (writeMembers spacing (level + 1) members)

def writeElements (spacing : Spacing) : (level : Nat) → List Json → List Text
  | _, [] => []
  | level, element :: elements =>
      write spacing level element :: writeElements spacing level elements

def writeMembers (spacing : Spacing) : (level : Nat) → List (Text × Json) → List Text
  | _, [] => []
  | level, (name, value) :: members =>
      (writtenString name ++ ':' :: (spacing.gap ++ write spacing level value)) ::
        writeMembers spacing level members

end

variable (spacing : Spacing) (level : Nat)

theorem writeElements_eq_map (elements : List Json) :
    spacing.writeElements level elements = elements.map (spacing.write level) := by
  induction elements with
  | nil => rfl
  | cons element elements ih => exact congrArg (List.cons _) ih

theorem writeMembers_eq_map (members : List (Text × Json)) :
    spacing.writeMembers level members = members.map fun member =>
      writtenString member.1 ++ ':' :: (spacing.gap ++ spacing.write level member.2) := by
  induction members with
  | nil => rfl
  | cons member members ih => exact congrArg (List.cons _) ih

theorem write_array (elements : List Json) :
    spacing.write level (.array elements) =
      '[' :: spacing.body ']' level (spacing.writeElements (level + 1) elements) := rfl

theorem write_object (members : List (Text × Json)) :
    spacing.write level (.object members) =
      '{' :: spacing.body '}' level (spacing.writeMembers (level + 1) members) := rfl

def tight : Spacing where
  line := fun _ => []
  gap := []
  blank_line := by simp [Blank]
  blank_gap := by simp [Blank]

def lines : Spacing where
  line := lineStart
  gap := [' ']
  blank_line := by
    intro level c hc
    simp only [lineStart, List.mem_cons, List.mem_replicate] at hc
    rcases hc with rfl | ⟨-, rfl⟩ <;> decide
  blank_gap := by simp [Blank, blanks]

theorem tight_body (opening closing : Char) (level : Nat) (parts : List Text) :
    opening :: tight.body closing level parts =
      opening :: Text.join [','] parts ++ [closing] := by
  cases parts <;> simp [body, tail, tight, Text.join]

theorem lines_body (opening closing : Char) (level : Nat) (parts : List Text) :
    opening :: lines.body closing level parts = block opening closing level parts := by
  cases parts <;> simp [body, tail, lines, block, Text.join]

end Spacing

mutual

theorem compact_eq_write (level : Nat) : ∀ json, compact json = Spacing.tight.write level json
  | .null | .bool true | .bool false | .integer _ | .double _ | .string _ => rfl
  | .array elements => by
      have helements := compactElements_eq_write (level + 1) elements
      rw [Spacing.write_array, Spacing.tight_body, ← helements]
      rfl
  | .object members => by
      have hmembers := compactMembers_eq_write (level + 1) members
      rw [Spacing.write_object, Spacing.tight_body, ← hmembers]
      rfl

theorem compactElements_eq_write (level : Nat) :
    ∀ elements, compactElements elements = Spacing.tight.writeElements level elements
  | [] => rfl
  | element :: elements =>
      congrArg₂ List.cons (compact_eq_write level element) (compactElements_eq_write level elements)

theorem compactMembers_eq_write (level : Nat) :
    ∀ members, compactMembers members = Spacing.tight.writeMembers level members
  | [] => rfl
  | (name, value) :: members =>
      congrArg₂ (fun written => List.cons (writtenString name ++ ':' :: written))
        (compact_eq_write level value) (compactMembers_eq_write level members)

end

mutual

theorem prettyAt_eq_write (level : Nat) :
    ∀ json, prettyAt level json = Spacing.lines.write level json
  | .null | .bool true | .bool false | .integer _ | .double _ | .string _ => rfl
  | .array elements => by
      have helements := prettyElements_eq_write (level + 1) elements
      rw [Spacing.write_array, Spacing.lines_body, ← helements]
      rfl
  | .object members => by
      have hmembers := prettyMembers_eq_write (level + 1) members
      rw [Spacing.write_object, Spacing.lines_body, ← hmembers]
      rfl

theorem prettyElements_eq_write (level : Nat) :
    ∀ elements, prettyElements level elements = Spacing.lines.writeElements level elements
  | [] => rfl
  | element :: elements =>
      congrArg₂ List.cons (prettyAt_eq_write level element) (prettyElements_eq_write level elements)

theorem prettyMembers_eq_write (level : Nat) :
    ∀ members, prettyMembers level members = Spacing.lines.writeMembers level members
  | [] => rfl
  | (name, value) :: members =>
      congrArg₂ (fun written => List.cons (writtenString name ++ ':' :: ' ' :: written))
        (prettyAt_eq_write level value) (prettyMembers_eq_write level members)

end

theorem begins_write (spacing : Spacing) (level : Nat) {json : Json} (h : json.Exact) :
    Begins (spacing.write level json) := by
  cases h with
  | null => exact ⟨_, _, rfl, by decide⟩
  | bool truth => cases truth <;> exact ⟨_, _, rfl, by decide⟩
  | string | array | object => exact ⟨_, _, rfl, by decide⟩
  | @integer value =>
      obtain ⟨c, more, hvalue, hc⟩ := begins_ofInt value
      refine ⟨c, more, hvalue, fun hmem => ?_⟩
      have hdigit := (not_digit_of_mem_delimiters hmem).1
      rcases hc with rfl | hc
      · contradiction
      · simp [hc] at hdigit

end Cbor.Json

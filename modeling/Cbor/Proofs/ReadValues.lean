import Cbor.Json.Shape
import Cbor.Proofs.JsonWriting
import Mathlib.Data.List.Forall2

/-!
# Values that are read from JSON

What holds of all values that a reader gives.  A property of the elements, of the members or of the
state that the fields of a structure are read into passes through the loops that read them.  So a
tree is no deeper than its reader allows.
-/

namespace Cbor.Json

variable {α β γ : Type}

/-- The value that is read, if there is one, has the property. -/
def Gives (P : α → Prop) : Except JsonFault (α × Text) → Prop
  | .ok (x, _) => P x
  | .error _ => True

variable {P : α → Prop} {Q : β → Prop} {I : γ → Prop}

theorem Gives.bind {result : Except JsonFault (α × Text)}
    {next : α × Text → Except JsonFault (β × Text)} (h : Gives P result)
    (hnext : ∀ x text, P x → Gives Q (next (x, text))) : Gives Q (result >>= next) := by
  cases result with
  | error fault => trivial
  | ok found => exact hnext _ _ h

/-- Of a step that the value does not come from nothing has to be known. -/
theorem gives_bind (result : Except JsonFault γ) {next : γ → Except JsonFault (β × Text)}
    (hnext : ∀ x, Gives Q (next x)) : Gives Q (result >>= next) := by
  cases result with
  | error fault => trivial
  | ok x => exact hnext x

theorem gives_readOther (text : Text) : Gives P (readOther text) := by
  unfold readOther
  split
  · exact gives_bind _ fun _ => trivial
  · exact gives_bind _ fun _ => trivial
  · exact gives_bind _ fun _ => trivial
  · exact gives_bind _ fun _ => trivial
  · trivial
  · trivial
  · split
    · exact gives_bind _ fun _ => trivial
    · trivial
  · trivial

theorem gives_whole {reader : Reader α} (h : ∀ text, Gives P (reader text)) {text : Text} {x : α}
    (hread : whole reader text = .ok x) : P x := by
  obtain ⟨⟨found, rest⟩, hfound, hwhole⟩ := exists_of_bind_eq_ok hread
  have hgives := h text
  rw [hfound] at hgives
  dsimp only at hwhole
  by_cases hblank : (afterBlanks rest).isEmpty
  · rw [if_pos hblank] at hwhole
    cases hwhole
    exact hgives
  · rw [if_neg hblank] at hwhole
    contradiction

/-! ## Arrays and objects -/

theorem gives_readElements_loop {element : Reader α} (helement : ∀ text, Gives P (element text))
    (rounds : Text) (first : Bool) {found : List α} (hfound : ∀ x ∈ found, P x) (text : Text) :
    Gives (fun xs => ∀ x ∈ xs, P x) (readElements.loop element rounds first found text) := by
  induction rounds generalizing first found text with
  | nil => trivial
  | cons round rounds ih =>
      rw [readElements.loop]
      refine gives_bind _ fun next => ?_
      cases next with
      | none =>
          refine gives_bind _ fun _ => ?_
          exact fun x hx => hfound x (List.mem_reverse.mp hx)
      | some text =>
          exact (helement text).bind fun x text hx =>
            ih false (List.forall_mem_cons.mpr ⟨hx, hfound⟩) text

theorem gives_readElements {element : Reader α} (helement : ∀ text, Gives P (element text))
    (text : Text) : Gives (fun xs => ∀ x ∈ xs, P x) (readElements element text) :=
  gives_readElements_loop helement text true (by simp) text

theorem gives_foldMembers_loop {member : γ → Text → Reader γ}
    (hmember : ∀ state name text, I state → Gives I (member state name text)) (rounds : Text)
    (first : Bool) {state : γ} (hstate : I state) (text : Text) :
    Gives I (foldMembers.loop member rounds first state text) := by
  induction rounds generalizing first state text with
  | nil => trivial
  | cons round rounds ih =>
      rw [foldMembers.loop]
      refine gives_bind _ fun next => ?_
      obtain ⟨_ | name, text⟩ := next
      · exact hstate
      · exact (hmember state name text hstate).bind fun state text hstate => ih false hstate text

theorem gives_foldMembers {member : γ → Text → Reader γ}
    (hmember : ∀ state name text, I state → Gives I (member state name text)) {start : γ}
    (hstart : I start) (text : Text) : Gives I (foldMembers member start text) :=
  gives_foldMembers_loop hmember text true hstart text

theorem gives_readMembers {value : Reader α} (hvalue : ∀ text, Gives P (value text))
    (text : Text) : Gives (fun pairs => ∀ pair ∈ pairs, P pair.2) (readMembers value text) := by
  rw [readMembers]
  refine (gives_foldMembers (I := fun pairs => ∀ pair ∈ pairs, P pair.2) ?_ (by simp)
    text).bind fun found text hfound => ?_
  · intro found name text hfound
    refine gives_bind _ fun _ => (hvalue _).bind fun x text hx => ?_
    exact List.forall_mem_cons.mpr ⟨hx, hfound⟩
  · refine gives_bind _ fun _ => ?_
    exact fun pair hpair => hfound pair (List.mem_reverse.mp hpair)

theorem gives_readArray {element : Reader α} (helement : ∀ text, Gives P (element text))
    (allowed : Bool) (text : Text) :
    Gives (fun xs => ∀ x ∈ xs, P x) (readArray allowed element text) := by
  rw [readArray]
  split
  · trivial
  · split
    · exact gives_readElements helement _
    · trivial
  · exact gives_readOther _

theorem gives_readObject {value : Reader α} (hvalue : ∀ text, Gives P (value text))
    (allowed : Bool) (text : Text) :
    Gives (fun pairs => ∀ pair ∈ pairs, P pair.2) (readObject allowed value text) := by
  rw [readObject]
  split
  · trivial
  · split
    · exact gives_readMembers hvalue _
    · trivial
  · exact gives_readOther _

/-! ## Structures -/

section

variable {fields : List (Field γ)}
  (hfields : ∀ field ∈ fields, ∀ state text, I state → Gives I (field.read state text))
include hfields

theorem gives_readField (state : γ) (name text : Text) (hstate : I state) :
    Gives I (readField fields state name text) := by
  rw [readField]
  cases hfield : fields.find? fun field => field.name == name with
  | none => exact gives_bind _ fun _ => gives_bind _ fun _ => hstate
  | some field =>
      dsimp only
      split
      · trivial
      · exact gives_bind _ fun _ => hfields field (List.mem_of_find?_eq_some hfield) _ _ hstate

theorem gives_readFieldsInOrder {state : γ} (hstate : I state) (first : Bool) (text : Text) :
    Gives I (readFieldsInOrder first fields state text) := by
  induction fields generalizing state first text with
  | nil => exact hstate
  | cons field fields ih =>
      obtain ⟨hfield, hrest⟩ := List.forall_mem_cons.mp hfields
      rw [readFieldsInOrder]
      refine gives_bind _ fun next => ?_
      cases next with
      | none => exact hstate
      | some text =>
          exact (hfield state text hstate).bind fun state text hstate => ih hrest hstate _ _

theorem gives_readStructure {start : γ} (hstart : I start) {finish : γ → Option α}
    (hfinish : ∀ state x, I state → finish state = some x → P x) (allowed : Bool) (text : Text) :
    Gives P (readStructure allowed fields start finish text) := by
  rw [readStructure]
  split
  · trivial
  · split
    · refine (gives_readFieldsInOrder hfields hstart true _).bind fun state text hstate => ?_
      cases h : finish state with
      | none => simp only [h, Gives]
      | some x =>
          simp only [h]
          exact gives_bind _ fun _ => hfinish state x hstate h
    · trivial
  · split
    · refine (gives_foldMembers (gives_readField hfields) hstart _).bind fun state text hstate => ?_
      cases h : finish state with
      | none => simp only [h, Gives]
      | some x =>
          simp only [h]
          exact gives_bind _ fun _ => hfinish state x hstate h
    · trivial
  · exact gives_readOther _

end

/-! ## Trees -/

theorem gives_readWord {value : α} (hvalue : P value) (letters text : Text) :
    Gives P (readWord value letters text) := by
  induction letters generalizing text with
  | nil => exact hvalue
  | cons letter letters ih =>
      cases text with
      | nil => trivial
      | cons c text =>
          rw [readWord]
          split
          · exact ih text
          · trivial

theorem depth_of_toJson {numeral : Numeral} {json : Json} (h : numeral.toJson = .ok json) :
    json.depth = 0 := by
  rw [Numeral.toJson] at h
  split at h
  · cases h
    rfl
  · split at h
    · cases h
      rfl
    · contradiction

theorem gives_readNumber (limit : Nat) (text : Text) :
    Gives (fun json => json.depth ≤ limit) (readNumber text) := by
  refine gives_bind _ fun found => ?_
  obtain ⟨numeral, rest⟩ := found
  cases h : numeral.toJson with
  | error fault => simp only [h, error_bind, Gives]
  | ok json =>
      simp only [h, ok_bind]
      exact (depth_of_toJson h).trans_le (Nat.zero_le limit)

theorem gives_readOne {limit : Nat} {inner : Option (Reader Json)}
    (hinner : ∀ reader ∈ inner, ∃ lower < limit,
      ∀ text, Gives (fun json => json.depth ≤ lower) (reader text)) (text : Text) :
    Gives (fun json => json.depth ≤ limit) (readOne inner text) := by
  have hscalar : ∀ json : Json, json.depth = 0 → json.depth ≤ limit :=
    fun json h => h.trans_le (Nat.zero_le limit)
  unfold readOne
  split
  · trivial
  · refine gives_readWord ?_ _ _
    exact hscalar .null rfl
  · refine gives_readWord ?_ _ _
    exact hscalar (.bool true) rfl
  · refine gives_readWord ?_ _ _
    exact hscalar (.bool false) rfl
  · exact gives_bind _ fun _ => hscalar (.string _) rfl
  · trivial
  · trivial
  · obtain ⟨lower, hlower, hreader⟩ := hinner _ rfl
    refine (gives_readElements hreader _).bind fun elements _ helements => ?_
    exact Nat.le_trans (Nat.succ_le_succ (elementsDepth_le_iff.mpr helements)) hlower
  · obtain ⟨lower, hlower, hreader⟩ := hinner _ rfl
    refine (gives_readMembers hreader _).bind fun members _ hmembers => ?_
    exact Nat.le_trans (Nat.succ_le_succ (membersDepth_le_iff.mpr hmembers)) hlower
  · split
    · exact gives_readNumber limit _
    · trivial

/-- A tree that is read opens no more containers at once than its reader may. -/
theorem gives_read (limit : Nat) (text : Text) :
    Gives (fun json => json.depth ≤ limit) (read limit text) := by
  induction limit generalizing text with
  | zero => exact gives_readOne (by simp) text
  | succ limit ih =>
      refine gives_readOne (fun reader hreader => ?_) text
      obtain rfl := Option.some.inj hreader
      exact ⟨limit, Nat.lt_succ_self limit, ih⟩

/-! ## Fields of trees -/

/-- The value of the member of that name, if there is one and no other. -/
def member? (members : List (Text × Json)) (name : Text) : Option Json :=
  match members.filter fun member => member.1 == name with
  | [(_, value)] => some value
  | _ => none

theorem fields?_object_iff {members : List (Text × Json)} {names : List Text}
    {values : List Json} :
    (object members).fields? names = some values ↔
      List.Forall₂ (fun name value => member? members name = some value) names values := by
  change names.mapM (member? members) = some values ↔ _
  induction names generalizing values with
  | nil => cases values <;> simp
  | cons name names ih =>
      cases values with
      | nil => simp [Option.bind_eq_some_iff]
      | cons value values => simp [Option.bind_eq_some_iff, List.forall₂_cons, ih]

theorem toText?_eq_some_iff {json : Json} {text : Text} :
    json.toText? = some text ↔ json = .string text := by
  cases json <;> simp [toText?]

theorem mem_of_member? {members : List (Text × Json)} {name : Text} {value : Json}
    (h : member? members name = some value) : ∃ member ∈ members, member.2 = value := by
  rw [member?] at h
  split at h
  · next found other hfilter =>
      cases h
      have hmem : (found, value) ∈ members.filter fun member => member.1 == name := by
        rw [hfilter]
        exact List.mem_singleton_self _
      exact ⟨_, List.mem_of_mem_filter hmem, rfl⟩
  · contradiction

theorem depth_lt_of_fields? {json : Json} {names : List Text} {values : List Json}
    (h : json.fields? names = some values) : ∀ value ∈ values, value.depth < json.depth := by
  cases json with
  | object members =>
      have hdepth := membersDepth_le_iff.mp (Nat.le_refl (membersDepth members))
      rw [fields?_object_iff] at h
      induction h with
      | nil => simp
      | cons hvalue _ ih =>
          obtain ⟨member, hmember, rfl⟩ := mem_of_member? hvalue
          exact List.forall_mem_cons.mpr ⟨Nat.lt_succ_of_le (hdepth member hmember), ih⟩
  | array elements =>
      have hdepth := elementsDepth_le_iff.mp (Nat.le_refl (elementsDepth elements))
      rw [fields?] at h
      split at h
      · cases h
        exact fun value hvalue => Nat.lt_succ_of_le (hdepth value hvalue)
      · contradiction
  | _ => contradiction

end Cbor.Json

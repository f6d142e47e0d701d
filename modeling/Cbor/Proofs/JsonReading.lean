import Cbor.Proofs.JsonWriting

/-!
# Written trees

A tree that is written, with whatever blanks between its parts, is read back if it opens no more
containers at once than are allowed, and refused as malformed if it opens more.
-/

namespace Cbor.Json

variable {α β : Type}

/-! ## Readers of what is written -/

/--
The reader takes a text as an `α`, whatever follows that ends a value, if it is allowed, and
refuses it otherwise.
-/
structure Takes (reader : Reader α) (text : Text) (x : α) (allowed : Prop) : Prop where
  accepts : allowed → ∀ rest, Delimited rest → reader (text ++ rest) = .ok (x, rest)
  refuses : ¬allowed → ∀ rest, Delimited rest → reader (text ++ rest) = .error .malformed

namespace Takes

variable {reader : Reader α} {text : Text} {x : α} {allowed : Prop}

theorem congr {allowed' : Prop} (h : Takes reader text x allowed) (hiff : allowed ↔ allowed') :
    Takes reader text x allowed' :=
  propext hiff ▸ h

theorem of_accepts (h : ∀ rest, Delimited rest → reader (text ++ rest) = .ok (x, rest)) :
    Takes reader text x True :=
  ⟨fun _ => h, fun hfalse => absurd trivial hfalse⟩

theorem of_eq {reader' : Reader α} {text' : Text} (h : Takes reader' text' x allowed)
    (heq : ∀ rest, reader (text ++ rest) = reader' (text' ++ rest)) :
    Takes reader text x allowed where
  accepts := fun hallowed rest hrest => (heq rest).trans (h.accepts hallowed rest hrest)
  refuses := fun hallowed rest hrest => (heq rest).trans (h.refuses hallowed rest hrest)

theorem map (f : α → β) (h : Takes reader text x allowed) :
    Takes (fun input => do
      let (x, input) ← reader input
      .ok (f x, input)) text (f x) allowed := by
  constructor
  · intro hallowed rest hrest
    rw [h.accepts hallowed rest hrest, ok_bind]
  · intro hallowed rest hrest
    rw [h.refuses hallowed rest hrest, error_bind]

/-- A loop that has enough rounds for what it reads. -/
theorem of_rounds {f : Text → Reader α} {count : Nat}
    (h : ∀ rounds : Text, count < rounds.length → Takes (f rounds) text x allowed)
    (hlength : ∀ rest, count < (text ++ rest).length) :
    Takes (fun input => f input input) text x allowed where
  accepts := fun hallowed rest hrest => (h _ (hlength rest)).accepts hallowed rest hrest
  refuses := fun hallowed rest hrest => (h _ (hlength rest)).refuses hallowed rest hrest

theorem bind {f : α → Reader β} {text' : Text} {y : β} {allowed' : Prop}
    (h : Takes reader text x allowed) (hdelimited : ∀ rest, Delimited (text' ++ rest))
    (hnext : Takes (f x) text' y allowed') :
    Takes (fun input => do
      let (x, input) ← reader input
      f x input) (text ++ text') y (allowed ∧ allowed') := by
  constructor
  · rintro ⟨hallowed, hallowed'⟩ rest hrest
    rw [List.append_assoc, h.accepts hallowed _ (hdelimited rest), ok_bind]
    exact hnext.accepts hallowed' rest hrest
  · intro hrefused rest hrest
    by_cases hallowed : allowed
    · rw [List.append_assoc, h.accepts hallowed _ (hdelimited rest), ok_bind]
      exact hnext.refuses (fun hallowed' => hrefused ⟨hallowed, hallowed'⟩) rest hrest
    · rw [List.append_assoc, h.refuses hallowed _ (hdelimited rest), error_bind]

end Takes

/-! ## Steps through containers -/

section

variable {blank : Text} (hblank : Blank blank)
include hblank

theorem nextElement?_close (first : Bool) (rest : Text) :
    nextElement? first (blank ++ ']' :: rest) = .ok none := by
  rw [nextElement?, afterBlanks_append hblank, afterBlanks_cons (by decide)]
  rfl

theorem endArray_close (rest : Text) : endArray (blank ++ ']' :: rest) = .ok ((), rest) := by
  rw [endArray, afterBlanks_append hblank, afterBlanks_cons (by decide)]
  rfl

theorem nextElement?_first {text : Text} (htext : Begins text) (rest : Text) :
    nextElement? true (blank ++ (text ++ rest)) = .ok (some (text ++ rest)) := by
  rw [nextElement?, afterBlanks_append hblank, htext.afterBlanks_append]
  obtain ⟨c, more, rfl, hc⟩ := htext
  have hclosing : c ≠ ']' := fun heq => hc (heq ▸ by decide)
  split
  · contradiction
  · next h => exact absurd (List.cons.inj h).1 hclosing
  · next h =>
      cases h
      rfl

theorem nextElement?_comma {text : Text} (htext : Begins text) (rest : Text) :
    nextElement? false (',' :: (blank ++ (text ++ rest))) = .ok (some (text ++ rest)) := by
  rw [nextElement?, afterBlanks_cons (by decide)]
  split
  · contradiction
  · next h => exact absurd (List.cons.inj h).1 (by decide)
  · next h =>
      cases h
      rw [if_neg (by decide), if_pos rfl, afterBlanks_append hblank, htext.afterBlanks_append]
      obtain ⟨c, more, rfl, hc⟩ := htext
      have hclosing : c ≠ ']' := fun heq => hc (heq ▸ by decide)
      split
      · contradiction
      · next h => exact absurd (List.cons.inj h).1 hclosing
      · rfl

theorem nextName?_close (first : Bool) (rest : Text) :
    nextName? first (blank ++ '}' :: rest) = .ok (none, '}' :: rest) := by
  rw [nextName?, afterBlanks_append hblank, afterBlanks_cons (by decide)]
  rfl

theorem nextName?_name (name rest : Text) :
    nextName?.name (afterBlanks (blank ++ (writtenString name ++ rest))) =
      .ok (some name, rest) := by
  have hquote := afterBlanks_cons (show '"' ∉ blanks by decide)
  rw [afterBlanks_append hblank]
  simp [writtenString, Text.quoted, hquote, nextName?.name, readString_written]

theorem nextName?_first (name rest : Text) :
    nextName? true (blank ++ (writtenString name ++ rest)) = .ok (some name, rest) := by
  have hname := nextName?_name hblank name rest
  rw [nextName?]
  split
  · next h =>
      rw [h] at hname
      contradiction
  · next h =>
      rw [h] at hname
      contradiction
  · next h =>
      rw [h] at hname
      rw [if_pos rfl, hname]

theorem nextName?_comma (name rest : Text) :
    nextName? false (',' :: (blank ++ (writtenString name ++ rest))) = .ok (some name, rest) := by
  have hname := nextName?_name hblank name rest
  rw [nextName?, afterBlanks_cons (by decide)]
  split
  · contradiction
  · next h => exact absurd (List.cons.inj h).1 (by decide)
  · next h =>
      cases h
      rw [if_neg (by decide), if_pos rfl]
      split
      · next h =>
          rw [h] at hname
          contradiction
      · exact hname

end

/-! ## Parts of a container -/

theorem tail_cons_append (line close : Text) (closing : Char) (part : Text) (parts : List Text)
    (rest : Text) :
    tail line close closing (part :: parts) ++ rest =
      ',' :: (line ++ (part ++ (tail line close closing parts ++ rest))) := by
  simp [tail]

theorem delimited_tail (line : Text) {close : Text} (hclose : Blank close) {closing : Char}
    (hclosing : closing ∈ delimiters) (parts : List Text) (rest : Text) :
    Delimited (tail line close closing parts ++ rest) := by
  cases parts with
  | nil =>
      rw [tail, List.flatMap_nil, List.nil_append, List.append_assoc]
      exact hclose.delimited (delimited_cons hclosing _)
  | cons part parts => exact delimited_cons (by decide) _

theorem length_lt_length_tail (line close : Text) (closing : Char) (parts : List Text) :
    parts.length < (tail line close closing parts).length := by
  induction parts with
  | nil => simp [tail]
  | cons part parts ih =>
      have hcons := congrArg List.length (tail_cons_append line close closing part parts [])
      simp only [List.append_nil, List.length_cons, List.length_append] at hcons ⊢
      omega

theorem length_lt_length_body (spacing : Spacing) (closing : Char) (level : Nat)
    {parts : List Text} (hparts : ∀ part ∈ parts, part ≠ []) (rest : Text) :
    parts.length < (spacing.body closing level parts ++ rest).length := by
  cases parts with
  | nil => simp [Spacing.body]
  | cons part parts =>
      have hpart := List.length_pos_iff.mpr (hparts part (List.mem_cons_self ..))
      have htail := length_lt_length_tail (spacing.line (level + 1)) (spacing.line level) closing
        parts
      simp only [Spacing.body, List.length_append, List.length_cons]
      omega

/-! ## Arrays -/

section

variable {element : Reader α} {text : β → Text} {value : β → α} {allowed : β → Prop}

theorem readElements_loop_takes {line close : Text} (hline : Blank line) (hclose : Blank close)
    (xs : List β) (hbegins : ∀ x ∈ xs, Begins (text x))
    (htakes : ∀ x ∈ xs, Takes element (text x) (value x) (allowed x)) {rounds : Text}
    (hrounds : xs.length < rounds.length) (found : List α) :
    Takes (readElements.loop element rounds false found) (tail line close ']' (xs.map text))
      (found.reverse ++ xs.map value) (∀ x ∈ xs, allowed x) := by
  induction xs generalizing rounds found with
  | nil =>
      cases rounds with
      | nil => contradiction
      | cons round rounds =>
          refine (Takes.of_accepts fun rest _ => ?_).congr (by simp)
          have hend := nextElement?_close hclose false rest
          simp [tail, readElements.loop, hend, endArray_close hclose]
  | cons x xs ih =>
      cases rounds with
      | nil => contradiction
      | cons round rounds =>
          rw [List.forall_mem_cons] at hbegins htakes
          have htail := ih hbegins.2 htakes.2 (Nat.lt_of_succ_lt_succ hrounds) (value x :: found)
          have hstep := htakes.1.bind
            (f := fun y => readElements.loop element rounds false (y :: found))
            (delimited_tail line hclose (by decide) _) htail
          rw [List.reverse_cons, List.append_assoc] at hstep
          refine (hstep.of_eq fun rest => ?_).congr List.forall_mem_cons.symm
          have hnext := nextElement?_comma hline hbegins.1
            (tail line close ']' (xs.map text) ++ rest)
          rw [readElements.loop, List.map_cons, tail_cons_append, hnext, List.append_assoc]
          rfl

theorem readElements_loop_first_takes (spacing : Spacing) (level : Nat) (x : β) (xs : List β)
    (hbegins : ∀ y ∈ x :: xs, Begins (text y))
    (htakes : ∀ y ∈ x :: xs, Takes element (text y) (value y) (allowed y)) (rounds : Text)
    (hrounds : (x :: xs).length < rounds.length) :
    Takes (readElements.loop element rounds true [])
      (spacing.body ']' level ((x :: xs).map text)) ((x :: xs).map value)
      (∀ y ∈ x :: xs, allowed y) := by
  have hline := spacing.blank_line (level + 1)
  have hclose := spacing.blank_line level
  rw [List.forall_mem_cons] at hbegins htakes
  cases rounds with
  | nil => contradiction
  | cons round rounds =>
      have htail := readElements_loop_takes hline hclose xs hbegins.2 htakes.2
        (Nat.lt_of_succ_lt_succ hrounds) [value x]
      have hstep := htakes.1.bind (f := fun y => readElements.loop element rounds false [y])
        (delimited_tail _ hclose (by decide) _) htail
      refine (hstep.of_eq fun rest => ?_).congr List.forall_mem_cons.symm
      have hnext := nextElement?_first hline hbegins.1
        (tail (spacing.line (level + 1)) (spacing.line level) ']' (xs.map text) ++ rest)
      rw [readElements.loop, List.map_cons, Spacing.body]
      simp only [List.append_assoc, hnext]
      rfl

theorem readElements_takes (spacing : Spacing) (level : Nat) (xs : List β)
    (hbegins : ∀ x ∈ xs, Begins (text x))
    (htakes : ∀ x ∈ xs, Takes element (text x) (value x) (allowed x)) :
    Takes (readElements element) (spacing.body ']' level (xs.map text)) (xs.map value)
      (∀ x ∈ xs, allowed x) := by
  cases xs with
  | nil =>
      refine (Takes.of_accepts fun rest _ => ?_).congr (by simp)
      rfl
  | cons x xs =>
      have hloop := readElements_loop_first_takes spacing level x xs hbegins htakes
      have hparts : ∀ part ∈ (x :: xs).map text, part ≠ [] := by
        rw [List.forall_mem_map]
        exact fun y hy => (hbegins y hy).ne_nil
      have hlength := length_lt_length_body spacing ']' level hparts
      rw [List.length_map] at hlength
      exact Takes.of_rounds (f := fun rounds => readElements.loop element rounds true []) hloop
        hlength

end

/-! ## Objects -/

section

variable {σ : Type} {member : σ → Text → Reader σ} {name text : β → Text} {step : σ → β → σ}
  {allowed : β → Prop}

def closed (reader : Reader σ) : Reader σ := fun input => do
  let (state, input) ← reader input
  let (_, input) ← endObject input
  .ok (state, input)

theorem foldMembers_loop_step {rounds input input' : Text} {first : Bool} {round : Char}
    {label : Text} (state : σ) (hname : nextName? first input = .ok (some label, input')) :
    closed (foldMembers.loop member (round :: rounds) first state) input = (do
      let (state, input) ← member state label input'
      closed (foldMembers.loop member rounds false state) input) := by
  simp only [closed, foldMembers.loop, hname, ok_bind, bind_assoc]

theorem foldMembers_loop_takes {line close : Text} (hline : Blank line) (hclose : Blank close)
    (xs : List β)
    (htakes : ∀ x ∈ xs, ∀ state,
      Takes (member state (name x)) (text x) (step state x) (allowed x))
    {rounds : Text} (hrounds : xs.length < rounds.length) (state : σ) :
    Takes (closed (foldMembers.loop member rounds false state))
      (tail line close '}' (xs.map fun x => writtenString (name x) ++ text x))
      (xs.foldl step state) (∀ x ∈ xs, allowed x) := by
  induction xs generalizing rounds state with
  | nil =>
      cases rounds with
      | nil => contradiction
      | cons round rounds =>
          refine (Takes.of_accepts fun rest _ => ?_).congr (by simp)
          have hend := nextName?_close hclose false rest
          have hbrace : endObject ('}' :: rest) = .ok ((), rest) := rfl
          simp [tail, closed, foldMembers.loop, hend, hbrace]
  | cons x xs ih =>
      cases rounds with
      | nil => contradiction
      | cons round rounds =>
          rw [List.forall_mem_cons] at htakes
          have htail := ih htakes.2 (Nat.lt_of_succ_lt_succ hrounds) (step state x)
          have hstep := (htakes.1 state).bind
            (f := fun state => closed (foldMembers.loop member rounds false state))
            (delimited_tail line hclose (by decide) _) htail
          refine (hstep.of_eq fun rest => ?_).congr List.forall_mem_cons.symm
          have hname := nextName?_comma hline (name x) (text x ++
            (tail line close '}' (xs.map fun x => writtenString (name x) ++ text x) ++ rest))
          rw [← List.append_assoc (writtenString (name x)), ← tail_cons_append] at hname
          rw [List.map_cons, foldMembers_loop_step state hname, List.append_assoc]

theorem foldMembers_loop_first_takes (spacing : Spacing) (level : Nat) (x : β) (xs : List β)
    (htakes : ∀ y ∈ x :: xs, ∀ state,
      Takes (member state (name y)) (text y) (step state y) (allowed y))
    (start : σ) (rounds : Text) (hrounds : (x :: xs).length < rounds.length) :
    Takes (closed (foldMembers.loop member rounds true start))
      (spacing.body '}' level ((x :: xs).map fun x => writtenString (name x) ++ text x))
      ((x :: xs).foldl step start) (∀ y ∈ x :: xs, allowed y) := by
  have hline := spacing.blank_line (level + 1)
  have hclose := spacing.blank_line level
  rw [List.forall_mem_cons] at htakes
  cases rounds with
  | nil => contradiction
  | cons round rounds =>
      have htail := foldMembers_loop_takes hline hclose xs htakes.2
        (Nat.lt_of_succ_lt_succ hrounds) (step start x)
      have hstep := (htakes.1 start).bind
        (f := fun state => closed (foldMembers.loop member rounds false state))
        (delimited_tail _ hclose (by decide) _) htail
      refine (hstep.of_eq fun rest => ?_).congr List.forall_mem_cons.symm
      have hname := nextName?_first hline (name x) (text x ++
        (tail (spacing.line (level + 1)) (spacing.line level) '}'
          (xs.map fun x => writtenString (name x) ++ text x) ++ rest))
      rw [List.map_cons, Spacing.body]
      simp only [List.append_assoc] at hname ⊢
      rw [foldMembers_loop_step start hname]

theorem foldMembers_takes (spacing : Spacing) (level : Nat) (xs : List β)
    (htakes : ∀ x ∈ xs, ∀ state,
      Takes (member state (name x)) (text x) (step state x) (allowed x)) (start : σ) :
    Takes (closed (foldMembers member start))
      (spacing.body '}' level (xs.map fun x => writtenString (name x) ++ text x))
      (xs.foldl step start) (∀ x ∈ xs, allowed x) := by
  cases xs with
  | nil =>
      refine (Takes.of_accepts fun rest _ => ?_).congr (by simp)
      rfl
  | cons x xs =>
      have hloop := foldMembers_loop_first_takes spacing level x xs htakes start
      have hparts : ∀ part ∈ (x :: xs).map fun x => writtenString (name x) ++ text x,
          part ≠ [] := by
        rw [List.forall_mem_map]
        exact fun y _ => List.cons_ne_nil _ _
      have hlength := length_lt_length_body spacing '}' level hparts
      rw [List.length_map] at hlength
      exact Takes.of_rounds
        (f := fun rounds => closed (foldMembers.loop member rounds true start)) hloop hlength

def readMember (reader : Reader α) (found : List (Text × α)) (name : Text) :
    Reader (List (Text × α)) := fun input => do
  let (_, input) ← readColon input
  let (x, input) ← reader input
  .ok ((name, x) :: found, input)

theorem readMembers_eq (reader : Reader α) (input : Text) :
    readMembers reader input = (do
      let (found, input) ← closed (foldMembers (readMember reader) []) input
      .ok (found.reverse, input)) := by
  simp only [closed, bind_assoc, ok_bind]
  rfl

theorem readMembers_takes {reader : Reader α} {value : β → α} (name : β → Text)
    (spacing : Spacing) (level : Nat) (xs : List β)
    (htakes : ∀ x ∈ xs, Takes reader (spacing.gap ++ text x) (value x) (allowed x)) :
    Takes (readMembers reader)
      (spacing.body '}' level
        (xs.map fun x => writtenString (name x) ++ ':' :: (spacing.gap ++ text x)))
      (xs.map fun x => (name x, value x)) (∀ x ∈ xs, allowed x) := by
  have hmember : ∀ x ∈ xs, ∀ found,
      Takes (readMember reader found (name x)) (':' :: (spacing.gap ++ text x))
        ((name x, value x) :: found) (allowed x) := by
    intro x hx found
    refine ((htakes x hx).map fun y => (name x, y) :: found).of_eq fun rest => ?_
    have hcolon : ∀ more, readColon (':' :: more) = .ok ((), more) := fun more => rfl
    simp only [readMember, List.cons_append, hcolon, ok_bind]
  have hfold := (foldMembers_takes spacing level xs hmember []).map List.reverse
  rw [List.foldl_flip_cons_eq_append, List.append_nil, List.reverse_reverse] at hfold
  exact hfold.of_eq fun rest => readMembers_eq reader _

end

/-! ## Trees -/

theorem read_blank {blank : Text} (hblank : Blank blank) (limit : Nat) (text : Text) :
    read limit (blank ++ text) = read limit text := by
  cases limit <;> simp only [read, readOne, afterBlanks_append hblank]

/-- No value that is no number begins as a number does. -/
theorem readOne_number {c : Char} (hc : c = '-' ∨ c.isDigit) (inner : Option (Reader Json))
    (text : Text) : readOne inner (c :: text) = readNumber (c :: text) := by
  have hother : ∀ d ∈ ['n', 't', 'f', '"', '[', '{'], c ≠ d := by
    rintro d hd rfl
    simp only [List.mem_cons, List.not_mem_nil, or_false] at hd
    rcases hd with rfl | rfl | rfl | rfl | rfl | rfl <;> revert hc <;> decide
  have hblank : c ∉ blanks := by
    intro hmem
    have hdelimiter := not_digit_of_mem_delimiters (List.mem_append_left _ hmem)
    rcases hc with rfl | hdigit
    · revert hmem
      decide
    · simp [hdigit] at hdelimiter
  simp only [List.forall_mem_cons] at hother
  unfold readOne
  rw [afterBlanks_cons hblank]
  -- the last case of the match is the one for all other characters
  split
  case h_10 heq _ _ _ _ =>
    cases heq
    exact if_pos hc
  all_goals simp_all

theorem readOne_takes_scalar (inner : Option (Reader Json)) (spacing : Spacing) (level : Nat)
    {json : Json} (h : json.Exact) (hdepth : json.depth = 0) :
    Takes (readOne inner) (spacing.write level json) json True := by
  apply Takes.of_accepts
  intro rest hrest
  cases h with
  | array | object => simp [depth] at hdepth
  | null => rfl
  | bool truth => cases truth <;> rfl
  | string text =>
      have hquote := afterBlanks_cons (show '"' ∉ blanks by decide)
      have hwritten : spacing.write level (.string text) = writtenString text := rfl
      simp [hwritten, writtenString, Text.quoted, readOne, hquote, readString_written]
  | @integer value hvalue =>
      obtain ⟨c, more, hwritten, hc⟩ := begins_ofInt value
      have hread := readNumber_ofInt hvalue hrest
      have hinteger : spacing.write level (.integer value) = Text.ofInt value := rfl
      rw [hwritten, List.cons_append] at hread
      rw [hinteger, hwritten, List.cons_append, readOne_number hc, hread]

theorem readOne_takes_array {inner : Reader Json} {limit : Nat} (spacing : Spacing) (level : Nat)
    {elements : List Json} (hexact : ∀ element ∈ elements, element.Exact)
    (hinner : ∀ element ∈ elements,
      Takes inner (spacing.write (level + 1) element) element (element.depth ≤ limit)) :
    Takes (readOne (some inner)) (spacing.write level (.array elements)) (.array elements)
      ((Json.array elements).depth ≤ limit + 1) := by
  have hbegins : ∀ element ∈ elements, Begins (spacing.write (level + 1) element) :=
    fun element helement => begins_write spacing (level + 1) (hexact element helement)
  have hread := (readElements_takes spacing level elements hbegins hinner).map Json.array
  rw [List.map_id'] at hread
  have hdepth : (∀ element ∈ elements, element.depth ≤ limit) ↔
      (Json.array elements).depth ≤ limit + 1 := by
    rw [← elementsDepth_le_iff, depth, Nat.add_le_add_iff_right]
  refine (hread.of_eq fun rest => ?_).congr hdepth
  rw [Spacing.write_array, Spacing.writeElements_eq_map]
  rfl

theorem readOne_takes_object {inner : Reader Json} {limit : Nat} (spacing : Spacing) (level : Nat)
    {members : List (Text × Json)}
    (hinner : ∀ member ∈ members, Takes inner (spacing.gap ++ spacing.write (level + 1) member.2)
      member.2 (member.2.depth ≤ limit)) :
    Takes (readOne (some inner)) (spacing.write level (.object members)) (.object members)
      ((Json.object members).depth ≤ limit + 1) := by
  have hread := (readMembers_takes Prod.fst spacing level members hinner).map Json.object
  rw [List.map_id'] at hread
  have hdepth : (∀ member ∈ members, member.2.depth ≤ limit) ↔
      (Json.object members).depth ≤ limit + 1 := by
    rw [← membersDepth_le_iff, depth, Nat.add_le_add_iff_right]
  refine (hread.of_eq fun rest => ?_).congr hdepth
  rw [Spacing.write_object, Spacing.writeMembers_eq_map]
  rfl

theorem read_takes_scalar (spacing : Spacing) (limit level : Nat) {json : Json} (h : json.Exact)
    (hdepth : json.depth = 0) :
    Takes (read limit) (spacing.write level json) json (json.depth ≤ limit) := by
  have hlimit : True ↔ json.depth ≤ limit := by simp [hdepth]
  cases limit with
  | zero => exact (readOne_takes_scalar none spacing level h hdepth).congr hlimit
  | succ limit =>
      exact (readOne_takes_scalar (some (read limit)) spacing level h hdepth).congr hlimit

theorem read_takes (spacing : Spacing) (limit level : Nat) {json : Json} (h : json.Exact) :
    Takes (read limit) (spacing.write level json) json (json.depth ≤ limit) := by
  -- the elements of a container are read with the limit below
  induction limit generalizing level json with
  | zero =>
      by_cases hdepth : json.depth = 0
      · exact read_takes_scalar spacing 0 level h hdepth
      · refine ⟨fun hle => absurd (Nat.le_zero.mp hle) hdepth, fun _ rest _ => ?_⟩
        cases h with
        | array | object => rfl
        | _ => exact absurd rfl hdepth
  | succ limit ih =>
      cases h with
      | array helements =>
          exact readOne_takes_array spacing level helements
            fun element helement => ih (level + 1) (helements element helement)
      | object hmembers =>
          refine readOne_takes_object spacing level fun member hmember => ?_
          refine (ih (level + 1) (hmembers member hmember)).of_eq fun rest => ?_
          rw [List.append_assoc, read_blank spacing.blank_gap]
      | null => exact read_takes_scalar spacing _ level .null rfl
      | bool truth => exact read_takes_scalar spacing _ level (.bool truth) rfl
      | integer hvalue => exact read_takes_scalar spacing _ level (.integer hvalue) rfl
      | string text => exact read_takes_scalar spacing _ level (.string text) rfl

theorem Takes.whole {reader : Reader α} {text : Text} {x : α} {allowed : Prop}
    [Decidable allowed] (h : Takes reader text x allowed) :
    Json.whole reader text = if allowed then .ok x else .error .malformed := by
  by_cases hallowed : allowed
  · have hread := h.accepts hallowed [] delimited_nil
    rw [List.append_nil] at hread
    rw [Json.whole, hread, if_pos hallowed]
    rfl
  · have hread := h.refuses hallowed [] delimited_nil
    rw [List.append_nil] at hread
    rw [Json.whole, hread, if_neg hallowed, error_bind]

end Cbor.Json

import Cbor.Proofs.Grammar
import Cbor.Wire.Item

/-!
# Readers and languages

A reader accepts a language if it takes each of its words and leaves alone what follows, and
rejects a set of faults if it fails with each of them.  A language and its faults cover all
inputs, so that nothing else is accepted or rejected.  The loops of a reader inherit all three
from the reader of one element.
-/

namespace Cbor

variable {α β : Type}

@[simp] theorem ok_bind {ε : Type} (x : α) (f : α → Except ε β) :
    ((.ok x : Except ε α) >>= f) = f x := rfl

@[simp] theorem error_bind {ε : Type} (e : ε) (f : α → Except ε β) :
    ((.error e : Except ε α) >>= f) = .error e := rfl

theorem exists_of_bind_eq_ok {ε : Type} {result : Except ε α} {f : α → Except ε β} {y : β}
    (h : result >>= f = .ok y) : ∃ x, result = .ok x ∧ f x = .ok y := by
  cases result with
  | error e => contradiction
  | ok x => exact ⟨x, rfl, h⟩

theorem mapError_eq_ok_iff {ε ε' : Type} {result : Except ε α} {f : ε → ε'} {x : α} :
    result.mapError f = .ok x ↔ result = .ok x := by
  cases result <;> simp [Except.mapError]

/-! ## Cursors -/

namespace Cursor

@[simp] theorem next?_nil (offset : Nat) : (⟨offset, []⟩ : Cursor).next? = none := rfl

@[simp] theorem next?_cons (offset : Nat) (byte : UInt8) (rest : Bytes) :
    (⟨offset, byte :: rest⟩ : Cursor).next? = some (byte, ⟨offset + 1, rest⟩) := rfl

theorem take?_append {count : Nat} {taken : Bytes} (h : taken.length = count) (offset : Nat)
    (rest : Bytes) :
    (⟨offset, taken ++ rest⟩ : Cursor).take? count = some (taken, ⟨offset + count, rest⟩) := by
  subst h
  simp [take?]

theorem take?_of_lt {count : Nat} {rest : Bytes} (h : rest.length < count) (offset : Nat) :
    (⟨offset, rest⟩ : Cursor).take? count = none := by
  have hlength : (rest.take count).length ≠ count := by
    rw [List.length_take]
    omega
  simp only [take?, List.splitAt_eq, if_neg hlength]

end Cursor

/-! ## Accepting, rejecting and covering -/

namespace Reader

def Accepts (reader : Reader α) (Word : Bytes → α → Prop) : Prop :=
  ∀ {word : Bytes} {x : α}, Word word x → ∀ offset rest,
    reader ⟨offset, word ++ rest⟩ = .ok (x, ⟨offset + word.length, rest⟩)

def Rejects (reader : Reader α) (Fault : Bytes → DecodeError → Prop) : Prop :=
  ∀ {input : Bytes} {error : DecodeError}, Fault input error → ∀ offset,
    reader ⟨offset, input⟩ = .error error

end Reader

/-- Every input begins with a word or has a fault. -/
def Covers (Word : Bytes → α → Prop) (Fault : Bytes → DecodeError → Prop) (input : Bytes) : Prop :=
  (∃ word x rest, input = word ++ rest ∧ Word word x) ∨ ∃ error, Fault input error

section

variable {reader : Reader α} {Word : Bytes → α → Prop} {Fault : Bytes → DecodeError → Prop}

theorem Reader.eq_ok_iff (haccepts : reader.Accepts Word) (hrejects : reader.Rejects Fault)
    {input : Bytes} (hcovers : Covers Word Fault input) (offset : Nat) (x : α) (cursor : Cursor) :
    reader ⟨offset, input⟩ = .ok (x, cursor) ↔
      ∃ word rest, input = word ++ rest ∧ Word word x ∧ cursor = ⟨offset + word.length, rest⟩ := by
  constructor
  · intro hread
    rcases hcovers with ⟨word, y, rest, rfl, hword⟩ | ⟨error, hfault⟩
    · rw [haccepts hword] at hread
      cases hread
      exact ⟨word, rest, rfl, hword, rfl⟩
    · rw [hrejects hfault] at hread
      contradiction
  · rintro ⟨word, rest, rfl, hword, rfl⟩
    exact haccepts hword offset rest

theorem Reader.eq_error_iff (haccepts : reader.Accepts Word) (hrejects : reader.Rejects Fault)
    {input : Bytes} (hcovers : Covers Word Fault input) (offset : Nat) (error : DecodeError) :
    reader ⟨offset, input⟩ = .error error ↔ Fault input error := by
  constructor
  · intro hread
    rcases hcovers with ⟨word, y, rest, rfl, hword⟩ | ⟨found, hfault⟩
    · rw [haccepts hword] at hread
      contradiction
    · rw [hrejects hfault] at hread
      cases hread
      exact hfault
  · exact fun hfault => hrejects hfault offset

end

/-! ## Elements -/

/-- The input goes on, and not with the break byte. -/
def Continues (input : Bytes) : Prop := ∃ byte rest, input = byte :: rest ∧ byte ≠ breakByte

theorem Continues.append {word : Bytes} (h : Continues word) (rest : Bytes) :
    Continues (word ++ rest) := by
  obtain ⟨byte, tail, rfl, hbyte⟩ := h
  exact ⟨byte, tail ++ rest, rfl, hbyte⟩

theorem Continues.one_le_length {word : Bytes} (h : Continues word) : 1 ≤ word.length := by
  obtain ⟨byte, others, rfl, -⟩ := h
  exact Nat.succ_pos _

/-- The elements that an argument asks for, with the break byte behind them if it is indefinite. -/
inductive Elements (Word : Bytes → α → Prop) : Argument → Bytes → List α → Prop
  | counted {count : UInt64} {body : Bytes} {xs : List α} :
      Row Word body xs → xs.length = count.toNat → Elements Word (.number count) body xs
  | untilBreak {body : Bytes} {xs : List α} :
      Row Word body xs → Elements Word .indefinite (body ++ [breakByte]) xs

namespace Argument

def isIndefinite : Argument → Bool
  | .number _ => false
  | .indefinite => true

def Allows : Argument → Nat → Prop
  | .number count, found => found < count.toNat
  | .indefinite, _ => True

end Argument

/-- A fault of an element, or of its place if the break byte may stand there. -/
inductive SlotFault (Fault : Bytes → DecodeError → Prop) :
    (closable : Bool) → Bytes → DecodeError → Prop
  | element {input : Bytes} {error : DecodeError} :
      Fault input error → SlotFault Fault false input error
  | ended : SlotFault Fault true [] .expectedBreak
  | closable {input : Bytes} {error : DecodeError} :
      Continues input → Fault input error → SlotFault Fault true input error

inductive ElementsFault (Word : Bytes → α → Prop) (Fault : Bytes → DecodeError → Prop) :
    Argument → Bytes → DecodeError → Prop
  | mk {argument : Argument} {body rest : Bytes} {xs : List α} {error : DecodeError} :
      Row Word body xs → argument.Allows xs.length →
      SlotFault Fault argument.isIndefinite rest error →
      ElementsFault Word Fault argument (body ++ rest) error

section

variable {element : Reader α} {Word : Bytes → α → Prop} {Fault : Bytes → DecodeError → Prop}

theorem SlotFault.of_continues {closable : Bool} {input : Bytes} {error : DecodeError}
    (hinput : Continues input) (hfault : Fault input error) :
    SlotFault Fault closable input error := by
  cases closable with
  | false => exact .element hfault
  | true => exact .closable hinput hfault

theorem ElementsFault.first {argument : Argument} {input : Bytes} {error : DecodeError}
    (hallows : argument.Allows 0) (hfault : SlotFault Fault argument.isIndefinite input error) :
    ElementsFault Word Fault argument input error := by
  simpa using ElementsFault.mk (@Row.nil _ Word) hallows hfault

theorem Reader.exactly_loop_row (haccepts : element.Accepts Word) {body : Bytes} {xs : List α}
    (hrow : Row Word body xs) (count : Nat) (found : List α) (offset : Nat) (rest : Bytes) :
    exactly.loop element (xs.length + count) found ⟨offset, body ++ rest⟩ =
      exactly.loop element count (xs.reverse ++ found) ⟨offset + body.length, rest⟩ := by
  induction hrow generalizing found offset with
  | nil => simp
  | @cons word body x xs hword hrow ih =>
      have hcount : (x :: xs).length + count = xs.length + count + 1 := by
        simp only [List.length_cons]
        omega
      rw [hcount, List.append_assoc]
      simp only [exactly.loop, haccepts hword, ok_bind, ih]
      simp [Nat.add_assoc]

theorem Reader.untilBreak_loop_row (haccepts : element.Accepts Word)
    (hcontinues : ∀ {word x}, Word word x → Continues word) {body : Bytes} {xs : List α}
    (hrow : Row Word body xs) (rounds : Bytes) (found : List α) (offset : Nat) (rest : Bytes)
    (hrounds : (body ++ rest).length ≤ rounds.length) :
    ∃ left : Bytes, rest.length ≤ left.length ∧
      untilBreak.loop element rounds found ⟨offset, body ++ rest⟩ =
        untilBreak.loop element left (xs.reverse ++ found) ⟨offset + body.length, rest⟩ := by
  -- an element takes a byte and the loop a round, so the rounds outlast the input
  induction hrow generalizing rounds found offset with
  | nil => exact ⟨rounds, by simpa using hrounds, by simp⟩
  | @cons word body x xs hword hrow ih =>
      have hread := haccepts hword offset (body ++ rest)
      obtain ⟨byte, tail, rfl, hbyte⟩ := hcontinues hword
      cases rounds with
      | nil => simp at hrounds
      | cons round rounds =>
          obtain ⟨left, hleft, hloop⟩ := ih rounds (x :: found)
            (offset + (byte :: tail).length) (by simp at hrounds ⊢; omega)
          refine ⟨left, hleft, ?_⟩
          simp only [List.append_assoc, List.cons_append] at hread ⊢
          simp only [untilBreak.loop, Cursor.next?_cons, if_neg hbyte, hread, ok_bind, hloop]
          simp [Nat.add_assoc, Nat.add_comm 1]

theorem Item.readElements_accepts (haccepts : element.Accepts Word)
    (hcontinues : ∀ {word x}, Word word x → Continues word) (argument : Argument) :
    (Item.readElements element argument).Accepts (Elements Word argument) := by
  intro input xs helements offset rest
  cases helements with
  | @counted count body xs hrow hcount =>
      have hloop := Reader.exactly_loop_row haccepts hrow 0 [] offset rest
      rw [Nat.add_zero, hcount] at hloop
      simpa [Item.readElements, Reader.exactly, Reader.exactly.loop] using hloop
  | @untilBreak body xs hrow =>
      obtain ⟨left, hleft, hloop⟩ := Reader.untilBreak_loop_row haccepts hcontinues hrow
        (body ++ breakByte :: rest) [] offset (breakByte :: rest) (Nat.le_refl _)
      cases left with
      | nil => simp at hleft
      | cons round left =>
          simp [Item.readElements, Reader.untilBreak, hloop, Reader.untilBreak.loop,
            Nat.add_assoc]

theorem Item.readElements_rejects (haccepts : element.Accepts Word)
    (hrejects : element.Rejects Fault) (hcontinues : ∀ {word x}, Word word x → Continues word)
    (argument : Argument) :
    (Item.readElements element argument).Rejects (ElementsFault Word Fault argument) := by
  intro input error helements offset
  cases helements with
  | @mk body rest xs _ hrow hallows hfault =>
      cases argument with
      | number count =>
          obtain ⟨more, hmore⟩ := Nat.exists_eq_add_of_lt hallows
          have hloop := Reader.exactly_loop_row haccepts hrow (more + 1) [] offset rest
          cases hfault with
          | element hfault =>
              rw [← Nat.add_assoc, ← hmore, Reader.exactly.loop, hrejects hfault] at hloop
              exact hloop
      | indefinite =>
          obtain ⟨left, hleft, hloop⟩ := Reader.untilBreak_loop_row haccepts hcontinues hrow
            (body ++ rest) [] offset rest (Nat.le_refl _)
          have hread : Item.readElements element .indefinite ⟨offset, body ++ rest⟩ =
              Reader.untilBreak.loop element left (xs.reverse ++ [])
                ⟨offset + body.length, rest⟩ := hloop
          rw [hread]
          cases hfault with
          | ended => cases left <;> rfl
          | closable hinput hfault =>
              have hfail := hrejects hfault (offset + body.length)
              obtain ⟨byte, tail, rfl, hbyte⟩ := hinput
              cases left with
              | nil => simp at hleft
              | cons round left => simp [Reader.untilBreak.loop, hbyte, hfail]

theorem counted_covers (hcovers : ∀ input, Covers Word Fault input) (count : Nat)
    (input : Bytes) :
    (∃ body xs rest, input = body ++ rest ∧ Row Word body xs ∧ xs.length = count) ∨
      ∃ body xs rest error, input = body ++ rest ∧ Row Word body xs ∧ xs.length < count ∧
        Fault rest error := by
  induction count generalizing input with
  | zero => exact .inl ⟨[], [], input, rfl, .nil, rfl⟩
  | succ count ih =>
      rcases hcovers input with ⟨word, x, rest, rfl, hword⟩ | ⟨error, hfault⟩
      · rcases ih rest with ⟨body, xs, rest, rfl, hrow, hcount⟩ |
          ⟨body, xs, rest, error, rfl, hrow, hcount, hfault⟩
        · exact .inl ⟨word ++ body, x :: xs, rest, by simp, .cons hword hrow, by simp [hcount]⟩
        · exact .inr ⟨word ++ body, x :: xs, rest, error, by simp, .cons hword hrow,
            by simpa using hcount, hfault⟩
      · exact .inr ⟨[], [], input, error, rfl, .nil, by simp, hfault⟩

theorem untilBreak_covers (hcovers : ∀ input, Continues input → Covers Word Fault input)
    (hcontinues : ∀ {word x}, Word word x → Continues word) (input : Bytes) :
    Covers (Elements Word .indefinite) (ElementsFault Word Fault .indefinite) input := by
  -- on the length of the input, of which every element takes at least a byte
  induction hlength : input.length using Nat.strongRecOn generalizing input with
  | ind length ih =>
      cases input with
      | nil => exact .inr ⟨.expectedBreak, .first trivial .ended⟩
      | cons byte tail =>
          by_cases hbyte : byte = breakByte
          · subst hbyte
            exact .inl ⟨[breakByte], [], tail, rfl, .untilBreak .nil⟩
          · have hinput : Continues (byte :: tail) := ⟨byte, tail, rfl, hbyte⟩
            rcases hcovers (byte :: tail) hinput with
              ⟨word, x, rest, hsplit, hword⟩ | ⟨error, hfault⟩
            · have hshorter : rest.length < length := by
                obtain ⟨first, others, rfl, -⟩ := hcontinues hword
                rw [← hlength, hsplit]
                simp only [List.length_append, List.length_cons]
                omega
              rw [hsplit]
              rcases ih rest.length hshorter rest rfl with
                ⟨body, xs, rest, rfl, helements⟩ | ⟨error, hfault⟩
              · cases helements with
                | untilBreak hrow =>
                    exact .inl ⟨_, x :: xs, rest, by simp, .untilBreak (.cons hword hrow)⟩
              · cases hfault with
                | mk hrow hallows hfault =>
                    refine .inr ⟨error, ?_⟩
                    rw [← List.append_assoc]
                    exact .mk (.cons hword hrow) trivial hfault
            · exact .inr ⟨error, .first trivial (.closable hinput hfault)⟩

theorem elements_covers (hcovers : ∀ input, Covers Word Fault input)
    (hcontinues : ∀ {word x}, Word word x → Continues word) (argument : Argument)
    (input : Bytes) :
    Covers (Elements Word argument) (ElementsFault Word Fault argument) input := by
  cases argument with
  | number count =>
      rcases counted_covers hcovers count.toNat input with
        ⟨body, xs, rest, rfl, hrow, hcount⟩ | ⟨body, xs, rest, error, rfl, hrow, hcount, hfault⟩
      · exact .inl ⟨body, xs, rest, rfl, .counted hrow hcount⟩
      · exact .inr ⟨error, .mk hrow hcount (.element hfault)⟩
  | indefinite => exact untilBreak_covers (fun input _ => hcovers input) hcontinues input

end

end Cbor

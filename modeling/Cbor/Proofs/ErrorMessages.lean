import Cbor.DecodeError
import Cbor.Proofs.JsonLexemes
import Mathlib.Logic.Function.Iterate

/-!
# Messages of decoding errors

A message tells which error it is of.  Its first words tell the kind of the error, but for the two
errors of a wrong major type, which the last words tell apart; between them stands a number, or
the message of the error in a chunk.
-/

namespace Cbor.DecodeError

/-! ## First words -/

inductive Kind where
  | argument
  | info
  | float
  | content
  | missingBreak
  | majorType
  | nestedChunk
  | missingItem
  | chunk
  | overflow
  | depth
  deriving DecidableEq

def Kind.opening : Kind → Text
  | .argument => "arg len ".toList
  | .info => "unexpected minor value ".toList
  | .float => "incomplete float".toList
  | .content => "slice len ".toList
  | .missingBreak => "expected break marker".toList
  | .majorType => "unexpected major type ".toList
  | .nestedChunk => "nested indefinite slice".toList
  | .missingItem => "unexpected end of payload".toList
  | .chunk => "decode subslice: ".toList
  | .overflow => "negative integer magnitude exceeds 64 bits".toList
  | .depth => "maximum nesting depth ".toList

def kind : DecodeError → Kind
  | .argumentTooShort _ => .argument
  | .invalidInfo _ => .info
  | .incompleteFloat _ => .float
  | .contentTooShort _ => .content
  | .expectedBreak => .missingBreak
  | .unexpectedChunkType _ | .unexpectedKeyType _ => .majorType
  | .nestedIndefiniteChunk => .nestedChunk
  | .unexpectedEnd => .missingItem
  | .inChunk _ => .chunk
  | .negativeOverflow => .overflow
  | .depthExceeded _ => .depth

def Kind.all : List Kind :=
  [.argument, .info, .float, .content, .missingBreak, .majorType, .nestedChunk, .missingItem,
    .chunk, .overflow, .depth]

theorem Kind.eq_of_opening_prefix {kind other : Kind} (h : kind.opening <+: other.opening) :
    kind = other := by
  have hmem : ∀ kind, kind ∈ all := by
    intro kind
    cases kind <;> decide
  have hall : ∀ kind ∈ all, ∀ other ∈ all, kind.opening <+: other.opening → kind = other := by
    decide
  exact hall kind (hmem kind) other (hmem other) h

theorem opening_prefix_message (error : DecodeError) : error.kind.opening <+: error.message := by
  cases error with
  | argumentTooShort | incompleteFloat | contentTooShort | unexpectedChunkType
  | unexpectedKeyType | depthExceeded => exact ⟨_, (List.append_assoc ..).symm⟩
  | invalidInfo | inChunk => exact List.prefix_append ..
  | expectedBreak | nestedIndefiniteChunk | unexpectedEnd | negativeOverflow =>
      exact List.prefix_rfl

theorem kind_eq_of_message_eq {error other : DecodeError} (h : error.message = other.message) :
    error.kind = other.kind := by
  have herror := error.opening_prefix_message
  have hother := other.opening_prefix_message
  rw [← h] at hother
  rcases List.prefix_or_prefix_of_prefix herror hother with hprefix | hprefix
  · exact Kind.eq_of_opening_prefix hprefix
  · exact (Kind.eq_of_opening_prefix hprefix).symm

/-! ## Errors from messages -/

private theorem number_inj {first last last' : Text} {number number' : Nat}
    (hlast : last.head? = some ' ') (hlast' : last'.head? = some ' ')
    (h : first ++ Text.ofNat number ++ last = first ++ Text.ofNat number' ++ last') :
    number = number' ∧ last = last' := by
  have hspace : ∀ c ∈ some ' ', c.isDigit = false := by simp
  rw [List.append_assoc, List.append_assoc, List.append_cancel_left_eq] at h
  exact Text.ofNat_append_inj (hlast ▸ hspace) (hlast' ▸ hspace) h

/-- A wrong major type is the only case where two kinds of errors are left. -/
theorem eq_of_message_eq :
    ∀ {error other : DecodeError}, error.kind = other.kind → error.message = other.message →
      error = other
  | .argumentTooShort _, .argumentTooShort _, _, h
  | .incompleteFloat _, .incompleteFloat _, _, h
  | .contentTooShort _, .contentTooShort _, _, h
  | .unexpectedChunkType _, .unexpectedChunkType _, _, h
  | .unexpectedKeyType _, .unexpectedKeyType _, _, h
  | .depthExceeded _, .depthExceeded _, _, h => by rw [(number_inj rfl rfl h).1]
  | .invalidInfo info, .invalidInfo info', _, h => by
      have hinfo : Text.ofNat info ++ [] = Text.ofNat info' ++ [] := by
        rw [List.append_cancel_left h]
      rw [(Text.ofNat_append_inj (by simp) (by simp) hinfo).1]
  | .unexpectedChunkType _, .unexpectedKeyType _, _, h
  | .unexpectedKeyType _, .unexpectedChunkType _, _, h =>
      absurd (number_inj rfl rfl h).2 (by decide)
  | .inChunk _, .inChunk _, _, h => by
      have hcause := List.append_cancel_left h
      rw [eq_of_message_eq (kind_eq_of_message_eq hcause) hcause]
  | .expectedBreak, .expectedBreak, _, _ | .nestedIndefiniteChunk, .nestedIndefiniteChunk, _, _
  | .unexpectedEnd, .unexpectedEnd, _, _ | .negativeOverflow, .negativeOverflow, _, _ => rfl

/-! ## Errors in chunks -/

/-- How many times the error says that a chunk is faulty. -/
def wrappers : DecodeError → Nat
  | .inChunk cause => cause.wrappers + 1
  | _ => 0

theorem iterate_inChunk_innermost (error : DecodeError) :
    inChunk^[error.wrappers] error.innermost = error := by
  induction error with
  | inChunk cause ih => rw [wrappers, innermost, Function.iterate_succ_apply', ih]
  | _ => rfl

theorem innermost_ne_inChunk (error cause : DecodeError) : error.innermost ≠ inChunk cause := by
  induction error with
  | inChunk _ ih => exact ih
  | _ => exact DecodeError.noConfusion

theorem message_eq_append (error : DecodeError) :
    error.message =
      (List.replicate error.wrappers "decode subslice: ".toList).flatten ++
        error.innermost.message := by
  induction error with
  | inChunk cause ih =>
      calc (inChunk cause).message
        _ = "decode subslice: ".toList ++ cause.message := rfl
        _ = "decode subslice: ".toList ++
              ((List.replicate cause.wrappers "decode subslice: ".toList).flatten ++
                cause.innermost.message) := congrArg _ ih
        _ = _ := (List.append_assoc ..).symm
  | _ => rfl

/--
Errors with the same message are the same.  The message has one prefix for each time that the
error says that a chunk is faulty, and behind them that of the cause below, which says so no more.
-/
theorem message_eq_iff_and_append :
    (∀ error other : DecodeError, error.message = other.message ↔ error = other) ∧
    ∀ error : DecodeError,
      inChunk^[error.wrappers] error.innermost = error ∧
      (∀ cause, error.innermost ≠ inChunk cause) ∧
      error.message =
        (List.replicate error.wrappers "decode subslice: ".toList).flatten ++
          error.innermost.message := by
  refine ⟨fun error other => ⟨fun h => ?_, congrArg message⟩, fun error => ?_⟩
  · exact eq_of_message_eq (kind_eq_of_message_eq h) h
  · exact ⟨iterate_inChunk_innermost error, innermost_ne_inChunk error, message_eq_append error⟩

end Cbor.DecodeError

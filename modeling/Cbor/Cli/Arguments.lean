import Cbor.Text

/-!
# Command-line arguments

Options with one value, flags, and positional arguments.  Arguments are taken from left to right,
and the value of an option is checked when the next argument is taken, or at the end.
-/

namespace Cbor

inductive UsageError where
  | invalidValue
  | unknownArgument
  | missingArgument
  | valueValidation
  | repeated
  | unneededValue
  | help
  deriving DecidableEq, Repr

structure Switch where
  long : Text
  short : Option Char
  check : Option (Text → Except UsageError Unit)

namespace Switch

def help : Switch := ⟨"help".toList, some 'h', none⟩

end Switch

structure Signature where
  switches : List Switch
  most : Option Nat

/-- What has been taken: the values of options and flags by their long names, the positional
arguments in reverse order, and the option whose value has not been checked yet. -/
structure Arguments where
  given : List (Text × Text) := []
  positional : List Text := []
  pending : Option (Switch × Option Text) := none

namespace Arguments

def accept (arguments : Arguments) (switch : Switch) (value : Option Text) :
    Except UsageError Arguments := do
  if switch.check.isSome ∧ value.isNone then .error .invalidValue
  else if switch.long = Switch.help.long then .error .help
  else if arguments.given.any fun given => given.1 == switch.long then .error .repeated
  else do
    match switch.check with
    | some check => check (value.getD [])
    | none => .ok ()
    .ok { arguments with given := arguments.given ++ [(switch.long, value.getD [])] }

def settle (arguments : Arguments) : Except UsageError Arguments :=
  match arguments.pending with
  | none => .ok arguments
  | some (switch, value) => { arguments with pending := none }.accept switch value

def takeSwitch (arguments : Arguments) (switch : Switch) (value : Option Text) :
    Except UsageError Arguments := do
  match switch.check, value with
  | none, some _ => .error .unneededValue
  | some _, none =>
      let arguments ← arguments.settle
      .ok { arguments with pending := some (switch, none) }
  | _, _ =>
      let arguments ← arguments.settle
      arguments.accept switch value

def takeLong (signature : Signature) (arguments : Arguments) (text : Text) :
    Except UsageError Arguments :=
  let (name, rest) := text.span (· != '=')
  match signature.switches.find? fun switch => switch.long == name with
  | none => .error .unknownArgument
  | some switch => arguments.takeSwitch switch rest.tail?

/-- Takes an argument behind one dash: short names of flags, and at last one of an option, whose
value may follow it, with or without an equals sign. -/
def takeShorts (signature : Signature) (arguments : Arguments) :
    Text → Except UsageError Arguments
  | [] => .ok arguments
  | c :: rest =>
      match signature.switches.find? fun switch => switch.short == some c with
      | none => .error .unknownArgument
      | some switch =>
          if switch.check.isSome then
            match rest with
            | [] => arguments.takeSwitch switch none
            | '=' :: value => arguments.takeSwitch switch (some value)
            | value => arguments.takeSwitch switch (some value)
          else do
            let arguments ← arguments.takeSwitch switch none
            arguments.takeShorts signature rest

def takePositional (signature : Signature) (arguments : Arguments) (text : Text) :
    Except UsageError Arguments :=
  if signature.most.any fun most => most ≤ arguments.positional.length then
    .error .unknownArgument
  else do
    let arguments ← arguments.settle
    .ok { arguments with positional := text :: arguments.positional }

def takeValue (signature : Signature) (arguments : Arguments) (text : Text) :
    Except UsageError Arguments :=
  match arguments.pending with
  | some (switch, none) => .ok { arguments with pending := some (switch, some text) }
  | _ => arguments.takePositional signature text

/-- Takes arguments in order; behind two dashes alone there are only positional ones. -/
def takeAll (signature : Signature) (arguments : Arguments) :
    List Text → Except UsageError Arguments
  | [] => arguments.settle
  | ['-', '-'] :: texts => do
      let arguments ← texts.foldlM (takePositional signature) arguments
      arguments.settle
  | text :: texts => do
      let arguments ← match text with
        | '-' :: '-' :: text => arguments.takeLong signature text
        | '-' :: c :: text => arguments.takeShorts signature (c :: text)
        | text => arguments.takeValue signature text
      arguments.takeAll signature texts

def parse (signature : Signature) (least : Nat) (texts : List Text) :
    Except UsageError Arguments := do
  let signature := { signature with switches := Switch.help :: signature.switches }
  let arguments ← takeAll signature {} texts
  if arguments.positional.length < least then .error .missingArgument
  else .ok { arguments with positional := arguments.positional.reverse }

def value? (arguments : Arguments) (name : String) : Option Text :=
  (arguments.given.find? fun given => given.1 == name.toList).map Prod.snd

end Arguments

end Cbor

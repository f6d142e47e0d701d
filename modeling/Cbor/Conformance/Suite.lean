import Cbor.Conformance.Record

/-!
# The conformance suite

Named groups of inputs, each with the item that it has to decode to or a part of the message that
it has to fail with.
-/

namespace Cbor.Suite

structure Group (α : Type) where
  name : Text
  cases : List α

structure Success where
  description : Text
  input : Bytes
  expect : Item

structure Failure where
  description : Text
  input : Bytes
  message : Text

namespace Success

def record (case : Success) : Record := .decodesTo case.description case.input case.expect

end Success

namespace Failure

def record (case : Failure) : Record := .fails case.description case.input

def check (case : Failure) : Except Text Unit :=
  match decode case.input with
  | .ok (item, _) => .error (expected ++ item.diagnostic)
  | .error error =>
      if Text.occursIn case.message error.message then .ok ()
      else .error (expected ++ '\'' :: error.message ++ ['\''])
where
  expected : Text := "expected error '".toList ++ case.message ++ "', got ".toList

end Failure

/-! ## Inputs that decode -/

structure Atom where
  name : String
  input : Bytes
  item : Item

def wideArguments : List (Nat × Nat) := [(24, 1), (25, 2), (26, 4), (27, 8)]

def head (major : Major) (info : Nat) : UInt8 := UInt8.ofNat (32 * major.code + info)

/-- The smallest and the largest argument of every width, the largest at most `most`. -/
def extremes (most : Nat) : List (String × Nat × Nat × Nat) :=
  wideArguments.flatMap fun (info, width) => [
    (toString width ++ "/min", info, width, 0),
    (toString width ++ "/max", info, width, min (Nat.pow 256 width - 1) most)]

def integers (name : String) (major : Major) (most : Nat) (item : Nat → Item) : List Atom :=
  [⟨name ++ "/0/min", [head major 0], item 0⟩, ⟨name ++ "/0/max", [head major 23], item 23⟩] ++
    (extremes most).map fun (label, info, width, argument) =>
      ⟨name ++ "/" ++ label, head major info :: Bytes.ofNat width argument, item argument⟩

def atoms : List Atom :=
  integers "uint" .unsigned (UInt64.size - 1) (fun argument => .unsigned (UInt64.ofNat argument)) ++
  -- the largest argument whose magnitude has 64 bits
  integers "negint" .negative (UInt64.size - 2)
    (fun argument => .negative (UInt64.ofNat (argument + 1))) ++ [
  ⟨"true", [0xF5], .bool true⟩,
  ⟨"false", [0xF4], .bool false⟩,
  ⟨"null", [0xF6], .null⟩,
  ⟨"undefined", [0xF7], .undefined⟩,
  ⟨"float16/+Inf", [0xF9, 0x7C, 0x00], .single 0x7F800000⟩,
  ⟨"float16/-Inf", [0xF9, 0xFC, 0x00], .single 0xFF800000⟩,
  ⟨"float16/NaN/MSB", [0xF9, 0x7E, 0x00], .single 0x7FC00000⟩,
  ⟨"float16/NaN/LSB", [0xF9, 0x7C, 0x01], .single 0x7F802000⟩,
  ⟨"float32", [0xFA, 0x7F, 0x80, 0, 0], .single 0x7F800000⟩,
  ⟨"float64", [0xFB, 0x7F, 0xF0, 0, 0, 0, 0, 0, 0], .double 0x7FF0000000000000⟩]

def success (group name : String) (input : Bytes) (expect : Item) : Success :=
  ⟨(group ++ " - " ++ name).toList, input, expect⟩

def sample : Bytes := [0x66, 0x6F, 0x6F]

def sampleKey : Bytes := head .text 3 :: sample

def definiteStrings (group : String) (major : Major) (item : Bytes → Item) : List Success := [
  success group "len = 0" [head major 0] (item []),
  success group "len > 0" (head major 3 :: sample) (item sample)]

def chunkedStrings (group : String) (major : Major) (item : Bytes → Item) : List Success :=
  let empty : Bytes := [head major 0]
  let full : Bytes := head major 3 :: sample
  let chunked (name : String) (chunks : List Bytes) (content : Bytes) : Success :=
    success group name (head major 31 :: chunks.flatten ++ [breakByte]) (item content)
  [chunked "len = 0" [] [],
    chunked "len = 0, explicit" [empty] [],
    chunked "len = 0, len > 0" [empty, full] sample,
    chunked "len > 0, len = 0" [full, empty] sample,
    chunked "len > 0, len > 0" [full, full] (sample ++ sample)]

def arrays : List Success :=
  (atoms.map fun atom =>
    success "list" ("[" ++ atom.name ++ "]") (head .array 1 :: atom.input) (.array [atom.item])) ++
  atoms.map fun atom =>
    success "list" ("[_ " ++ atom.name ++ "]") (head .array 31 :: atom.input ++ [breakByte])
      (.array [atom.item])

def maps : List Success :=
  let item (value : Item) : Item := .map [(sample, value)]
  (atoms.map fun atom =>
    success "map" ("\x7b" ++ atom.name ++ "\x7d") (head .map 1 :: sampleKey ++ atom.input)
      (item atom.item)) ++
  (atoms.map fun atom =>
    success "map" ("\x7b_ " ++ atom.name ++ "\x7d")
      (head .map 31 :: sampleKey ++ atom.input ++ [breakByte]) (item atom.item)) ++
  -- a repeated key keeps its last value
  [success "map" "\x7bfoo, foo\x7d" (head .map 2 :: sampleKey ++ [1] ++ sampleKey ++ [2])
    (item (.unsigned 2))]

def tags : List Success :=
  let item (tag : Nat) : Item := .tagged (UInt64.ofNat tag) (.unsigned 1)
  [success "tag" "0/min" [head .tag 0, 1] (item 0),
    success "tag" "0/max" [head .tag 23, 1] (item 23)] ++
  (extremes (UInt64.size - 1)).map fun (label, info, width, tag) =>
    success "tag" label (head .tag info :: Bytes.ofNat width tag ++ [1]) (item tag)

def successGroups : List (Group Success) := [
  ⟨"TestDecode_Atomic".toList,
    atoms.map fun atom => success "atomic" atom.name atom.input atom.item⟩,
  ⟨"TestDecode_DefiniteSlice".toList, definiteStrings "definite slice" .bytes .bytes⟩,
  ⟨"TestDecode_IndefiniteSlice".toList, chunkedStrings "indefinite slice" .bytes .bytes⟩,
  ⟨"TestDecode_DefiniteString".toList, definiteStrings "definite string" .text .text⟩,
  ⟨"TestDecode_IndefiniteString".toList, chunkedStrings "indefinite string" .text .text⟩,
  ⟨"TestDecode_List".toList, arrays⟩,
  ⟨"TestDecode_Map".toList, maps⟩,
  ⟨"TestDecode_Tag".toList, tags⟩]

/-! ## Inputs that fail -/

def failure (group name : String) (input : Bytes) (message : String) : Failure :=
  ⟨(group ++ " - " ++ name ++ " - " ++ message).toList, input, message.toList⟩

def cutArgument (width : Nat) : String :=
  "arg len " ++ toString width ++ " greater than remaining buf len"

def cutArguments (name : String) (major : Major) : List (String × Bytes × String) :=
  wideArguments.map fun (info, width) =>
    (name ++ "/" ++ toString width, head major info :: List.replicate (width - 1) 0,
      cutArgument width)

def indefiniteArgument (name : String) (major : Major) : String × Bytes × String :=
  (name ++ "/?", [head major 31], "unexpected minor value 31")

def invalidArguments : List Failure :=
  let cases : List (String × Bytes × String) :=
    cutArguments "uint" .unsigned ++ [indefiniteArgument "uint" .unsigned] ++
    cutArguments "negint" .negative ++ [indefiniteArgument "negint" .negative] ++
    cutArguments "slice" .bytes ++ cutArguments "string" .text ++
    cutArguments "list" .array ++ cutArguments "map" .map ++
    cutArguments "tag" .tag ++ [indefiniteArgument "tag" .tag] ++ [
    ("negint/8/overflow", head .negative 27 :: List.replicate 8 0xFF,
      "negative integer magnitude exceeds 64 bits"),
    ("major7/float16", [head .simple 25, 0], "incomplete float16 at end of buf"),
    ("major7/float32", [head .simple 26, 0, 0, 0], "incomplete float32 at end of buf"),
    ("major7/float64", [head .simple 27, 0, 0, 0, 0, 0, 0, 0], "incomplete float64 at end of buf"),
    ("major7/simple", [head .simple 24, 0xFF], "unexpected minor value 24"),
    indefiniteArgument "major7" .simple]
  cases.map fun (name, input, message) => failure "TestDecode_InvalidArgument" name input message

def cutContent : String := "slice len 1 greater than remaining buf len"

def invalidStrings (name : String) (major other : Major) : List Failure :=
  let case := fun (label : String) => failure "TestDecode_InvalidSlice" (name ++ label)
  [case "/1, not enough bytes" [head major 24, 1] cutContent,
    case "/?, no break" [head major 31] "expected break marker",
    case "/?, invalid nested major" [head major 31, head other 0]
      ("unexpected major type " ++ toString other.code ++ " in indefinite slice"),
    case "/?, nested indefinite" [head major 31, head major 31] "nested indefinite slice",
    case "/?, invalid nested definite" [head major 31, head major 24, 1]
      ("decode subslice: " ++ cutContent)]

def invalidArrays : List Failure :=
  let case := failure "TestDecode_InvalidList"
  [case "[] / eof after head" [head .array 1] "unexpected end of payload",
    case "[] / invalid item" [head .array 1, 24] (cutArgument 1),
    case "[_ ] / no break" [head .array 31] "expected break marker",
    case "[_ ] / invalid item" [head .array 31, 24] (cutArgument 1)]

def invalidMaps : List Failure :=
  let case := failure "TestDecode_InvalidMap"
  [case "\x7b\x7d / eof after head" [head .map 1] "unexpected end of payload",
    case "\x7b\x7d / non-string key" [head .map 1, 0] "unexpected major type 0 for map key",
    case "\x7b\x7d / invalid key" [head .map 1, head .text 24, 1] cutContent,
    case "\x7b\x7d / invalid value" (head .map 1 :: sampleKey ++ [24]) (cutArgument 1),
    case "\x7b\x7d / missing value" (head .map 1 :: sampleKey) "unexpected end of payload",
    case "\x7b_ \x7d / no break" [head .map 31] "expected break marker",
    case "\x7b_ \x7d / non-string key" [head .map 31, 0] "unexpected major type 0 for map key",
    case "\x7b_ \x7d / invalid key" [head .map 31, head .text 24, 1] cutContent,
    case "\x7b_ \x7d / invalid value" (head .map 31 :: sampleKey ++ [24]) (cutArgument 1)]

def invalidTags : List Failure :=
  let case := failure "TestDecode_InvalidTag"
  [case "invalid value" [head .tag 1, 24] (cutArgument 1),
    case "eof" [head .tag 1] "unexpected end of payload"]

def deepArrays : List Failure :=
  let limit := ({} : Options).maxDepth.toNat
  [failure "TestDecode_Depth" "list nesting" (List.replicate (limit + 1) (head .array 1) ++ [0])
    ("maximum nesting depth " ++ toString limit ++ " exceeded")]

def failureGroups : List (Group Failure) := [
  ⟨"TestDecodeError_InvalidArgument".toList, invalidArguments⟩,
  ⟨"TestDecodeError_InvalidSlice".toList,
    invalidStrings "slice" .bytes .text ++ invalidStrings "string" .text .bytes⟩,
  ⟨"TestDecodeError_InvalidList".toList, invalidArrays⟩,
  ⟨"TestDecodeError_InvalidMap".toList, invalidMaps⟩,
  ⟨"TestDecodeError_InvalidTag".toList, invalidTags⟩,
  ⟨"TestDecodeError_Depth".toList, deepArrays⟩]

end Cbor.Suite

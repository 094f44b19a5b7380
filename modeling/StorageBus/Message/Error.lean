/-!
# Decoding errors

Why bytes are no message, and in which field that was found.
-/
namespace StorageBus.Message

/-- How the value of a field is laid out. -/
inductive WireType where
  | varint
  | fixed64
  | lengthDelimited
  | startGroup
  | endGroup
  | fixed32
deriving DecidableEq, Repr

namespace WireType

/-- The number of a wire type in a field's key. -/
def code : WireType → Nat
  | varint => 0
  | fixed64 => 1
  | lengthDelimited => 2
  | startGroup => 3
  | endGroup => 4
  | fixed32 => 5

def ofCode? : Nat → Option WireType
  | 0 => some varint
  | 1 => some fixed64
  | 2 => some lengthDelimited
  | 3 => some startGroup
  | 4 => some endGroup
  | 5 => some fixed32
  | _ => none

def name : WireType → String
  | varint => "Varint"
  | fixed64 => "SixtyFourBit"
  | lengthDelimited => "LengthDelimited"
  | startGroup => "StartGroup"
  | endGroup => "EndGroup"
  | fixed32 => "ThirtyTwoBit"

@[simp] theorem ofCode?_code (w : WireType) : ofCode? w.code = some w := by cases w <;> rfl

end WireType

inductive Defect where
  | badVarint
  | keyTooLarge (key : Nat)
  | unknownWireType (code : Nat)
  | tagZero
  | wireMismatch (actual expected : WireType)
  | underflow
  | notUtf8
  | tooDeep
  | strayEndGroup
deriving DecidableEq, Repr

def Defect.message : Defect → String
  | badVarint => "invalid varint"
  | keyTooLarge key => s!"invalid key value: {key}"
  | unknownWireType code => s!"invalid wire type value: {code}"
  | tagZero => "invalid tag value: 0"
  | wireMismatch actual expected =>
    let actual := actual.name
    let expected := expected.name
    s!"invalid wire type: {actual} (expected {expected})"
  | underflow => "buffer underflow"
  | notUtf8 => "invalid string value: data is not UTF-8 encoded"
  | tooDeep => "recursion limit reached"
  | strayEndGroup => "unexpected end group tag"

/-- A defect, with the message and field it was found in if the field is a declared one. -/
structure DecodeError where
  place : Option (String × String)
  defect : Defect
deriving DecidableEq, Repr

def DecodeError.message (e : DecodeError) : String :=
  let place := match e.place with
    | some (record, field) => s!"{record}.{field}: "
    | none => ""
  s!"failed to decode Protobuf message: {place}" ++ e.defect.message

end StorageBus.Message

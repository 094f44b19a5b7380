import StorageBus.Message.Error

/-!
# Malformed parcels

Why the bytes at some position of a parcel are not the item that was asked for.
-/
namespace StorageBus.Parcel

/-- The items of a parcel that an error names. -/
inductive Shape where
  | int
  | unsigned
  | long
  | text
  | bytes
deriving DecidableEq, Repr

def Shape.name : Shape → String
  | .int => "i32"
  | .unsigned => "u32"
  | .long => "i64"
  | .text => "string"
  | .bytes => "byte array"

inductive Malformation where
  /-- Fewer bytes are left at the offset than the item needs. -/
  | truncated (item : Shape) (need offset left : Nat)
  | negativeLength (item : Shape) (length : Int32)
  /-- The size of a text exceeds the machine word. -/
  | textTooLong
  | missingTerminator
  | loneSurrogate
  | absentToken
  | absentBody
  | badFlag (flag : Int32)
  | badMessage (error : Message.DecodeError)
  /-- An index beyond the bytes that were taken. -/
  | overrun (index size : Nat)
deriving DecidableEq, Repr

def Malformation.message : Malformation → String
  | truncated item need offset left =>
    let item := item.name
    s!"truncated {item}: need {need} bytes at offset {offset}, {left} available"
  | negativeLength item length =>
    let item := item.name
    s!"negative {item} length {length}"
  | textTooLong => "string length overflow"
  | missingTerminator => "string missing NUL terminator"
  | loneSurrogate => "invalid UTF-16 string: invalid utf-16: lone surrogate found"
  | absentToken => "null interface token"
  | absentBody => "present record with null body"
  | badFlag flag => s!"bad record presence flag {flag}"
  | badMessage error =>
    let error := error.message
    s!"record decode: {error}"
  | overrun index size => s!"index {index} beyond {size}"

end StorageBus.Parcel

import StorageBus.Parcel.Reader
import StorageBus.Storage.Record

/-!
# Items

The items of a parcel as data, so that a parcel can be written from a list of items and read by a
list of their types.

## Main definitions

* `Item`, `Item.put` — an item, and the parcel with it appended.
* `ItemType`, `ItemType.read` — the type of an item, and reading one; `ItemType.readEach` — reading
  one after the other.
-/
namespace StorageBus.Parcel

inductive ItemType where
  | int
  | unsigned
  | long
  | bool
  | text
  | optionalText
  | bytes
  | token
  | disk
  | volume
  | knownVolume
deriving DecidableEq, Repr

inductive Item where
  | int (v : Int32)
  | unsigned (v : UInt32)
  | long (v : Int64)
  | bool (v : Bool)
  | text (v : String)
  | optionalText (v : Option String)
  | bytes (v : Option Bytes)
  | token (v : String)
  | disk (v : Option Disk)
  | volume (v : Option Volume)
  | knownVolume (v : Option KnownVolume)
deriving DecidableEq, Repr

namespace Item

def type : Item → ItemType
  | int _ => .int
  | unsigned _ => .unsigned
  | long _ => .long
  | bool _ => .bool
  | text _ => .text
  | optionalText _ => .optionalText
  | bytes _ => .bytes
  | token _ => .token
  | disk _ => .disk
  | volume _ => .volume
  | knownVolume _ => .knownVolume

def put (p : Parcel) : Item → Parcel
  | int v => p.putInt v
  | unsigned v => p.putUnsigned v
  | long v => p.putLong v
  | bool v => p.putBool v
  | text v => p.putText v
  | optionalText v => p.putOptionalText v
  | bytes v => p.putBytes v
  | token v => p.putToken v
  | disk v => p.putRecord Disk.schema v
  | volume v => p.putRecord Volume.schema v
  | knownVolume v => p.putRecord KnownVolume.schema v

end Item

/-- Reads one item of the type. -/
def ItemType.read : ItemType → Read Item
  | int => return .int (← Reader.int)
  | unsigned => return .unsigned (← Reader.unsigned)
  | long => return .long (← Reader.long)
  | bool => return .bool (← Reader.bool)
  | text => return .text (← Reader.text)
  | optionalText => return .optionalText (← Reader.optionalText)
  | bytes => return .bytes (← Reader.bytes)
  | token => return .token (← Reader.token)
  | disk => return .disk (← Reader.record Disk.schema)
  | volume => return .volume (← Reader.record Volume.schema)
  | knownVolume => return .knownVolume (← Reader.record KnownVolume.schema)

/-- Reads items of these types up to the first that cannot be read. Each comes with the reader that
stands behind it. -/
def ItemType.readEach (r : Reader) : List ItemType → List (Item × Reader) × Option Malformation
  | [] => ([], none)
  | type :: types =>
    match type.read r with
    | .error e _ => ([], some e)
    | .ok item r =>
      let (items, ending) := readEach r types
      ((item, r) :: items, ending)

end StorageBus.Parcel

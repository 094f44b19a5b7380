/-!
# States and types of volumes

The life cycle of a volume and the kinds of volume, with the numbers that stand for them in events.
-/
namespace StorageBus

inductive VolumeState where
  | unmounted
  | checking
  | mounted
  | mountedReadOnly
  | formatting
  | ejecting
  | unmountable
  | removed
  | badRemoval
deriving DecidableEq, Repr

namespace VolumeState

/-- All states, each at the index that is its number. -/
def all : List VolumeState :=
  [unmounted, checking, mounted, mountedReadOnly, formatting, ejecting, unmountable, removed,
    badRemoval]

def code : VolumeState → Int32
  | unmounted => 0
  | checking => 1
  | mounted => 2
  | mountedReadOnly => 3
  | formatting => 4
  | ejecting => 5
  | unmountable => 6
  | removed => 7
  | badRemoval => 8

def ofCode? (v : Int32) : Option VolumeState := all.find? (·.code == v)

def name : VolumeState → String
  | unmounted => "Unmounted"
  | checking => "Checking"
  | mounted => "Mounted"
  | mountedReadOnly => "MountedReadOnly"
  | formatting => "Formatting"
  | ejecting => "Ejecting"
  | unmountable => "Unmountable"
  | removed => "Removed"
  | badRemoval => "BadRemoval"

/-- The state as events about a path name it. -/
def environment : VolumeState → String
  | unmounted => "unmounted"
  | checking => "checking"
  | mounted => "mounted"
  | mountedReadOnly => "mounted_ro"
  | formatting => "unknown"
  | ejecting => "ejecting"
  | unmountable => "unmountable"
  | removed => "removed"
  | badRemoval => "bad_removal"

@[simp] theorem ofCode?_code (s : VolumeState) : ofCode? s.code = some s := by cases s <;> rfl

end VolumeState

inductive VolumeType where
  | public_
  | private_
  | emulated
  | asec
  | obb
  | stub
deriving DecidableEq, Repr

namespace VolumeType

def all : List VolumeType := [public_, private_, emulated, asec, obb, stub]

def code : VolumeType → Int32
  | public_ => 0
  | private_ => 1
  | emulated => 2
  | asec => 3
  | obb => 4
  | stub => 5

def ofCode? (v : Int32) : Option VolumeType := all.find? (·.code == v)

def name : VolumeType → String
  | public_ => "Public"
  | private_ => "Private"
  | emulated => "Emulated"
  | asec => "Asec"
  | obb => "Obb"
  | stub => "Stub"

@[simp] theorem ofCode?_code (t : VolumeType) : ofCode? t.code = some t := by cases t <;> rfl

end VolumeType

end StorageBus

import StorageBus.Storage.Record

/-!
# Events

What a service tells its subscribers, in six kinds. Each kind is a one-way call with a code and a
method name; the codes run on from the first call code in the order of the kinds.

## Main definitions

* `Event`, `Event.Kind` — events and their kinds.
* `Event.Kind.code`, `Event.Kind.ofCode?` — call codes.
-/
namespace StorageBus

/-- The interface that subscribers implement unless they name another. -/
def defaultDescriptor : String := "android.os.storage.IStorageEventListener"

/-- The lowest code of a call. -/
def firstCallCode : UInt32 := 1

inductive Event.Kind where
  | connectionChanged
  | stateChanged
  | volumeStateChanged
  | volumeRecordChanged
  | volumeForgotten
  | diskScanned
deriving DecidableEq, Repr

inductive Event where
  /-- USB mass storage was connected or disconnected. -/
  | connectionChanged (connected : Bool)
  /-- The storage at a path went from one state to another, both named as environments. -/
  | stateChanged (path oldState newState : String)
  | volumeStateChanged (volume : Option Volume) (oldState newState : Int32)
  | volumeRecordChanged (record : Option KnownVolume)
  | volumeForgotten (fsUuid : String)
  | diskScanned (disk : Option Disk) (volumeCount : Int32)
deriving DecidableEq, Repr

namespace Event

namespace Kind

def all : List Kind :=
  [connectionChanged, stateChanged, volumeStateChanged, volumeRecordChanged, volumeForgotten,
    diskScanned]

def name : Kind → String
  | connectionChanged => "ConnectionChanged"
  | stateChanged => "StateChanged"
  | volumeStateChanged => "VolumeStateChanged"
  | volumeRecordChanged => "VolumeRecordChanged"
  | volumeForgotten => "VolumeForgotten"
  | diskScanned => "DiskScanned"

def ofName? (name : String) : Option Kind := all.find? (·.name == name)

/-- The listener method for events of this kind. -/
def method : Kind → String
  | connectionChanged => "onUsbMassStorageConnectionChanged"
  | stateChanged => "onStorageStateChanged"
  | volumeStateChanged => "onVolumeStateChanged"
  | volumeRecordChanged => "onVolumeRecordChanged"
  | volumeForgotten => "onVolumeForgotten"
  | diskScanned => "onDiskScanned"

def code : Kind → UInt32
  | connectionChanged => firstCallCode
  | stateChanged => firstCallCode + 1
  | volumeStateChanged => firstCallCode + 2
  | volumeRecordChanged => firstCallCode + 3
  | volumeForgotten => firstCallCode + 4
  | diskScanned => firstCallCode + 5

def ofCode? (code : UInt32) : Option Kind := all.find? (·.code == code)

/-- The kind with its code and method. -/
def describe (k : Kind) : String :=
  let name := k.name
  let code := k.code
  let method := k.method
  s!"Transaction \x7b kind: {name}, code: {code}, method: \"{method}\" \x7d"

@[simp] theorem ofCode?_code (k : Kind) : ofCode? k.code = some k := by cases k <;> rfl

theorem code_of_ofCode? {code : UInt32} {k : Kind} (h : ofCode? code = some k) : k.code = code := by
  simpa using List.find?_some h

end Kind

def kind : Event → Kind
  | connectionChanged _ => .connectionChanged
  | stateChanged _ _ _ => .stateChanged
  | volumeStateChanged _ _ _ => .volumeStateChanged
  | volumeRecordChanged _ => .volumeRecordChanged
  | volumeForgotten _ => .volumeForgotten
  | diskScanned _ _ => .diskScanned

def code (e : Event) : UInt32 := e.kind.code

end Event

end StorageBus

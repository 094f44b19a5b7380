import StorageBus.Message.Schema
import StorageBus.Storage.VolumeState

/-!
# Records

What events say about storage: disks, volumes, and volumes that are remembered while they are away.
Each record travels as a message by its schema.

## Main definitions

* `Disk`, `Volume`, `KnownVolume` and their schemas.
-/
namespace StorageBus

open Message

/-! ## Disks -/

structure Disk where
  id : String := ""
  flags : UInt32 := 0
  size : Int64 := 0
  label : String := ""
  sysPath : String := ""
  volumeCount : Int32 := 0
deriving DecidableEq, Repr

namespace Disk

def adoptableFlag : UInt32 := 1
def defaultPrimaryFlag : UInt32 := 2
def sdFlag : UInt32 := 4
def usbFlag : UInt32 := 8

def isAdoptable (d : Disk) : Bool := d.flags &&& adoptableFlag != 0
def isDefaultPrimary (d : Disk) : Bool := d.flags &&& defaultPrimaryFlag != 0
def isSd (d : Disk) : Bool := d.flags &&& sdFlag != 0
def isUsb (d : Disk) : Bool := d.flags &&& usbFlag != 0

def schema : Schema Disk where
  name := "DiskInfo"
  blank := {}
  fields := [
    ⟨1, "id", .text ⟨Disk.id, fun v d => { d with id := v }⟩⟩,
    ⟨2, "flags", .uint32 ⟨Disk.flags, fun v d => { d with flags := v }⟩⟩,
    ⟨3, "size", .int64 ⟨Disk.size, fun v d => { d with size := v }⟩⟩,
    ⟨4, "label", .text ⟨Disk.label, fun v d => { d with label := v }⟩⟩,
    ⟨5, "sys_path", .text ⟨Disk.sysPath, fun v d => { d with sysPath := v }⟩⟩,
    ⟨6, "volume_count", .int32 ⟨Disk.volumeCount, fun v d => { d with volumeCount := v }⟩⟩]

end Disk

/-! ## Volumes -/

structure Volume where
  id : String := ""
  type : Int32 := 0
  /-- The disk that the volume is part of, empty for a virtual volume. -/
  diskId : String := ""
  partGuid : String := ""
  mountFlags : UInt32 := 0
  mountUserId : Int32 := 0
  state : Int32 := 0
  fsType : String := ""
  fsUuid : String := ""
  fsLabel : String := ""
  path : String := ""
  internalPath : String := ""
deriving DecidableEq, Repr

namespace Volume

def type? (v : Volume) : Option VolumeType := VolumeType.ofCode? v.type

def state? (v : Volume) : Option VolumeState := VolumeState.ofCode? v.state

def isMounted (v : Volume) : Bool :=
  v.state? == some .mounted || v.state? == some .mountedReadOnly

def schema : Schema Volume where
  name := "VolumeInfo"
  blank := {}
  fields := [
    ⟨1, "id", .text ⟨Volume.id, fun x v => { v with id := x }⟩⟩,
    ⟨2, "r#type", .int32 ⟨Volume.type, fun x v => { v with type := x }⟩⟩,
    ⟨3, "disk_id", .text ⟨Volume.diskId, fun x v => { v with diskId := x }⟩⟩,
    ⟨4, "part_guid", .text ⟨Volume.partGuid, fun x v => { v with partGuid := x }⟩⟩,
    ⟨5, "mount_flags", .uint32 ⟨Volume.mountFlags, fun x v => { v with mountFlags := x }⟩⟩,
    ⟨6, "mount_user_id", .int32 ⟨Volume.mountUserId, fun x v => { v with mountUserId := x }⟩⟩,
    ⟨7, "state", .int32 ⟨Volume.state, fun x v => { v with state := x }⟩⟩,
    ⟨8, "fs_type", .text ⟨Volume.fsType, fun x v => { v with fsType := x }⟩⟩,
    ⟨9, "fs_uuid", .text ⟨Volume.fsUuid, fun x v => { v with fsUuid := x }⟩⟩,
    ⟨10, "fs_label", .text ⟨Volume.fsLabel, fun x v => { v with fsLabel := x }⟩⟩,
    ⟨11, "path", .text ⟨Volume.path, fun x v => { v with path := x }⟩⟩,
    ⟨12, "internal_path", .text ⟨Volume.internalPath, fun x v => { v with internalPath := x }⟩⟩]

end Volume

/-! ## Remembered volumes -/

/-- What is kept of a volume while it is away. -/
structure KnownVolume where
  type : Int32 := 0
  fsUuid : String := ""
  partGuid : String := ""
  nickname : String := ""
  userFlags : UInt32 := 0
  createdMillis : Int64 := 0
  lastSeenMillis : Int64 := 0
deriving DecidableEq, Repr

namespace KnownVolume

def schema : Schema KnownVolume where
  name := "VolumeRecord"
  blank := {}
  fields := [
    ⟨1, "r#type", .int32 ⟨KnownVolume.type, fun x k => { k with type := x }⟩⟩,
    ⟨2, "fs_uuid", .text ⟨KnownVolume.fsUuid, fun x k => { k with fsUuid := x }⟩⟩,
    ⟨3, "part_guid", .text ⟨KnownVolume.partGuid, fun x k => { k with partGuid := x }⟩⟩,
    ⟨4, "nickname", .text ⟨KnownVolume.nickname, fun x k => { k with nickname := x }⟩⟩,
    ⟨5, "user_flags", .uint32 ⟨KnownVolume.userFlags, fun x k => { k with userFlags := x }⟩⟩,
    ⟨6, "created_millis",
      .int64 ⟨KnownVolume.createdMillis, fun x k => { k with createdMillis := x }⟩⟩,
    ⟨7, "last_seen_millis",
      .int64 ⟨KnownVolume.lastSeenMillis, fun x k => { k with lastSeenMillis := x }⟩⟩]

end KnownVolume

end StorageBus

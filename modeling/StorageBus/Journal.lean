import StorageBus.Listener.Basic

/-!
# Journals

Log lines with named fields, and the listener that keeps a journal of every event.

## Main definitions

* `Journal.Line` — a line of a journal.
* `Journal.line` — the line for an event; `Journal.listener` — a listener that appends it.
-/
namespace StorageBus.Journal

inductive Value where
  | text (s : String)
  | number (n : Int)
  | flag (b : Bool)
deriving DecidableEq, Repr

structure Line where
  level : String := "INFO"
  message : String
  fields : List (String × Value)
deriving DecidableEq, Repr

/-- The name of a volume state, or its number if it has none. -/
def stateName (v : Int32) : String :=
  match VolumeState.ofCode? v with
  | some state => state.name
  | none => toString v.toInt

/-- What stands for something that is absent. -/
def absent : Value := .text "<none>"

/-- What is said of an event, and the fields that say it. -/
def entry : Event → String × List (String × Value)
  | .connectionChanged connected =>
    ("usb mass storage connection changed", [("connected", .flag connected)])
  | .stateChanged path oldState newState =>
    ("storage state changed",
      [("path", .text path), ("old_state", .text oldState), ("new_state", .text newState)])
  | .volumeStateChanged volume oldState newState =>
    ("volume state changed",
      [("volume", volume.elim absent fun v => .text v.id), ("old", .text (stateName oldState)),
        ("new", .text (stateName newState))])
  | .volumeRecordChanged record =>
    ("volume record changed", [("fs_uuid", record.elim absent fun k => .text k.fsUuid)])
  | .volumeForgotten fsUuid => ("volume forgotten", [("fs_uuid", .text fsUuid)])
  | .diskScanned disk volumeCount =>
    ("disk scanned",
      [("disk", disk.elim absent fun d => .text d.label),
        ("volume_count", .number volumeCount.toInt)])

/-- The line for an event in the journal of a listener. -/
def line (name : String) (e : Event) : Line :=
  let (message, fields) := entry e
  { message, fields := ("listener", .text name) :: fields }

/-- Appends a line for every event, and accepts it. -/
def listener (name : String) : Listener (List Line) := fun e => do
  modify (· ++ [line name e])
  return .ok ()

end StorageBus.Journal

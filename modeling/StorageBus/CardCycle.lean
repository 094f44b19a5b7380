import StorageBus.Journal
import StorageBus.Publisher
import StorageBus.Rehearsal
import StorageBus.Text.Hex

/-!
# The card cycle

A demonstration that a service replays round after round: a memory card is put in, its volume is
checked, mounted and ejected, and the card is forgotten. Each round has a card of its own, of which
the identifier follows from the round.

## Main definitions

* `CardCycle.events` — the events of a round.
* `CardCycle.play` — one round for all subscribers; `CardCycle.rehearse` — one for players.
-/
namespace StorageBus.CardCycle

/-- The factor between a round and the second half of its identifier. -/
def stride : UInt64 := 7919

/-- The low sixteen bits in four digits. -/
def group (n : UInt64) : String := String.ofList (Text.Hex.fixed .upper 4 (n &&& 0xffff).toNat)

/-- The identifier of a round's card: the round, and the round times the stride. The product wraps,
as on a machine that does not look for overflows. One that does ends a round here, before its first
event, if the product takes more than sixty-four bits. -/
def fsUuid (round : UInt64) : String := group round ++ "-" ++ group (round * stride)

def disk : Disk where
  id := "disk:179,64"
  flags := Disk.sdFlag ||| Disk.adoptableFlag
  size := 68719476736
  label := "Demo SD"
  sysPath := "/sys/block/mmcblk1"
  volumeCount := 1

/-- The volume on a round's card in a state. -/
def volume (round : UInt64) (state : VolumeState) : Volume where
  id := "public:179,65"
  type := VolumeType.public_.code
  diskId := disk.id
  fsType := "vfat"
  fsUuid := fsUuid round
  path := "/storage/" ++ fsUuid round
  state := state.code

/-- The states that the volume goes through after the first. -/
def transitions : List (VolumeState × VolumeState) :=
  [(.unmounted, .checking), (.checking, .mounted), (.mounted, .ejecting), (.ejecting, .unmounted),
    (.unmounted, .removed)]

/-- What is told of a transition: the state of the volume, then that of its path. -/
def transition (round : UInt64) (old new : VolumeState) : List Event :=
  let v := volume round new
  [.volumeStateChanged (some v) old.code new.code,
    .stateChanged v.path old.environment new.environment]

/-- The events of a round before its last. -/
def body (round : UInt64) : List Event :=
  [.connectionChanged true, .diskScanned (some disk) disk.volumeCount] ++
    transitions.flatMap (fun (old, new) => transition round old new) ++
    [.volumeForgotten (fsUuid round)]

/-- The last event of every round. -/
def last : Event := .connectionChanged false

def events (round : UInt64) : List Event := body round ++ [last]

/-- The line that closes a round, with the outcome of its last event. -/
def summary (round : UInt64) (report : Report) : Journal.Line where
  message := "cycle done"
  fields := [("round", .number round.toNat), ("delivered", .number report.delivered),
    ("failed", .number report.failed.length)]

/-- Tells all subscribers the events of a round in order. -/
def play {L σ : Type} (listener : L → Listener (Session L σ)) (round : UInt64) :
    Act (Session L σ) Journal.Line := do
  (body round).forM fun e => discard (Session.notify listener e)
  return summary round (← Session.notify listener last)

/-- Players by their numbers, registered in order, each under its number as the handle. -/
def castOf {κ : Type} (scripts : List (Script κ)) : Session Nat (Rehearsal Nat κ) :=
  let players := scripts.zipIdx.map fun (script, i) => (⟨i, script⟩ : Player Nat κ)
  players.foldl (fun s p => (s.register ⟨UInt64.ofNat p.name, none⟩ p.name).2)
    { rest := { players } }

/-- A player on the roster as a listener. -/
def playerListener {κ : Type} (i : Nat) : Listener (Session Nat (Rehearsal Nat κ)) := fun e => do
  let action ← modifyGet (Session.restPart.lift (Rehearsal.cue i e))
  action.act fun _ => return

/-- One round for these players. -/
def rehearse {κ : Type} (scripts : List (Script κ)) (round : UInt64) :
    Except Panic Journal.Line × Session Nat (Rehearsal Nat κ) :=
  (play playerListener round).attempt (castOf scripts)

end StorageBus.CardCycle

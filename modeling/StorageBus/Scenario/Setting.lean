import StorageBus.Endpoint.Lines
import StorageBus.Endpoint.Mailboxes
import StorageBus.Frame.Channel
import StorageBus.Frame.Source
import StorageBus.Publisher
import StorageBus.Rehearsal
import StorageBus.Scenario.Step

/-!
# Settings

Everything around the roster in a scenario: the names of handles, the three carriers, and the
listeners at their endpoints.

## Main definitions

* `Setting` — the state; `Setting.carrier` — its carriers.
* `Setting.handOn`, `Setting.settle` — mailboxes that are served.
* `Setting.finishReader` — peers that are served.
-/
namespace StorageBus.Scenario

/-- A listener that serves an endpoint. -/
structure Station where
  /-- The name under which it is observed. -/
  name : String
  descriptor : String := defaultDescriptor
  player : Nat

structure Setting where
  processes : Processes
  /-- The identifier of the next handle that is made. -/
  nextId : UInt64
  names : Table String Handle := []
  mail : Mailboxes Obituary := {}
  lines : Lines Channel := {}
  scripted : Scripted Obituary := {}
  cast : Rehearsal String (List Step) := {}
  /-- Who serves the mailboxes. -/
  stations : Table Handle Station := []
  /-- Who serves peers in the background. -/
  readers : Table Handle Station := []
  /-- The endpoints whose workers are stopped. -/
  held : List Handle := []

namespace Setting

def mailPart : Part Setting (Mailboxes Obituary) := ⟨mail, fun v w => { w with mail := v }⟩

def linesPart : Part Setting (Lines Channel) := ⟨lines, fun v w => { w with lines := v }⟩

def scriptedPart : Part Setting (Scripted Obituary) :=
  ⟨scripted, fun v w => { w with scripted := v }⟩

def castPart : Part Setting (Rehearsal String (List Step)) :=
  ⟨cast, fun v w => { w with cast := v }⟩

/-! ## Names -/

/-- The handle with the name; a name that was never given stands for one that is not in use. -/
def handleOf (w : Setting) (name : String) : Handle := (Table.find? name w.names).getD ⟨0, none⟩

/-- The alphabetically first name of a handle. -/
def nameOf (w : Setting) (h : Handle) : String :=
  match (w.names.filter (·.2 = h)).map (·.1) with
  | [] => "?"
  | name :: names => names.foldl (fun a b => if b < a then b else a) name

def label (name : String) (h : Handle) (w : Setting) : Setting :=
  { w with names := Table.put name h w.names }

/-- A new handle of this process under the name. -/
def mint (name : String) (w : Setting) : Handle × Setting :=
  let h : Handle := ⟨w.nextId, some w.processes.own⟩
  (h, label name h { w with nextId := w.nextId + 1 })

def note (name : String) (what : Observation) : Setting → Setting :=
  castPart.modify (·.note name what)

/-- The number of the player who joins next. -/
def newcomer (w : Setting) : Nat := w.cast.players.length

def join (name : String) (script : Script (List Step)) : Setting → Setting :=
  castPart.modify (·.join name script)

/-! ## Carriers -/

/-- Where calls to the scripted carrier are noted. -/
def scriptedName : String := "(fake)"

/-- The scripted carrier, which notes every call. -/
def noting (ps : Processes) : Carrier Setting Obituary :=
  let c := (Scripted.carrier ps Obituary).on scriptedPart
  { c with
    transact := fun h descriptor call w =>
      c.transact h descriptor call
        (w.note scriptedName (.carried (w.nameOf h) descriptor call.code call.bytes)) }

def carrier (ps : Processes) : Via → Carrier Setting Obituary
  | .mailboxes => (Mailboxes.carrier Obituary).on mailPart
  | .lines => (Lines.carrier Channel.sink ps Obituary).on linesPart
  | .scripted => noting ps

/-! ## Mailboxes -/

/-- Hands a call on to whoever serves the mailbox. -/
def handOn (h : Handle) (c : Call) (w : Setting) : Setting :=
  match Table.find? h w.stations with
  | none => w
  | some s => castPart.modify (·.attend s.descriptor s.name s.player c.code c.bytes) w

/-- Has the worker of a mailbox deliver what waits, unless it is stopped. -/
def deliver (w : Setting) (h : Handle) : Setting :=
  if w.held.contains h then w else Mailboxes.deliver mailPart handOn h w

/-- Has every worker deliver what waits. -/
def settle (w : Setting) : Setting := (Table.keys w.mail.boxes).foldl deliver w

/-! ## Peers -/

/-- How many bytes a line holds before its peer reads them. -/
def lineRoom : Nat := 212992

def line? (w : Setting) (h : Handle) : Option (Line Channel) := Table.find? h w.lines.lines

/-- Changes the stream of a line. -/
def onChannel (h : Handle) (f : Channel → Channel) : Setting → Setting :=
  linesPart.modify (·.update h fun line => { line with stream := f line.stream })

/-- The bytes that wait at a peer, which are taken away. -/
def drain (h : Handle) (w : Setting) : Bytes × Setting :=
  ((w.line? h).elim [] (·.stream.contents), w.onChannel h fun c => c.drain.2)

/-- Whether a peer will not get any more bytes: one of the two sides has ended the line. -/
def isOver (w : Setting) (h : Handle) : Bool :=
  (w.line? h).all fun line => line.isDead || line.stream.isCut

/-- Serves the frames among the bytes that wait at a peer. -/
def serve (h : Handle) (s : Station) (w : Setting) : Except Failure Nat × Setting :=
  let (bytes, w) := w.drain h
  let attend (f : Frame) : Setting → Setting :=
    castPart.modify (·.attend s.descriptor s.name s.player f.code f.body)
  Source.serve attend [.bytes bytes] w

/-- At the end of a line its reader has served everything. -/
def finishReader (h : Handle) (w : Setting) : Setting :=
  match Table.find? h w.readers with
  | none => w
  | some s => (serve h s { w with readers := Table.drop h w.readers }).2

end Setting

/-- A listener on the roster of a scenario. -/
inductive Subscriber where
  /-- A player who is called directly. -/
  | player (i : Nat)
  | remote (via : Via) (r : Remote)

abbrev Stage := Session Subscriber Setting

end StorageBus.Scenario

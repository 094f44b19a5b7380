import StorageBus.Scenario.Setting

/-!
# Playing scenarios

Steps are taken one after the other. Listeners and obituaries may take steps of their own in
between; only so many deep, and steps below that are left out. After each step of the scenario
itself the workers deliver what waits in the mailboxes.

## Main definitions

* `Step.take` — one step, given how errands are run.
* `Stage.advance`, `run` — a step of the scenario with its `Outcome`, and all steps.
-/
namespace StorageBus.Scenario

/-- How errands are run. -/
abbrev Errands := List Step → Act Stage Unit

namespace Stage

/-- A change of the setting within the stage. -/
def onSetting {α : Type} (step : Setting → α × Setting) : Act Stage α :=
  modifyGet (Session.restPart.lift step)

def change (f : Setting → Setting) : Act Stage Unit := modify (Session.restPart.modify f)

def setting : Act Stage Setting := return (← get).rest

def handle (name : String) : Act Stage Handle := return (← setting).handleOf name

/-- The carrier within the setting as it is now. -/
def carrier (via : Via) : Act Stage (Carrier Setting Obituary) :=
  return Setting.carrier (← setting).processes via

def mail : Part Stage (Mailboxes Obituary) := Session.restPart.comp Setting.mailPart

/-! ## Listeners and obituaries -/

/-- A subscriber as a listener. -/
def listener (run : Errands) : Subscriber → Listener Stage
  | .player i => fun e => do
    let action ← onSetting (Setting.castPart.lift (Rehearsal.cue i e))
    action.act run
  | .remote via r => fun e => do
    let c ← carrier via
    onSetting (r.send c e)

/-- Sees to an obituary. -/
def attend (run : Errands) (h : Handle) : Obituary → Act Stage Unit
  | .unregister => discard (modifyGet (Session.unregister h))
  | .errand tag steps => do
    change fun w => w.note tag (.death (w.nameOf h))
    run steps

/-! ## Steps with more than one part -/

/-- Registers a listener who is called directly. -/
def registerLocal (name : String) (script : Script (List Step)) : Act Stage Answer := do
  let h ← handle name
  let i := (← setting).newcomer
  change (Setting.join name script)
  return .flag (← modifyGet (Session.register h (.player i)))

/-- Opens an endpoint with a mailbox. -/
def enroll (name descriptor : String) (script : Script (List Step)) : Act Stage Answer := do
  let h ← onSetting (Setting.mint name)
  let i := (← setting).newcomer
  change fun w =>
    let w := w.join name script
    { w with
      mail := w.mail.enroll h
      stations := Table.add h { name, descriptor, player := i } w.stations }
  return .count (← setting).mail.length

def adopt (name : String) : Act Stage Answer := do
  let h ← onSetting (Setting.mint name)
  let channel : Channel := { room := some Setting.lineRoom, stuck := some { kind := .wouldBlock } }
  change fun w => { w with lines := w.lines.adopt h channel }
  return .adopted (← setting).lines.length

def send (name : String) (via : Via) (descriptor : String) (e : Event) : Act Stage Answer := do
  let h ← handle name
  let c ← carrier via
  let result ← onSetting (Remote.send c { handle := h, descriptor } e)
  let w ← setting
  return .sent (w.nameOf h) descriptor result (c.isAlive h w)

def notify (run : Errands) (e : Event) : Act Stage Answer := do
  let report ← Session.notify (listener run) e
  let w ← setting
  return .report report.delivered (report.failed.map w.nameOf) report.pruned

/-- Kills an endpoint, after everything that waits for it was delivered. -/
def kill (run : Errands) (name : String) : Act Stage Answer := do
  let h ← handle name
  change (·.deliver h)
  let was ← Mailboxes.kill mail (attend run) h
  return .killed was (← setting).mail.length

/-- Stops the worker of a live endpoint, after everything that waits for it was delivered. -/
def hold (name : String) : Act Stage Answer := do
  let h ← handle name
  change fun w =>
    let w := w.deliver h
    if w.mail.isAlive h then { w with held := h :: w.held } else w
  return .done

def die (run : Errands) (name : String) : Act Stage Answer := do
  let h ← handle name
  let obituaries ← onSetting (Setting.scriptedPart.lift (Scripted.release h))
  obituaries.forM (attend run h)
  return .count obituaries.length

def close (name : String) : Act Stage Answer := do
  let h ← handle name
  let was ← onSetting (Setting.linesPart.lift (Lines.close h))
  change (Setting.finishReader h)
  return .closed was (← setting).lines.length

def peerRead (name : String) : Act Stage Answer := do
  let h ← handle name
  let bytes ← onSetting (Setting.drain h)
  return .read bytes ((← setting).isOver h)

/-- Closes a peer, of which nothing is left unless someone else still reads there. -/
def peerDrop (name : String) : Act Stage Answer := do
  let h ← handle name
  change fun w =>
    if (Table.find? h w.readers).isSome then w else w.onChannel h Channel.cut
  return .done

def peerShutdown (name : String) : Act Stage Answer := do
  let h ← handle name
  change fun w => (w.finishReader h).onChannel h Channel.cut
  return .flag true

def peerServe (name : String) (script : Script (List Step)) : Act Stage Answer := do
  let h ← handle name
  let i := (← setting).newcomer
  change (Setting.join name script)
  return .served (← onSetting (Setting.serve h { name, player := i }))

/-- A peer that is served in the background has room for everything. -/
def peerBackground (name : String) (script : Script (List Step)) : Act Stage Answer := do
  let h ← handle name
  let i := (← setting).newcomer
  change fun w =>
    let w := (w.join name script).onChannel h fun c => { c with room := none }
    { w with readers := Table.put h { name, player := i } w.readers }
  return .done

end Stage

open Stage

/-- Takes one step, with errands run in the given way. -/
def Step.take (run : Errands) : Step → Act Stage Answer
  | .enroll name descriptor script => Stage.enroll name descriptor script
  | .label name h => do
    change (Setting.label name h)
    return .done
  | .adopt name => Stage.adopt name
  | .registerRemote name via => do
    let h ← handle name
    let c ← carrier via
    let subscriber := Subscriber.remote via { handle := h }
    return .flag (← modifyGet (Session.registerRemote c .unregister h subscriber))
  | .registerLocal name script => Stage.registerLocal name script
  | .registerBare name via descriptor => do
    let h ← handle name
    return .flag (← modifyGet (Session.register h (.remote via { handle := h, descriptor })))
  | .unregister name => do
    let h ← handle name
    return .flag (← modifyGet (Session.unregister h))
  | .contains name => do
    let h ← handle name
    return .flag ((← get).roster.contains h)
  | .clear => return .count (← modifyGet (Session.rosterPart.lift Roster.clear))
  | .sweep => do
    let ps := (← setting).processes
    return .count (← modifyGet (Session.rosterPart.lift (Roster.sweep (·.isLive ps))))
  | .length => return .size (← get).roster.length
  | .handles => return .names ((← get).roster.handles.map (← setting).nameOf)
  | .notify e => Stage.notify run e
  | .send name via descriptor e => Stage.send name via descriptor e
  | .transact name via c => do
    let h ← handle name
    let k ← carrier via
    return .transacted (← onSetting (k.transact h defaultDescriptor c))
  | .isAlive name via => do
    let h ← handle name
    let c ← carrier via
    return .flag (c.isAlive h (← setting))
  | .link name via tag errand => do
    let h ← handle name
    let c ← carrier via
    return .transacted (← onSetting (c.link h (.errand tag errand)))
  | .kill name => Stage.kill run name
  | .hold name => Stage.hold name
  | .release name => do
    let h ← handle name
    change fun w => { w with held := w.held.filter (· ≠ h) }
    return .done
  | .setReplies name toCalls toLinks => do
    let h ← handle name
    change (Setting.scriptedPart.modify (·.setReplies h fun r =>
      { transact := toCalls.getD r.transact, link := toLinks.getD r.link }))
    return .done
  | .die name => Stage.die run name
  | .close name => Stage.close name
  | .peerRead name => Stage.peerRead name
  | .peerDrop name => Stage.peerDrop name
  | .peerShutdown name => Stage.peerShutdown name
  | .peerServe name script => Stage.peerServe name script
  | .peerBackground name script => Stage.peerBackground name script

/-- Takes a step; errands are run to the given depth and left out below it. -/
def Step.takeWithin : Nat → Step → Act Stage Answer
  | 0, step => step.take fun _ => return
  | depth + 1, step => step.take fun steps => steps.forM fun s => discard (takeWithin depth s)

/-! ## Whole scenarios -/

structure Outcome where
  answer : Except Panic Answer
  /-- The names of the registered handles in order. -/
  registered : List String
  /-- What was noted during the step under each name, the earliest first. -/
  notes : Table String (List Observation)

/-- Notes under the same name together. -/
def sortNotes (notes : List (String × Observation)) : Table String (List Observation) :=
  notes.foldl (fun t (name, what) => Table.put name ((Table.find? name t).getD [] ++ [what]) t) []

/-- Takes a step of the scenario, and then has the workers deliver what waits. -/
def Stage.advance (depth : Nat) (step : Step) (s : Stage) : Outcome × Stage :=
  let (answer, s) := (step.takeWithin depth).attempt s
  let s := Session.restPart.modify Setting.settle s
  let (notes, s) := (Session.restPart.comp Setting.castPart).lift Rehearsal.takeNotes s
  ({ answer, registered := s.roster.handles.map s.rest.nameOf, notes := sortNotes notes }, s)

/-- The outcomes of all steps. -/
def run (depth : Nat) : List Step → Stage → List Outcome
  | [], _ => []
  | step :: steps, s =>
    let (outcome, s) := s.advance depth step
    outcome :: run depth steps s

/-- A stage with an empty roster, on which handles are made with identifiers from `firstId` on. -/
def Stage.start (ps : Processes) (firstId : UInt64) : Stage :=
  { rest := { processes := ps, nextId := firstId } }

end StorageBus.Scenario

import StorageBus.Fault
import StorageBus.Frame.Basic
import StorageBus.Parcel.Basic

/-!
# Writing frames

A sink takes bytes as it likes: some of what it is given, or none, and it may be interrupted or
fail. Interrupted writes are tried again.

## Main definitions

* `Sink` — what can be written to.
* `Sink.writeAll` — all of some bytes, in as many writes as it takes.
* `Frame.write` — a frame, header first; `Frame.writeEach` — many frames.
-/
namespace StorageBus

/-- What became of one write. -/
inductive Took where
  | bytes (count : Nat)
  | interrupted
  | failed (error : IoError)
deriving DecidableEq, Repr

/-- A writer with state `σ`. It is not interrupted forever: each interruption costs patience. -/
structure Sink (σ : Type) where
  write : Bytes → σ → Took × σ
  flush : σ → Option IoError × σ
  patience : σ → Nat
  patience_lt : ∀ {bs s t}, write bs s = (.interrupted, t) → patience t < patience s

/-- Writes until the sink has taken every byte. No write is made for no bytes. -/
def Sink.writeAll {σ : Type} (k : Sink σ) (bs : Bytes) (s : σ) : Except IoError Unit × σ :=
  if bs = [] then (.ok (), s)
  else match _hw : k.write bs s with
    | (.bytes 0, t) => (.error .shortWrite, t)
    | (.bytes (n + 1), t) => k.writeAll (bs.drop (n + 1)) t
    | (.interrupted, t) => k.writeAll bs t
    | (.failed e, t) => (.error e, t)
termination_by (bs.length, k.patience s)
decreasing_by
  · have : 0 < bs.length := List.length_pos_iff.mpr (by assumption)
    apply Prod.Lex.left
    simp only [List.length_drop]
    omega
  · exact Prod.Lex.right _ (k.patience_lt _hw)

/-- Writes header and body and flushes. A body over the limit is refused before anything is
written. -/
def Frame.write {σ : Type} (k : Sink σ) (f : Frame) (s : σ) : Except Failure Unit × σ :=
  let size := f.body.length
  if maxParcelSize < size then (.error (.tooLarge size maxParcelSize), s)
  else
    match k.writeAll f.header s with
    | (.error e, s) => (.error (.io e), s)
    | (.ok (), s) =>
      match k.writeAll f.body s with
      | (.error e, s) => (.error (.io e), s)
      | (.ok (), s) =>
        match k.flush s with
        | (some e, s) => (.error (.io e), s)
        | (none, s) => (.ok (), s)

/-- Writes one frame after the other, also behind frames that failed. -/
def Frame.writeEach {σ : Type} (k : Sink σ) : List Frame → σ → List (Except Failure Unit) × σ
  | [], s => ([], s)
  | f :: fs, s =>
    let (result, s) := f.write k s
    let (results, s) := writeEach k fs s
    (result :: results, s)

end StorageBus

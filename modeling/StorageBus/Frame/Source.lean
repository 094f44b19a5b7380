import StorageBus.Fault
import StorageBus.Frame.Basic
import StorageBus.Parcel.Basic

/-!
# Reading frames

A source is what the reads of a byte stream will give: pieces of any size and failures, then
nothing. A piece of no bytes is an end of the stream too. Interrupted reads are tried again.

## Main definitions

* `Source.fill` — the next bytes of a source, a given number of them.
* `Frame.read` — the next frame; `Source.frames` — all frames, and how the stream ended.
* `Source.serve` — handing all frames on.
-/
namespace StorageBus

/-- What one read gives: bytes, of which a read may leave some to the next, or a failure. -/
inductive Feed where
  | bytes (bs : Bytes)
  | failure (error : IoError)
deriving DecidableEq, Repr

abbrev Source := List Feed

namespace Source

/-- A bound on the number of reads that can still give something. -/
def weight : Source → Nat
  | [] => 0
  | .bytes bs :: src => bs.length + 1 + weight src
  | .failure _ :: src => 1 + weight src

inductive Filled where
  | full (bytes : Bytes) (rest : Source)
  /-- The stream ended after so many bytes. -/
  | ended (count : Nat)
  | failed (error : IoError)
deriving Repr

/-- The next `n` bytes behind the pieces already read, of which the latest comes first and which
have `count` bytes in all. -/
def fillOnto (pieces : List Bytes) (count : Nat) : Nat → Source → Filled
  | 0, src => .full pieces.reverse.flatten src
  | _ + 1, [] => .ended count
  | n + 1, .failure e :: src =>
    if e.kind = .interrupted then fillOnto pieces count (n + 1) src else .failed e
  | n + 1, .bytes bs :: src =>
    let front := bs.take (n + 1)
    let got := front.length
    if got = 0 then .ended count
    else if got = n + 1 then
      let rest := bs.drop (n + 1)
      .full (front :: pieces).reverse.flatten (if rest = [] then src else .bytes rest :: src)
    else fillOnto (front :: pieces) (count + got) (n + 1 - got) src

/-- The next `n` bytes. -/
def fill (n : Nat) (src : Source) : Filled := fillOnto [] 0 n src

theorem weight_of_fillOnto {pieces : List Bytes} {count n : Nat} {src rest : Source} {bytes : Bytes}
    (h : fillOnto pieces count n src = .full bytes rest) : rest.weight + n ≤ src.weight := by
  fun_induction fillOnto pieces count n src with
  | case1 => simp_all
  | case2 => simp at h
  | case3 pieces count n e src interrupted ih =>
    have := ih h
    simp only [weight] at this ⊢
    omega
  | case4 => simp at h
  | case5 => simp at h
  | case6 pieces count n bs src front got _ whole after =>
    simp only [Filled.full.injEq] at h
    obtain ⟨_, rfl⟩ := h
    simp only [got, front, List.length_take] at whole
    split
    · simp only [weight]
      omega
    · simp only [weight, after, List.length_drop]
      omega
  | case7 pieces count n bs src front got _ part ih =>
    have := ih h
    simp only [weight] at this ⊢
    simp only [got, front, List.length_take] at this part
    omega

end Source

/-- The next frame and what follows it, or nothing if the stream ends before its first byte. -/
def Frame.read (src : Source) : Except Failure (Option (Frame × Source)) :=
  match src.fill headerSize with
  | .ended 0 => .ok none
  | .ended (_ + 1) => .error (.io { kind := .unexpectedEof })
  | .failed e => .error (.io e)
  | .full header src =>
    let size := Word.value (header.take 4)
    let code := UInt32.ofNat (Word.value ((header.drop 4).take 4))
    let flags := UInt32.ofNat (Word.value (header.drop 8))
    if maxParcelSize < size then .error (.tooLarge size maxParcelSize)
    else
      match src.fill size with
      | .ended _ => .error (.io .shortRead)
      | .failed e => .error (.io e)
      | .full body src => .ok (some (⟨code, flags, body⟩, src))

theorem Frame.weight_of_read {src rest : Source} {f : Frame}
    (h : Frame.read src = .ok (some (f, rest))) : rest.weight < src.weight := by
  rw [Frame.read] at h
  split at h
  · simp at h
  · simp at h
  · simp at h
  · rename_i header mid hheader
    simp only at h
    split at h
    · simp at h
    · split at h
      · simp at h
      · simp at h
      · rename_i body last hbody
        simp only [Except.ok.injEq, Option.some.injEq, Prod.mk.injEq] at h
        obtain ⟨_, rfl⟩ := h
        have h₁ := Source.weight_of_fillOnto hheader
        have h₂ := Source.weight_of_fillOnto hbody
        have : 0 < headerSize := by decide
        omega

namespace Source

/-- All complete frames in order, and how the stream ended behind them. -/
def frames (src : Source) : List Frame × Except Failure Unit :=
  match _h : Frame.read src with
  | .error e => ([], .error e)
  | .ok none => ([], .ok ())
  | .ok (some (f, rest)) =>
    let (fs, ending) := frames rest
    (f :: fs, ending)
termination_by src.weight
decreasing_by exact Frame.weight_of_read _h

/-- Hands every complete frame on, whatever its flags, and counts them if the stream ends well. -/
def serve {σ : Type} (handOn : Frame → σ → σ) (src : Source) (s : σ) : Except Failure Nat × σ :=
  let (fs, ending) := src.frames
  (ending.map fun _ => fs.length, fs.foldl (fun s f => handOn f s) s)

end Source

end StorageBus

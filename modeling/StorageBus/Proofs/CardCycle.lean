import StorageBus.CardCycle
import StorageBus.Proofs.Broadcast.Attendance
import StorageBus.Proofs.Codec.Guarded
import StorageBus.Proofs.Hex

/-!
# What a listener hears of a card cycle

Every round tells one story of one volume, from the card being put in to the card being taken out,
and whoever stays on the roster hears all of it. The identifier of the card follows from the lowest
sixteen bits of the round alone, which stay exact in a product even where its highest bits are lost.
A machine that stops where bits would be lost plays the same rounds up to a last one.

## Main definitions

* `CardCycle.Passage` — a volume goes from one state to another.
* `CardCycle.Coherent` — the story of a card.
* `CardCycle.Identifies` — what the two halves of an identifier say of the round.
* `CardCycle.playOn` — one round on a machine that may stop at an overflow.

## Main results

* `CardCycle.fsUuid_eq_iff` — which rounds have one identifier.
* `CardCycle.coherent_events` — every round tells the story of its card.
* `CardCycle.stayers_hear_round` — who hears it.
* `CardCycle.playOn_eq_play`, `CardCycle.stops_before_first_event` — which rounds a machine plays,
  and that of the others nobody hears anything.
-/
namespace StorageBus.CardCycle

variable {L σ : Type}

/-! ## Identifiers -/

/-- Two groups of four digits: the round and its exact product with the stride, both modulo the
sixteen bits that there is room for. -/
def Identifies (round : UInt64) (uuid : String) : Prop :=
  ∃ a b : List Char, uuid.toList = a ++ '-' :: b ∧ a.length = 4 ∧ b.length = 4 ∧
    (∀ ch ∈ a ++ b, Text.HexCase.upper.Spells ch) ∧
    Text.Hex.value a = round.toNat % 65536 ∧ Text.Hex.value b = 7919 * round.toNat % 65536

theorem toNat_low (n : UInt64) : (n &&& 0xffff).toNat = n.toNat % 65536 :=
  Nat.and_two_pow_sub_one_eq_mod n.toNat 16

/-- The product may wrap, but not in its lowest bits. -/
theorem toNat_mul_stride (round : UInt64) :
    (round * stride).toNat % 65536 = 7919 * round.toNat % 65536 := by
  have wrapped : (round * stride).toNat = round.toNat * 7919 % 18446744073709551616 :=
    UInt64.toNat_mul round stride
  omega

theorem toList_group (n : UInt64) :
    (group n).toList = Text.Hex.fixed .upper 4 (n.toNat % 65536) := by
  rw [group, String.toList_ofList, toNat_low]

theorem toList_fsUuid (round : UInt64) :
    (fsUuid round).toList = Text.Hex.fixed .upper 4 (round.toNat % 65536) ++
      '-' :: Text.Hex.fixed .upper 4 (7919 * round.toNat % 65536) := by
  rw [fsUuid, String.toList_append, String.toList_append, toList_group, toList_group,
    toNat_mul_stride, List.append_assoc]
  rfl

theorem value_fixed_mod (n : Nat) :
    Text.Hex.value (Text.Hex.fixed .upper 4 (n % 65536)) = n % 65536 := by
  rw [Text.Hex.value_fixed]
  exact Nat.mod_mod n 65536

theorem identifies_fsUuid (round : UInt64) : Identifies round (fsUuid round) := by
  refine ⟨_, _, toList_fsUuid round, Text.Hex.length_fixed _ _ _, Text.Hex.length_fixed _ _ _, ?_,
    value_fixed_mod _, value_fixed_mod _⟩
  intro ch mem
  rcases List.mem_append.mp mem with mem | mem
  · exact Text.Hex.spells_of_mem_fixed mem
  · exact Text.Hex.spells_of_mem_fixed mem

theorem fsUuid_eq_iff {m n : UInt64} :
    fsUuid m = fsUuid n ↔ m.toNat % 65536 = n.toNat % 65536 := by
  rw [← String.toList_inj, toList_fsUuid, toList_fsUuid]
  constructor
  · intro same
    have lengths (k k' : Nat) : (Text.Hex.fixed .upper 4 k).length =
        (Text.Hex.fixed .upper 4 k').length := by
      rw [Text.Hex.length_fixed, Text.Hex.length_fixed]
    have front := (List.append_inj same (lengths _ _)).1
    exact (Text.Hex.fixed_inj (Nat.mod_lt _ (by decide)) (Nat.mod_lt _ (by decide))).mp front
  · intro same
    have product : 7919 * m.toNat % 65536 = 7919 * n.toNat % 65536 := by omega
    rw [same, product]

/-! ## Stories -/

/-- A volume at a path goes from one state to another. Of each state that it comes to, both the
volume and the path are told, with the state that it comes from. -/
inductive Passage (path : String) : VolumeState → List Event → VolumeState → Prop
  | stay (state : VolumeState) : Passage path state [] state
  | move {old mid new : VolumeState} {v : Volume} {es : List Event} (state : v.state = mid.code)
    (place : v.path = path) (later : Passage path mid es new) :
    Passage path old
      (.volumeStateChanged (some v) old.code mid.code ::
        .stateChanged path old.environment mid.environment :: es) new

/-- A card is put in, its volume passes from being unmounted to being removed, and the card is
forgotten. -/
def Coherent (uuid : String) (told : List Event) : Prop :=
  ∃ disk moves, Passage ("/storage/" ++ uuid) .unmounted moves .removed ∧
    told = .connectionChanged true :: .diskScanned (some disk) disk.volumeCount ::
      (moves ++ [.volumeForgotten uuid, .connectionChanged false])

theorem Passage.transition {round : UInt64} {old mid new : VolumeState} {es : List Event}
    (later : Passage ("/storage/" ++ fsUuid round) mid es new) :
    Passage ("/storage/" ++ fsUuid round) old (transition round old mid ++ es) new :=
  .move (v := volume round mid) rfl rfl later

theorem passage_transitions (round : UInt64) :
    Passage ("/storage/" ++ fsUuid round) .unmounted
      (transitions.flatMap fun (old, new) => transition round old new) .removed := by
  have arrived : Passage ("/storage/" ++ fsUuid round) .removed [] .removed := .stay .removed
  exact arrived.transition.transition.transition.transition.transition

theorem coherent_events (round : UInt64) : Coherent (fsUuid round) (events round) := by
  refine ⟨disk, _, passage_transitions round, ?_⟩
  rw [events, body, last, List.append_assoc, List.append_assoc]
  rfl

/-! ## Rounds -/

theorem play_of_ok {listener : L → Listener (Session L σ)} {round : UInt64} {s t u : Session L σ}
    {report : Report} (begun : ((body round).forM fun e => discard (Session.notify listener e)) s =
      .ok () t) (ended : Session.notify listener last t = .ok report u) :
    play listener round s = .ok (summary round report) u := by
  rw [play, Act.bind_apply begun, Act.bind_apply ended]
  rfl

/-- Among listeners that leave the roster alone every round comes to its end, also one whose product
with the stride takes more than sixty-four bits. Whatever becomes of the others, a listener that is
never unavailable stays and hears the story of the card from beginning to end, each event once for
each of its registrations. The card's identifier tells rounds apart modulo sixteen bits. -/
theorem stayers_hear_round [DecidableEq L] {listener : L → Listener (Session L σ)}
    (aloof : Session.Aloof listener) {s : Session L σ} (wf : s.roster.WellFormed)
    (round : UInt64) :
    ∃ told report calls u, Coherent (fsUuid round) told ∧
      play listener round s = .ok (summary round report) u ∧
      play (Session.watched listener) round (s.withCalls []) =
        .ok (summary round report) (u.withCalls calls) ∧
      (∀ l, Session.Steady listener l →
        Session.heardBy l calls = told.flatMap (List.replicate (s.entriesOf l).length) ∧
        u.entriesOf l = s.entriesOf l) ∧
      Identifies round (fsUuid round) ∧
      ∀ round', fsUuid round = fsUuid round' ↔ round.toNat % 65536 = round'.toNat % 65536 := by
  obtain ⟨calls, t, begun, ran, seen⟩ := Session.exists_course_forM aloof wf (body round)
  obtain ⟨report, u, told, ended⟩ := Session.exists_course aloof begun.wellFormed last
  have course := begun.trans ended
  have watched := Session.notify_watched told calls
  refine ⟨events round, report, calls ++ t.callsFor last, u, coherent_events round,
    play_of_ok ran told, play_of_ok (seen []) watched, ?_, identifies_fsUuid round,
    fun round' => fsUuid_eq_iff⟩
  intro l steady
  exact ⟨course.hear l steady, course.stay l steady⟩

/-- The last round of all, for a listener that turns out to be unavailable at the second event, one
that fails every time, and one that is registered twice. -/
theorem stayers_hear_round_last :
    let f : Handle := ⟨1, none⟩
    let g : Handle := ⟨2, none⟩
    let h : Handle := ⟨3, none⟩
    let k : Handle := ⟨4, none⟩
    let answer : Nat → Event → Except Fault Unit
      | 0, .diskScanned .. => .error (.unavailable f .deadObject)
      | 1, _ => .error (.handler "busy")
      | _, _ => .ok ()
    let listener (l : Nat) : Listener (Session Nat Nat) := fun e s =>
      .ok (answer l e) { s with rest := s.rest + 1 }
    let round : UInt64 := 0xffffffffffffffff
    let r := (Roster.register f 0 {}).2
    let s : Session Nat Nat := {
      roster := (Roster.register k 2 (Roster.register h 2 (Roster.register g 1 r).2).2).2
      rest := 0 }
    Session.Aloof listener ∧ s.roster.WellFormed ∧ Session.Steady listener 1 ∧
      Session.Steady listener 2 ∧ fsUuid round = "FFFF-E111" ∧
      18446744073709551616 ≤ 7919 * round.toNat ∧
      ∃ (told : List Event) (calls : Session.Calls Nat) (u : Session Nat Nat),
        Coherent "FFFF-E111" told ∧
        play (Session.watched listener) round (s.withCalls []) =
          .ok (summary round ⟨2, [g], 0⟩) (u.withCalls calls) ∧
        u.roster.handles = [g, h, k] ∧ u.rest = 44 ∧
        Session.heardBy 1 calls = told ∧
        Session.heardBy 2 calls = told.flatMap (List.replicate 2) := by
  intro f g h k answer listener round r s
  have aloof : Session.Aloof listener := fun l e s => ⟨_, _, rfl⟩
  have wf : s.roster.WellFormed :=
    (((Roster.WellFormed.empty.register _ _).register _ _).register _ _).register _ _
  have busy : Session.Steady listener 1 := by
    intro e s fault t ok
    obtain ⟨same, -⟩ := EStateM.Result.ok.inj ok
    cases same
    rfl
  have content : Session.Steady listener 2 := by
    intro e s fault t ok
    obtain ⟨same, -⟩ := EStateM.Result.ok.inj ok
    cases same
  have uuid : fsUuid round = "FFFF-E111" := by decide +kernel
  obtain ⟨told, report, calls, u, coherent, ran, seen, heard, -⟩ :=
    stayers_hear_round aloof wf round
  have outcome :
      let ended := (play listener round).attempt s
      ended.1.toOption = some (summary round ⟨2, [g], 0⟩) ∧
        ended.2.roster.handles = [g, h, k] ∧ ended.2.rest = 44 := by
    decide +kernel
  rw [Act.attempt, ran] at outcome
  obtain ⟨line, handles, rest⟩ := outcome
  rw [Option.some.inj line] at seen
  have once : (s.entriesOf 1).length = 1 := by decide +kernel
  have twice : (s.entriesOf 2).length = 2 := by decide +kernel
  refine ⟨aloof, wf, busy, content, uuid, by decide +kernel, told, calls, u, uuid ▸ coherent, seen,
    handles, rest, ?_, ?_⟩
  · rw [(heard 1 busy).1, once]
    exact List.flatMap_singleton' told
  · rw [(heard 2 content).1, twice]

/-! ## Machines that stop at an overflow -/

def overflow : Panic := { message := "attempt to multiply with overflow" }

/-- The product of two numbers of sixty-four bits, whatever the words of the machine are. -/
def product (m : Parcel.Machine) (a b : UInt64) : Act σ UInt64 :=
  if m.wraps ∨ a.toNat * b.toNat < UInt64.size then return a * b else throw overflow

/-- One round on a machine. The product for the identifier of the card comes before the events. -/
def playOn (m : Parcel.Machine) (listener : L → Listener (Session L σ)) (round : UInt64) :
    Act (Session L σ) Journal.Line := do
  discard (product m round stride)
  play listener round

/-- The rounds that keep all bits of their product with the stride. -/
theorem mul_stride_lt_size_iff (round : UInt64) :
    round.toNat * stride.toNat < UInt64.size ↔ round.toNat ≤ 2329428472497733 := by
  change round.toNat * 7919 < 18446744073709551616 ↔ _
  omega

theorem playOn_eq_play {m : Parcel.Machine} {round : UInt64}
    (holds : m.wraps ∨ round.toNat ≤ 2329428472497733) (listener : L → Listener (Session L σ)) :
    playOn m listener round = play listener round := by
  rw [← mul_stride_lt_size_iff] at holds
  funext s
  have multiplied : (product m round stride : Act (Session L σ) UInt64) s =
      .ok (round * stride) s := by
    rw [product, if_pos holds]
    rfl
  rw [playOn, Act.bind_apply (Act.discard_apply multiplied)]

/-- On a machine that stops at an overflow a later round ends at the product, whatever the listeners
would do. None of them is called, and the roster and the state around it are as they were. -/
theorem stops_before_first_event {m : Parcel.Machine} {round : UInt64} (stops : m.wraps = false)
    (late : 2329428472497733 < round.toNat) (listener : L → Listener (Session L σ))
    (calls : Session.Calls L) (s : Session L σ) :
    playOn m (Session.watched listener) round (s.withCalls calls) =
      .error overflow (s.withCalls calls) := by
  have lost : ¬ (m.wraps ∨ round.toNat * stride.toNat < UInt64.size) := by
    rw [mul_stride_lt_size_iff, stops, not_or, Nat.not_le]
    exact ⟨Bool.false_ne_true, late⟩
  rw [playOn, product, if_neg lost]
  rfl

end StorageBus.CardCycle

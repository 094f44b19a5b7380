import StorageBus.Proofs.Codec.Grammar
import StorageBus.Proofs.Codec.UnknownFields

/-!
# Records that evolve

A reader gets along with messages that were written by a later schema. The fields of a record may
come in any order, with fields in between that the reader's schema does not declare, and the record
is read as if it stood alone. This holds in an event as well, where further arguments follow. Of two
messages one behind the other, each field has the later value unless that is left out.

## Main definitions

* `Schema.LooseForm` — a message with its fields in any order and others between them.
* `Schema.Overlays` — a record with some fields taken over from another.
* `Event.putWith` — the arguments of an event with other bytes for the message of its record.

## Main results

* `Schema.decodeOnto_parts` — what reading the fields of a record makes of the one read so far.
* `Event.records_evolve` — reading of loose forms, alone and in events, and of two messages.
-/
namespace StorageBus

namespace Message

namespace Schema

variable {α : Type} {s : Schema α} {r target m : α}

/-- The message of the record with its fields in any order, and before, between and behind them any
fields with tags that the schema leaves free. -/
def LooseForm (s : Schema α) (r : α) (body : Bytes) : Prop :=
  ∃ (front : Bytes) (parts : List (Field α × Bytes)), (parts.map (·.1)).Perm s.fields ∧
    Fields s.Undeclared maxDepth front ∧ (∀ p ∈ parts, Fields s.Undeclared maxDepth p.2) ∧
    body = front ++ parts.flatMap fun p => p.1.encode r ++ p.2

/-- The record `m` has what these fields hold in `r`, unless it is the default, and is else like
`target`. -/
structure Overlays (s : Schema α) (r : α) (fields : List (Field α)) (target m : α) : Prop where
  taken : ∀ f ∈ fields, ¬ (f.value r).IsDefault → f.value m = f.value r
  left : ∀ f ∈ s.fields, f ∉ fields ∨ (f.value r).IsDefault → f.value m = f.value target

/-- A field that is left out changes nothing. -/
theorem Overlays.leftOut {f : Field α} {fields : List (Field α)}
    (h : s.Overlays r fields target m) (isDefault : (f.value r).IsDefault) :
    s.Overlays r (f :: fields) target m where
  taken g mem needed := by
    rcases List.mem_cons.mp mem with rfl | mem
    · exact absurd isDefault needed
    · exact h.taken g mem needed
  left g declared untouched :=
    h.left g declared (untouched.imp_left fun new mem => new (List.mem_cons_of_mem f mem))

/-- A field that is written is copied first, and nothing behind it takes that back. -/
theorem Overlays.copied {f : Field α} {fields : List (Field α)} (lawful : s.Lawful)
    (declared : f ∈ s.fields) (needed : ¬ (f.value r).IsDefault)
    (h : s.Overlays r fields (f.copy r target) m) : s.Overlays r (f :: fields) target m where
  taken g mem needed := by
    by_cases again : g ∈ fields
    · exact h.taken g again needed
    · obtain rfl : g = f := (List.mem_cons.mp mem).resolve_right again
      rw [h.left g declared (.inl again), lawful.value_copy g declared]
  left g declared' untouched := by
    have other : f.tag ≠ g.tag := by
      intro same
      obtain rfl := lawful.eq_of_tag_eq declared declared' same
      exact untouched.elim (fun new => new List.mem_cons_self) needed
    have kept := untouched.imp_left fun new mem => new (List.mem_cons_of_mem f mem)
    rw [h.left g declared' kept, lawful.value_copy_of_ne f declared g declared' other]

/-- Reading fields of a record, with others behind each, lays them over the one read so far. -/
theorem decodeOnto_parts (lawful : s.Lawful) {parts : List (Field α × Bytes)}
    (declared : ∀ p ∈ parts, p.1 ∈ s.fields)
    (gaps : ∀ p ∈ parts, Fields s.Undeclared maxDepth p.2)
    (small : ∀ p ∈ parts, (p.1.encode r).length < 1 <<< 64) (target : α) (rest : Bytes) :
    ∃ m, s.Overlays r (parts.map (·.1)) target m ∧
      s.decodeOnto target ((parts.flatMap fun p => p.1.encode r ++ p.2) ++ rest) =
        s.decodeOnto m rest := by
  induction parts generalizing target with
  | nil => exact ⟨target, ⟨by simp, fun f _ _ => rfl⟩, rfl⟩
  | cons part parts ih =>
    obtain ⟨f, gap⟩ := part
    rw [List.forall_mem_cons] at declared gaps small
    obtain ⟨hf, declared⟩ := declared
    obtain ⟨gap, gaps⟩ := gaps
    obtain ⟨few, small⟩ := small
    have passed := gap.decodeOnto_eq rfl fun _ free => free
    simp only [List.flatMap_cons, List.map_cons, List.append_assoc]
    by_cases isDefault : (f.value r).IsDefault
    · obtain ⟨m, overlays, decodes⟩ := ih declared gaps small target
      rw [Field.encode_of_isDefault isDefault, List.nil_append, passed]
      exact ⟨m, overlays.leftOut isDefault, decodes⟩
    · obtain ⟨m, overlays, decodes⟩ := ih declared gaps small (f.copy r target)
      have written : f.encode r ≠ [] := by
        rw [Field.encode_of_not_isDefault isDefault]
        exact List.append_ne_nil_of_left_ne_nil (key_ne_nil _ _) _
      obtain ⟨bytes, eq, read⟩ := (f.read_encode r few).resolve_left written
      rw [eq, decodeOnto_field lawful hf (read _ _), passed]
      exact ⟨m, overlays.copied lawful hf isDefault, decodes⟩

theorem Overlays.eq_of_blank (lawful : s.Lawful) {fields : List (Field α)}
    (all : s.fields ⊆ fields) (h : s.Overlays r fields s.blank m) : m = r := by
  refine lawful.ext m r fun f declared => ?_
  by_cases isDefault : (f.value r).IsDefault
  · rw [h.left f declared (.inr isDefault)]
    exact Field.value_eq_of_left_out (lawful.encode_blank f declared)
      (Field.encode_of_isDefault isDefault)
  · exact h.taken f (all declared) isDefault

/-- The fields of a record in any order, with any others between them, read as the record. -/
theorem decode_of_looseForm (lawful : s.Lawful) {body : Bytes} (hasForm : s.LooseForm r body)
    (small : body.length < 1 <<< 64) : s.decode body = .ok r := by
  obtain ⟨front, parts, perm, before, gaps, rfl⟩ := hasForm
  have declared (p) (mem : p ∈ parts) : p.1 ∈ s.fields :=
    perm.subset (List.mem_map_of_mem mem)
  have short (p) (mem : p ∈ parts) : (p.1.encode r).length < 1 <<< 64 := by
    have inside := (List.sublist_flatten_of_mem
      (List.mem_map_of_mem (f := fun p : Field α × Bytes => p.1.encode r ++ p.2) mem)).length_le
    rw [List.length_append, List.flatMap] at small
    rw [List.length_append] at inside
    omega
  obtain ⟨m, overlays, decodes⟩ := decodeOnto_parts lawful declared gaps short s.blank []
  rw [List.append_nil, decodeOnto_nil] at decodes
  obtain rfl := overlays.eq_of_blank lawful perm.symm.subset
  rw [decode, before.decodeOnto_eq rfl fun _ free => free, decodes]

/-- Reading the message of a record onto another. -/
theorem decodeOnto_encode_append (lawful : s.Lawful) (small : (s.encode r).length < 1 <<< 64)
    (target : α) (rest : Bytes) : ∃ m, s.Overlays r s.fields target m ∧
      s.decodeOnto target (s.encode r ++ rest) = s.decodeOnto m rest := by
  have short (f) (mem : f ∈ s.fields) : (f.encode r).length < 1 <<< 64 := by
    have inside := List.sublist_flatten_of_mem (List.mem_map_of_mem (f := (·.encode r)) mem)
    exact Nat.lt_of_le_of_lt inside.length_le small
  -- its fields, with nothing behind each
  let parts : List (Field α × Bytes) := s.fields.map fun f => (f, [])
  have fields : parts.map (·.1) = s.fields := by simp [parts, Function.comp_def]
  have bytes : (parts.flatMap fun p => p.1.encode r ++ p.2) = s.encode r := by
    simp [parts, List.flatMap_map, encode]
  have declared : ∀ p ∈ parts, p.1 ∈ s.fields := by simp [parts]
  have gaps : ∀ p ∈ parts, Fields s.Undeclared maxDepth p.2 := by simp [parts, Fields.nil]
  have small : ∀ p ∈ parts, (p.1.encode r).length < 1 <<< 64 := by simpa [parts] using short
  have read := decodeOnto_parts lawful declared gaps small target rest
  rwa [fields, bytes] at read

/-- Of two messages one behind the other, a field has its value in the second record unless that is
the default, and then its value in the first. -/
theorem decode_encode_append (lawful : s.Lawful) (a b : α)
    (small : (s.encode a ++ s.encode b).length < 1 <<< 64) :
    ∃ m, s.Overlays b s.fields a m ∧ s.decode (s.encode a ++ s.encode b) = .ok m := by
  rw [List.length_append] at small
  obtain ⟨first, overlays, decodes⟩ := decodeOnto_encode_append lawful (r := a) (by omega) s.blank
    (s.encode b)
  obtain rfl := overlays.eq_of_blank lawful (List.Subset.refl _)
  obtain ⟨m, overlays, decodes'⟩ := decodeOnto_encode_append lawful (r := b) (by omega) first []
  rw [List.append_nil, decodeOnto_nil] at decodes'
  exact ⟨m, overlays, by rw [decode, decodes, decodes']⟩

/-- A reader by this schema gets along with messages by later ones. -/
structure Evolves (s : Schema α) : Prop where
  /-- The fields of a record in any order, with fields between them that are not declared. -/
  reads : ∀ r body, s.LooseForm r body → body.length < 1 <<< 64 → s.decode body = .ok r
  /-- Two messages one behind the other. -/
  merges : ∀ a b, (s.encode a ++ s.encode b).length < 1 <<< 64 →
    ∃ m, s.decode (s.encode a ++ s.encode b) = .ok m ∧ ∀ f ∈ s.fields,
      (¬ (f.value b).IsDefault → f.value m = f.value b) ∧
      ((f.value b).IsDefault → f.value m = f.value a)

theorem Lawful.evolves (lawful : s.Lawful) : s.Evolves where
  reads r body hasForm small := decode_of_looseForm lawful hasForm small
  merges a b small := by
    obtain ⟨m, overlays, decodes⟩ := decode_encode_append lawful a b small
    refine ⟨m, decodes, fun f declared => ⟨overlays.taken f declared, fun isDefault => ?_⟩⟩
    exact overlays.left f declared (.inr isDefault)

end Schema

end Message

open Message Parcel

/-! ## Events -/

/-- A record with these bytes for its message. -/
def Parcel.putBody (body : Bytes) (p : Parcel) : Parcel := (p.putInt 1).putBytes (some body)

theorem Parcel.recordForm_putBody {α : Type} {schema : Schema α} {r : α} {body : Bytes}
    (decodes : schema.decode body = .ok r) (countable : body.length < 1 <<< 31) :
    ∃ bs, Appends (Parcel.putBody body) bs ∧ RecordForm schema (some r) bs :=
  ⟨_, (Appends.int 1).comp (.counted body.length body),
    .present rfl ⟨countable, rfl⟩ decodes (.align body)⟩

namespace Event

/-- The message of the record, if the event has one. -/
def message? : Event → Option Bytes
  | volumeStateChanged volume _ _ => volume.map Volume.schema.encode
  | volumeRecordChanged record => record.map KnownVolume.schema.encode
  | diskScanned disk _ => disk.map Disk.schema.encode
  | connectionChanged _ | stateChanged _ _ _ | volumeForgotten _ => none

/-- The event has a record, and this is a message of it with its fields in any order and others
between them. -/
def LooseMessage (body : Bytes) : Event → Prop
  | volumeStateChanged volume _ _ => ∃ v ∈ volume, Volume.schema.LooseForm v body
  | volumeRecordChanged record => ∃ r ∈ record, KnownVolume.schema.LooseForm r body
  | diskScanned disk _ => ∃ d ∈ disk, Disk.schema.LooseForm d body
  | connectionChanged _ | stateChanged _ _ _ | volumeForgotten _ => False

/-- The parcel with the arguments appended, but with these bytes for the message of the record. -/
def putWith (body : Bytes) (p : Parcel) : Event → Parcel
  | volumeStateChanged _ oldState newState =>
    ((p.putBody body).putInt oldState).putInt newState
  | volumeRecordChanged _ => p.putBody body
  | diskScanned _ volumeCount => (p.putBody body).putInt volumeCount
  | connectionChanged connected => (connectionChanged connected).put p
  | stateChanged path oldState newState => (stateChanged path oldState newState).put p
  | volumeForgotten fsUuid => (volumeForgotten fsUuid).put p

theorem putWith_message {e : Event} {own : Bytes} (h : e.message? = some own) (p : Parcel) :
    e.putWith own p = e.put p := by
  cases e with
  | volumeStateChanged volume oldState newState =>
    obtain ⟨v, rfl, rfl⟩ := Option.map_eq_some_iff.mp h
    rfl
  | volumeRecordChanged record =>
    obtain ⟨r, rfl, rfl⟩ := Option.map_eq_some_iff.mp h
    rfl
  | diskScanned disk volumeCount =>
    obtain ⟨d, rfl, rfl⟩ := Option.map_eq_some_iff.mp h
    rfl
  | connectionChanged | stateChanged | volumeForgotten => cases h

theorem form_putWith {e : Event} {body : Bytes} (loose : e.LooseMessage body)
    (countable : body.length < 1 <<< 31) : e.Form (e.putWith body {}).bytes := by
  have small : body.length < 1 <<< 64 := Nat.lt_trans countable (by decide)
  cases e with
  | volumeStateChanged volume oldState newState =>
    obtain ⟨v, rfl, hasForm⟩ := loose
    have decodes := Schema.decode_of_looseForm Volume.schema_lawful hasForm small
    obtain ⟨bs, appends, first⟩ := recordForm_putBody decodes countable
    have bytes := ((appends.comp (.int oldState)).comp (.int newState)).bytes_put {} rfl
    rw [List.nil_append, List.append_assoc] at bytes
    have form : Form (.volumeStateChanged (some v) oldState newState) _ :=
      .volumeStateChanged first rfl rfl
    exact bytes ▸ form
  | volumeRecordChanged record =>
    obtain ⟨r, rfl, hasForm⟩ := loose
    have decodes := Schema.decode_of_looseForm KnownVolume.schema_lawful hasForm small
    obtain ⟨bs, appends, hasForm⟩ := recordForm_putBody decodes countable
    have bytes := appends.bytes_put {} rfl
    have form : Form (.volumeRecordChanged (some r)) _ := .volumeRecordChanged hasForm
    exact bytes ▸ form
  | diskScanned disk volumeCount =>
    obtain ⟨d, rfl, hasForm⟩ := loose
    have decodes := Schema.decode_of_looseForm Disk.schema_lawful hasForm small
    obtain ⟨bs, appends, first⟩ := recordForm_putBody decodes countable
    have bytes := (appends.comp (.int volumeCount)).bytes_put {} rfl
    have form : Form (.diskScanned (some d) volumeCount) _ := .diskScanned first rfl
    exact bytes ▸ form
  | connectionChanged | stateChanged | volumeForgotten => exact loose.elim

/-- The arguments decode to the event, whatever is behind them. -/
theorem decodes_putWith {e : Event} {body : Bytes} (loose : e.LooseMessage body)
    (countable : body.length < 1 <<< 31) (rest : Bytes) :
    Decodes e.code ((e.putWith body {}).bytes ++ rest) e (e.putWith body {}).size := by
  refine decodes_iff.mpr (startsWith_iff.mpr ⟨_, rest, rfl, rfl, rfl, ?_⟩)
  exact form_putWith loose countable

/-- A record is read from its fields in any order with others between them, also in an event, where
the arguments behind it are read as well, and of two messages the later one counts. The bytes of an
event with such a message are those of the event if it is the record's own message. -/
theorem records_evolve :
    Disk.schema.Evolves ∧ Volume.schema.Evolves ∧ KnownVolume.schema.Evolves ∧
    ∀ e : Event,
      (∀ own, e.message? = some own → (e.putWith own {}) = e.encode) ∧
      ∀ body, e.LooseMessage body → body.length < 1 <<< 31 → ∀ rest,
        decode e.code ((e.putWith body {}).bytes ++ rest) = .ok e ∧
        Decodes e.code ((e.putWith body {}).bytes ++ rest) e (e.putWith body {}).size := by
  refine ⟨Disk.schema_lawful.evolves, Volume.schema_lawful.evolves,
    KnownVolume.schema_lawful.evolves, fun e => ⟨fun own message => putWith_message message {},
    fun body loose countable rest => ?_⟩⟩
  have decodes := decodes_putWith loose countable rest
  exact ⟨decode_iff.mpr ⟨_, decodes⟩, decodes⟩

/-- The fields of a disk from the last to the first. Behind one of them is a number under a key with
a byte too many, behind another a group in which there is a tag of a disk and a group without
fields, and bytes are at the end. -/
theorem records_evolve_reversed :
    let number : Bytes := [160, 129, 0, 5]
    let group : Bytes := [251, 1, 13, 1, 2, 3, 4, 19, 20, 252, 1]
    let body : Bytes := [48, 3] ++ number ++ group ++ [16, 5, 10, 1, 100] ++ [58, 2, 8, 9]
    let e : Event := .diskScanned (some { id := "d", flags := 5, volumeCount := 3 }) 7
    e.LooseMessage body ∧ body.length < 1 <<< 31 ∧
      decode 6 ((e.putWith body {}).bytes ++ [1]) = .ok e := by
  intro number group body e
  have free (tag) (h : 6 < tag) : Disk.schema.Undeclared tag := by
    simp [Schema.Undeclared, Disk.schema]
    omega
  have one : Varint.Spells 5 [5] := by decide
  have numberKey : NamesField 20 .varint [160, 129, 0] := by decide
  have numbers : Fields Disk.schema.Undeclared (99 + 1) ([160, 129, 0] ++ ([5] ++ [])) :=
    .scalar numberKey (free 20 (by decide)) (.varint one) (.nil _ _)
  have declared : NamesField 1 .fixed32 [13] := by decide
  have opened : NamesField 2 .startGroup [19] := by decide
  have closed : NamesField 2 .endGroup [20] := by decide
  have inside : Fields (fun _ => True) (98 + 1)
      ([13] ++ ([1, 2, 3, 4] ++ ([19] ++ ([] ++ ([20] ++ []))))) :=
    .scalar declared trivial (.fixed32 rfl)
      (.group opened trivial (.nil _ _) closed (.nil _ _))
  have opened : NamesField 31 .startGroup [251, 1] := by decide
  have closed : NamesField 31 .endGroup [252, 1] := by decide
  have groups : Fields Disk.schema.Undeclared (99 + 1)
      ([251, 1] ++ ([13, 1, 2, 3, 4, 19, 20] ++ ([252, 1] ++ []))) :=
    .group opened (free 31 (by decide)) inside closed (.nil _ _)
  have two : Varint.Spells 2 [2] := by decide
  have bytesKey : NamesField 7 .lengthDelimited [58] := by decide
  have bytes : Fields Disk.schema.Undeclared (99 + 1) ([58] ++ (([2] ++ [8, 9]) ++ [])) :=
    .scalar bytesKey (free 7 (by decide)) (.delimited two) (.nil _ _)
  have loose : e.LooseMessage body := by
    let gaps : List Bytes := [number, group, [], [], [], [58, 2, 8, 9]]
    refine ⟨_, rfl, [], Disk.schema.fields.reverse.zip gaps, ?_, .nil _ _, ?_, ?_⟩
    · exact List.reverse_perm Disk.schema.fields
    · intro p mem
      have gap : p.2 ∈ gaps := (List.of_mem_zip mem).2
      simp only [gaps, List.mem_cons, List.not_mem_nil, or_false] at gap
      rcases gap with eq | eq | eq | eq | eq | eq <;> rw [eq]
      · exact numbers
      · exact groups
      · exact .nil _ _
      · exact .nil _ _
      · exact .nil _ _
      · exact bytes
    · decide +kernel
  have small : body.length < 1 <<< 31 := by decide
  exact ⟨loose, small, ((records_evolve.2.2.2 e).2 body loose small [1]).1⟩

end Event

end StorageBus

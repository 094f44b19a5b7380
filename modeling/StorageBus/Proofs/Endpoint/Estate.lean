import Mathlib.Logic.Function.Basic
import StorageBus.Proofs.Endpoint.Mailboxes

/-!
# Obituaries that act

When an endpoint is killed, the obituaries kept for it are seen to one after the other, in the
middle of the kill. An obituary may do whatever else can be done with the endpoints of a process: it
asks for new ones, calls them, asks for obituaries and kills. Nothing of that interferes with the
kills that are under way, and so every obituary is seen to when its turn comes, and only then.

## Main definitions

* `Rite`, `Rite.perform` — what somebody does with endpoints until it is done.
* `Estate`, `Estate.Deed` — mailboxes, and a record of what was done.
* `Estate.Standing` — how the record of an endpoint goes with what has become of it.
* `Estate.Sound` — the same for all endpoints, while some kills are under way.

## Main results

* `Estate.Sound.perform` — whatever is done, the kills that are under way stay as they are.
-/
namespace StorageBus

/-- What is done with endpoints. Whatever is done next may depend on what came before. -/
inductive Rite (σ : Type) where
  | done
  /-- Changes the state around the endpoints, and goes on with what that was. -/
  | around (f : σ → σ) (next : σ → Rite σ)
  /-- Asks for an endpoint under a handle. There will be one if the handle was not used before. -/
  | enroll (h : Handle) (next : Bool → Rite σ)
  | post (h : Handle) (c : Call) (next : Except Failure Unit → Rite σ)
  /-- Asks for an obituary, which is given the handle when the endpoint dies. -/
  | link (h : Handle) (obituary : Handle → Rite σ) (next : Except Failure Unit → Rite σ)
  | kill (h : Handle) (next : Bool → Rite σ)

/-- An obituary, with the number of the request for it. -/
structure Obituary (σ : Type) where
  ticket : Nat
  rite : Handle → Rite σ

/-- Something that was done with an endpoint, and the answer. -/
inductive Estate.Deed where
  | enrolled (h : Handle)
  | posted (h : Handle) (c : Call) (answer : Except Failure Unit)
  | linked (h : Handle) (ticket : Nat) (answer : Except Failure Unit)
  /-- A kill has begun. -/
  | struck (h : Handle)
  /-- An obituary begins, and is given the handle. -/
  | told (h : Handle) (ticket : Nat)
  /-- A kill has returned. -/
  | killed (h : Handle) (alive : Bool)

/-- Mailboxes with a record of what was done, and the state around them. -/
structure Estate (σ : Type) where
  mail : Mailboxes (Obituary σ) := {}
  /-- The earliest deed first. -/
  deeds : List Estate.Deed := []
  rest : σ

namespace Estate

variable {σ : Type}

/-! ## Deeds -/

namespace Deed

def handle : Deed → Handle
  | enrolled h | posted h _ _ | linked h _ _ | struck h | told h _ | killed h _ => h

/-- A request for an obituary: its number, the handle and the answer. -/
def request? : Deed → Option (Nat × Handle × Except Failure Unit)
  | linked h ticket answer => some (ticket, h, answer)
  | enrolled _ | posted _ _ _ | struck _ | told _ _ | killed _ _ => none

/-- The ticket of an obituary that is kept for an endpoint. -/
def kept? (h : Handle) : Deed → Option Nat
  | linked g ticket (.ok ()) => if g = h then some ticket else none
  | linked _ _ (.error _) | enrolled _ | posted _ _ _ | struck _ | told _ _ | killed _ _ => none

/-- The ticket of an obituary that is given the handle. -/
def told? (h : Handle) : Deed → Option Nat
  | told g ticket => if g = h then some ticket else none
  | enrolled _ | posted _ _ _ | linked _ _ _ | struck _ | killed _ _ => none

/-- Whether a kill of the endpoint begins. -/
def strikes (h : Handle) : Deed → Bool
  | struck g => g = h
  | enrolled _ | posted _ _ _ | linked _ _ _ | told _ _ | killed _ _ => false

/-- Whether a kill of the endpoint returns with the answer. -/
def returns (h : Handle) (alive : Bool) : Deed → Bool
  | killed g answer => g = h && answer = alive
  | enrolled _ | posted _ _ _ | linked _ _ _ | struck _ | told _ _ => false

/-- What a dead endpoint answers to calls and requests. Calls that are too large are not looked at
any further. -/
def Refused (h : Handle) : Deed → Prop
  | posted g c answer => g = h →
    answer = .error (if maxParcelSize < c.bytes.length then .tooLarge c.bytes.length maxParcelSize
      else .deadObject)
  | linked g _ answer => g = h → answer = .error .deadObject
  | enrolled _ | struck _ | told _ _ | killed _ _ => True

end Deed

/-- All requests for obituaries. -/
def requests (deeds : List Deed) : List (Nat × Handle × Except Failure Unit) :=
  deeds.filterMap Deed.request?

/-- The obituaries that are kept for an endpoint, in the order of their requests. -/
def kept (h : Handle) (deeds : List Deed) : List Nat := deeds.filterMap (Deed.kept? h)

/-- The obituaries that were given the handle, in this order. -/
def told (h : Handle) (deeds : List Deed) : List Nat := deeds.filterMap (Deed.told? h)

/-- How many kills of an endpoint have begun. -/
def strikes (h : Handle) (deeds : List Deed) : Nat := deeds.countP (Deed.strikes h)

/-- How many kills of an endpoint have returned with the answer. -/
def returns (h : Handle) (alive : Bool) (deeds : List Deed) : Nat :=
  deeds.countP (Deed.returns h alive)

/-- A kill has begun when there was such an endpoint. -/
def Struck (h : Handle) (deeds : List Deed) : Prop :=
  ∃ before after, deeds = before ++ .struck h :: after ∧ .enrolled h ∈ before

/-- Since an obituary was given the handle the endpoint refuses everything. -/
def Refuses (h : Handle) (deeds : List Deed) : Prop :=
  ∀ before ticket after, deeds = before ++ .told h ticket :: after → ∀ d ∈ after, d.Refused h

/-! ## Operations -/

def mailPart : Part (Estate σ) (Mailboxes (Obituary σ)) := ⟨mail, fun v s => { s with mail := v }⟩

def note (d : Deed) (s : Estate σ) : Estate σ := { s with deeds := s.deeds ++ [d] }

def enroll (h : Handle) (s : Estate σ) : Bool × Estate σ :=
  if (Table.find? h s.mail.boxes).isSome then (false, s)
  else (true, note (.enrolled h) { s with mail := s.mail.enroll h })

def post (h : Handle) (c : Call) (s : Estate σ) : Except Failure Unit × Estate σ :=
  let (answer, s) := mailPart.lift (Mailboxes.post h c) s
  (answer, note (.posted h c answer) s)

def link (h : Handle) (rite : Handle → Rite σ) (s : Estate σ) : Except Failure Unit × Estate σ :=
  let ticket := (requests s.deeds).length
  let (answer, s) := mailPart.lift (Mailboxes.link h ⟨ticket, rite⟩) s
  (answer, note (.linked h ticket answer) s)

theorem lift_close_of_dead {s : Estate σ} {h : Handle} (dead : s.mail.isAlive h = false) :
    mailPart.lift (Mailboxes.close h) s = (none, s) := by
  simp only [Part.lift, mailPart, Mailboxes.close_of_dead dead]

theorem lift_close_of_ends {s : Estate σ} {h : Handle} {obituaries : List (Obituary σ)}
    (alive : s.mail.ends h = some (true, obituaries)) :
    mailPart.lift (Mailboxes.close h) s = (some obituaries, { s with
      mail := s.mail.update h fun b => { b with isOpen := false, obituaries := [] } }) := by
  simp only [Part.lift, mailPart, Mailboxes.close_of_ends alive]

end Estate

open Estate

variable {σ : Type}

namespace Rite

/-- Does what is to be done, and sees to obituaries in the given way. -/
def performWith (see : Handle → Obituary σ → Act (Estate σ) Unit) : Rite σ → Act (Estate σ) Unit
  | done => return
  | around f next => do
    let was := (← get).rest
    modify fun s => { s with rest := f was }
    (next was).performWith see
  | enroll h next => do
    (next (← modifyGet (Estate.enroll h))).performWith see
  | post h c next => do
    (next (← modifyGet (Estate.post h c))).performWith see
  | link h obituary next => do
    (next (← modifyGet (Estate.link h obituary))).performWith see
  | kill h next => do
    modify (note (.struck h))
    let alive ← Mailboxes.kill mailPart see h
    modify (note (.killed h alive))
    (next alive).performWith see

end Rite

/-- Sees to an obituary, which may kill in turn. Kills may nest to the given depth. -/
def Obituary.see : Nat → Handle → Obituary σ → Act (Estate σ) Unit
  | 0, _, _ => throw {}
  | depth + 1, h, o => do
    modify (note (.told h o.ticket))
    (o.rite h).performWith (see depth)

/-- Does what is to be done, and everything that obituaries do in between. -/
def Rite.perform (depth : Nat) (rite : Rite σ) : Act (Estate σ) Unit :=
  rite.performWith (Obituary.see depth)

namespace Estate

/-! ## The record of one endpoint -/

@[simp] theorem requests_append (ds es : List Deed) :
    requests (ds ++ es) = requests ds ++ requests es := List.filterMap_append

@[simp] theorem kept_append (h : Handle) (ds es : List Deed) :
    kept h (ds ++ es) = kept h ds ++ kept h es := List.filterMap_append

@[simp] theorem told_append (h : Handle) (ds es : List Deed) :
    told h (ds ++ es) = told h ds ++ told h es := List.filterMap_append

@[simp] theorem strikes_append (h : Handle) (ds es : List Deed) :
    strikes h (ds ++ es) = strikes h ds + strikes h es := List.countP_append

@[simp] theorem returns_append (h : Handle) (alive : Bool) (ds es : List Deed) :
    returns h alive (ds ++ es) = returns h alive ds + returns h alive es := List.countP_append

@[simp] theorem requests_nil : requests [] = [] := rfl

@[simp] theorem kept_nil (h : Handle) : kept h [] = [] := rfl

@[simp] theorem told_nil (h : Handle) : told h [] = [] := rfl

@[simp] theorem strikes_nil (h : Handle) : strikes h [] = 0 := rfl

@[simp] theorem returns_nil (h : Handle) (alive : Bool) : returns h alive [] = 0 := rfl

@[simp] theorem requests_cons (d : Deed) (ds : List Deed) :
    requests (d :: ds) = d.request?.toList ++ requests ds := by
  cases eq : d.request? <;> simp [requests, eq]

@[simp] theorem kept_cons (h : Handle) (d : Deed) (ds : List Deed) :
    kept h (d :: ds) = (d.kept? h).toList ++ kept h ds := by
  cases eq : d.kept? h <;> simp [kept, eq]

@[simp] theorem told_cons (h : Handle) (d : Deed) (ds : List Deed) :
    told h (d :: ds) = (d.told? h).toList ++ told h ds := by
  cases eq : d.told? h <;> simp [told, eq]

@[simp] theorem strikes_cons (h : Handle) (d : Deed) (ds : List Deed) :
    strikes h (d :: ds) = strikes h ds + (d.strikes h).toNat := by
  cases eq : d.strikes h <;> simp [strikes, eq]

@[simp] theorem returns_cons (h : Handle) (alive : Bool) (d : Deed) (ds : List Deed) :
    returns h alive (d :: ds) = returns h alive ds + (d.returns h alive).toNat := by
  cases eq : d.returns h alive <;> simp [returns, eq]

variable {h : Handle} {deeds : List Deed} {d : Deed}

/-- A record that ends with a deed, around another one. -/
theorem split_concat {e : Deed} {before after : List Deed}
    (eq : deeds ++ [d] = before ++ e :: after) :
    (deeds = before ∧ d = e ∧ after = []) ∨
      ∃ after', after = after' ++ [d] ∧ deeds = before ++ e :: after' := by
  rcases List.eq_nil_or_concat after with rfl | ⟨after', last, rfl⟩
  · obtain ⟨same, last⟩ := List.append_inj' eq rfl
    exact .inl ⟨same, (List.cons.inj last).1, rfl⟩
  · rw [List.concat_eq_append] at eq ⊢
    rw [← List.cons_append, ← List.append_assoc] at eq
    obtain ⟨same, last⟩ := List.append_inj' eq rfl
    exact .inr ⟨after', by rw [(List.cons.inj last).1], same⟩

theorem struck_concat :
    Struck h (deeds ++ [d]) ↔ Struck h deeds ∨ (d = .struck h ∧ .enrolled h ∈ deeds) := by
  constructor
  · rintro ⟨before, after, eq, came⟩
    rcases split_concat eq with ⟨rfl, rfl, -⟩ | ⟨after', -, rfl⟩
    · exact .inr ⟨rfl, came⟩
    · exact .inl ⟨before, after', rfl, came⟩
  · rintro (⟨before, after, rfl, came⟩ | ⟨rfl, came⟩)
    · exact ⟨before, after ++ [d], by simp, came⟩
    · exact ⟨deeds, [], rfl, came⟩

theorem Struck.concat (struck : Struck h deeds) (d : Deed) : Struck h (deeds ++ [d]) :=
  struck_concat.mpr (.inl struck)

theorem Refuses.concat (refuses : Refuses h deeds) (d : Deed) (refused : d.Refused h) :
    Refuses h (deeds ++ [d]) := by
  intro before ticket after eq e mem
  rcases split_concat eq with ⟨-, -, rfl⟩ | ⟨after', rfl, rfl⟩
  · cases mem
  · rcases List.mem_append.mp mem with mem | mem
    · exact refuses before ticket after' rfl e mem
    · rw [List.mem_singleton.mp mem]
      exact refused

theorem refuses_of_untold (untold : told h deeds = []) : Refuses h deeds := by
  rintro before ticket after rfl
  simp [told, Deed.told?] at untold

/-- How the record of an endpoint goes with whether it is alive and what is kept for it, if there is
such an endpoint, and with the obituaries that a kill of it has still to see to, if one is under
way. -/
inductive Standing (h : Handle) :
    Option (List Nat) → Option (Bool × List (Obituary σ)) → List Deed → Prop where
  | unborn {deeds : List Deed} (never : .enrolled h ∉ deeds) (unstruck : ¬ Struck h deeds)
    (unkept : kept h deeds = []) (untold : told h deeds = [])
    (lost : returns h true deeds = 0)
    (even : strikes h deeds = returns h false deeds) :
    Standing h none none deeds
  | alive {deeds : List Deed} {obituaries : List (Obituary σ)} (came : .enrolled h ∈ deeds)
    (unstruck : ¬ Struck h deeds) (all : kept h deeds = obituaries.map (·.ticket))
    (untold : told h deeds = []) (lost : returns h true deeds = 0)
    (even : strikes h deeds = returns h false deeds) :
    Standing h none (some (true, obituaries)) deeds
  | dying {deeds : List Deed} {obituaries : List (Obituary σ)} {left : List Nat}
    (struck : Struck h deeds) (all : kept h deeds = told h deeds ++ left)
    (lost : returns h true deeds = 0)
    (odd : strikes h deeds = returns h false deeds + 1)
    (refuses : Refuses h deeds) : Standing h (some left) (some (false, obituaries)) deeds
  | dead {deeds : List Deed} {obituaries : List (Obituary σ)} (struck : Struck h deeds)
    (all : kept h deeds = told h deeds) (lost : returns h true deeds = 1)
    (odd : strikes h deeds = returns h false deeds + 1)
    (refuses : Refuses h deeds) : Standing h none (some (false, obituaries)) deeds

/-- A deed that does not change what becomes of the endpoint. -/
structure Deed.Silent (h : Handle) (d : Deed) : Prop where
  kept : d.kept? h = none
  told : d.told? h = none
  strikes : d.strikes h = false
  returns : ∀ alive, d.returns h alive = false
  enrolled : d ≠ .enrolled h
  struck : d ≠ .struck h

theorem Deed.silent_of_ne (other : d.handle ≠ h) : d.Silent h := by
  cases d with
  | linked g ticket answer =>
    have ne : g ≠ h := other
    cases answer <;> constructor <;> simp [kept?, told?, strikes, returns, ne]
  | _ =>
    constructor <;> simp_all [kept?, told?, strikes, returns, handle]

namespace Standing

variable {left : Option (List Nat)} {ends : Option (Bool × List (Obituary σ))}

theorem silent (standing : Standing h left ends deeds) (silent : d.Silent h)
    (refused : ends.any (·.1) = false → d.Refused h) : Standing h left ends (deeds ++ [d]) := by
  obtain ⟨noKept, noTold, noStrike, noReturn, noEnroll, noStruck⟩ := silent
  have struck_iff : Struck h (deeds ++ [d]) ↔ Struck h deeds := by
    rw [struck_concat, or_iff_left fun ⟨eq, _⟩ => noStruck eq]
  have kept_eq : kept h (deeds ++ [d]) = kept h deeds := by simp [noKept]
  have told_eq : told h (deeds ++ [d]) = told h deeds := by simp [noTold]
  have strikes_eq : strikes h (deeds ++ [d]) = strikes h deeds := by simp [noStrike]
  have returns_eq (alive : Bool) : returns h alive (deeds ++ [d]) = returns h alive deeds := by
    simp [noReturn]
  cases standing with
  | unborn never unstruck unkept untold lost even =>
    refine .unborn ?_ (mt struck_iff.mp unstruck) (kept_eq.trans unkept) (told_eq.trans untold)
      ((returns_eq true).trans lost) (by rw [strikes_eq, returns_eq, even])
    simp [never, Ne.symm noEnroll]
  | alive came unstruck all untold lost even =>
    exact .alive (List.mem_append_left _ came) (mt struck_iff.mp unstruck) (kept_eq.trans all)
      (told_eq.trans untold) ((returns_eq true).trans lost) (by rw [strikes_eq, returns_eq, even])
  | dying struck all lost odd refuses =>
    exact .dying (struck_iff.mpr struck) (by rw [kept_eq, told_eq, all])
      ((returns_eq true).trans lost) (by rw [strikes_eq, returns_eq, odd])
      (refuses.concat d (refused rfl))
  | dead struck all lost odd refuses =>
    exact .dead (struck_iff.mpr struck) (by rw [kept_eq, told_eq, all])
      ((returns_eq true).trans lost) (by rw [strikes_eq, returns_eq, odd])
      (refuses.concat d (refused rfl))

theorem enroll (standing : Standing (σ := σ) h left none deeds) :
    Standing (σ := σ) h left (some (true, [])) (deeds ++ [.enrolled h]) := by
  cases standing with
  | unborn never unstruck unkept untold lost even =>
    refine .alive (by simp) ?_ ?_ ?_ ?_ ?_
    · simpa [struck_concat] using unstruck
    · simpa [Deed.kept?] using unkept
    · simpa [Deed.told?] using untold
    · simpa [Deed.returns] using lost
    · simpa [Deed.returns, Deed.strikes] using even

theorem keep {obituaries : List (Obituary σ)} (o : Obituary σ)
    (standing : Standing h left (some (true, obituaries)) deeds) :
    Standing h left (some (true, obituaries ++ [o])) (deeds ++ [.linked h o.ticket (.ok ())]) := by
  cases standing with
  | alive came unstruck all untold lost even =>
    refine .alive (List.mem_append_left _ came) ?_ ?_ ?_ ?_ ?_
    · simpa [struck_concat] using unstruck
    · simp [Deed.kept?, all]
    · simpa [Deed.told?] using untold
    · simpa [Deed.returns] using lost
    · simpa [Deed.returns, Deed.strikes] using even

/-- A kill of an endpoint that is not alive begins and returns at once. -/
theorem miss (standing : Standing h left ends deeds) (gone : ends.any (·.1) = false) :
    Standing h left ends (deeds ++ [.struck h] ++ [.killed h false]) := by
  cases standing with
  | unborn never unstruck unkept untold lost even =>
    refine .unborn (by simp [never]) ?_ ?_ ?_ ?_ ?_
    · rw [struck_concat, struck_concat]
      simp [unstruck, never]
    · simp [Deed.kept?, unkept]
    · simp [Deed.told?, untold]
    · simp [Deed.returns, lost]
    · simp [Deed.returns, Deed.strikes, even]
  | alive => cases gone
  | dying struck all lost odd refuses =>
    have refuses := (refuses.concat (.struck h) trivial).concat (.killed h false) trivial
    refine .dying ((struck.concat _).concat _) ?_ ?_ ?_ refuses
    · simp [Deed.kept?, Deed.told?, all]
    · simp [Deed.returns, lost]
    · simp [Deed.returns, Deed.strikes, odd]
  | dead struck all lost odd refuses =>
    have refuses := (refuses.concat (.struck h) trivial).concat (.killed h false) trivial
    refine .dead ((struck.concat _).concat _) ?_ ?_ ?_ refuses
    · simp [Deed.kept?, Deed.told?, all]
    · simp [Deed.returns, lost]
    · simp [Deed.returns, Deed.strikes, odd]

/-- A kill of a live endpoint begins, and its obituaries are to be seen to. -/
theorem strike {obituaries : List (Obituary σ)}
    (standing : Standing h left (some (true, obituaries)) deeds) :
    Standing (σ := σ) h (some (obituaries.map (·.ticket))) (some (false, []))
      (deeds ++ [.struck h]) := by
  cases standing with
  | alive came unstruck all untold lost even =>
    have stillUntold : told h (deeds ++ [.struck h]) = [] := by simp [Deed.told?, untold]
    refine .dying (struck_concat.mpr (.inr ⟨rfl, came⟩)) ?_ ?_ ?_ (refuses_of_untold stillUntold)
    · simp [stillUntold, Deed.kept?, all]
    · simp [Deed.returns, lost]
    · simp [Deed.returns, Deed.strikes, even]

theorem tell {ticket : Nat} {later : List Nat}
    (standing : Standing h (some (ticket :: later)) ends deeds) :
    Standing h (some later) ends (deeds ++ [.told h ticket]) := by
  cases standing with
  | dying struck all lost odd refuses =>
    refine .dying (struck.concat _) ?_ ?_ ?_ (refuses.concat _ trivial)
    · simp [Deed.kept?, Deed.told?, all]
    · simp [Deed.returns, lost]
    · simp [Deed.returns, Deed.strikes, odd]

/-- A kill returns when all obituaries have been seen to. -/
theorem fall (standing : Standing h (some []) ends deeds) :
    Standing h none ends (deeds ++ [.killed h true]) := by
  cases standing with
  | dying struck all lost odd refuses =>
    refine .dead (struck.concat _) ?_ ?_ ?_ (refuses.concat _ trivial)
    · simpa [Deed.kept?, Deed.told?] using all
    · simp [Deed.returns, lost]
    · simp [Deed.returns, Deed.strikes, odd]

theorem spared (standing : Standing h none ends deeds) (unstruck : ¬ Struck h deeds) :
    told h deeds = [] ∧ returns h true deeds = 0 ∧ strikes h deeds = returns h false deeds := by
  cases standing with
  | unborn never unstruck unkept untold lost even => exact ⟨untold, lost, even⟩
  | alive came unstruck all untold lost even => exact ⟨untold, lost, even⟩
  | dead struck => exact absurd struck unstruck

theorem fallen (standing : Standing h none ends deeds) (struck : Struck h deeds) :
    told h deeds = kept h deeds ∧ returns h true deeds = 1 ∧
      strikes h deeds = returns h false deeds + 1 := by
  cases standing with
  | unborn never unstruck => exact absurd struck unstruck
  | alive came unstruck => exact absurd struck unstruck
  | dead struck all lost odd refuses => exact ⟨all.symm, lost, odd⟩

theorem refuses (standing : Standing h left ends deeds) : Refuses h deeds := by
  cases standing with
  | unborn never unstruck unkept untold => exact refuses_of_untold untold
  | alive came unstruck all untold => exact refuses_of_untold untold
  | dying struck all lost odd refuses => exact refuses
  | dead struck all lost odd refuses => exact refuses

end Standing

/-! ## The record of all endpoints -/

/-- The record goes with the mailboxes, while some kills have still obituaries to see to. -/
structure Sound (left : Handle → Option (List Nat)) (s : Estate σ) : Prop where
  numbered : (requests s.deeds).map (·.1) = List.range (requests s.deeds).length
  answered : ∀ r ∈ requests s.deeds, r.2.2 = .ok () ∨ r.2.2 = .error .deadObject
  standing : ∀ h, Standing h (left h) (s.mail.ends h) s.deeds

namespace Sound

variable {left : Handle → Option (List Nat)} {s : Estate σ}

theorem start (rest : σ) : Sound (fun _ => none) ({ rest } : Estate σ) where
  numbered := rfl
  answered := by simp
  standing h := by
    refine .unborn (by simp) ?_ rfl rfl rfl rfl
    rintro ⟨before, after, eq, -⟩
    simp at eq

/-- A deed more. Only the endpoint it is about has to be looked at. -/
theorem concat {m : Mailboxes (Obituary σ)} {left' : Handle → Option (List Nat)} (d : Deed)
    (sound : Sound left s)
    (next : ∀ r ∈ d.request?, r.1 = (requests s.deeds).length ∧
      (r.2.2 = .ok () ∨ r.2.2 = .error .deadObject))
    (others : ∀ g, d.handle ≠ g → left' g = left g ∧ m.ends g = s.mail.ends g)
    (own : Standing d.handle (left' d.handle) (m.ends d.handle) (s.deeds ++ [d])) :
    Sound left' (note d { s with mail := m }) where
  numbered := by
    simp only [note, requests_append, requests_cons, requests_nil, List.append_nil, List.map_append,
      List.length_append, sound.numbered]
    cases eq : d.request? with
    | none => simp
    | some r => simp [List.range_succ, (next r eq).1]
  answered r mem := by
    simp only [note, requests_append, requests_cons, requests_nil, List.append_nil,
      List.mem_append, Option.mem_toList] at mem
    rcases mem with mem | mem
    · exact sound.answered r mem
    · exact (next r mem).2
  standing g := by
    by_cases same : d.handle = g
    · subst same
      exact own
    · obtain ⟨sameLeft, sameEnds⟩ := others g same
      simp only [note, sameLeft, sameEnds]
      have silent := Deed.silent_of_ne same
      refine (sound.standing g).silent silent fun _ => ?_
      cases d <;> simp_all [Deed.Refused, Deed.handle]

theorem enroll (sound : Sound left s) (h : Handle) : Sound left (s.enroll h).2 := by
  rw [Estate.enroll]
  split
  · exact sound
  · next newcomer =>
    have newcomer : Table.find? h s.mail.boxes = none := by simpa using newcomer
    have unborn : s.mail.ends h = none := by rw [Mailboxes.ends, newcomer, Option.map_none]
    refine sound.concat (.enrolled h) (by simp [Deed.request?]) (fun g other => ⟨rfl, ?_⟩) ?_
    · exact (Mailboxes.ends_enroll newcomer g).trans (if_neg (Ne.symm other))
    · have standing := sound.standing h
      rw [unborn] at standing
      rw [Deed.handle, Mailboxes.ends_enroll newcomer, if_pos rfl]
      exact standing.enroll

theorem post (sound : Sound left s) (h : Handle) (c : Call) : Sound left (s.post h c).2 := by
  have ends := Mailboxes.ends_post h c s.mail
  refine sound.concat (m := (s.mail.post h c).2) (.posted h c (s.mail.post h c).1)
    (by simp [Deed.request?]) (fun g _ => ⟨rfl, ends g⟩) ?_
  rw [ends]
  refine (sound.standing h).silent ?_ fun gone _ => ?_
  · constructor <;> simp [Deed.kept?, Deed.told?, Deed.strikes, Deed.returns]
  · have dead : s.mail.isAlive h = false := (s.mail.isAlive_eq_ends h).trans gone
    rw [Mailboxes.post, dead]
    split <;> rfl

theorem link (sound : Sound left s) (h : Handle) (rite : Handle → Rite σ) :
    Sound left (s.link h rite).2 := by
  cases alive : s.mail.isAlive h with
  | false =>
    have refused (o : Obituary σ) : s.mail.link h o = (.error .deadObject, s.mail) := by
      rw [Mailboxes.link, alive]
      rfl
    simp only [Estate.link, Part.lift, mailPart, refused]
    refine sound.concat (.linked h _ _) (by simp [Deed.request?]) (fun _ _ => ⟨rfl, rfl⟩) ?_
    refine (sound.standing h).silent ?_ fun _ _ => rfl
    constructor <;> simp [Deed.kept?, Deed.told?, Deed.strikes, Deed.returns]
  | true =>
    obtain ⟨b, found, isOpen⟩ := Mailboxes.isAlive_iff.mp alive
    have kept (o : Obituary σ) : s.mail.link h o =
        (.ok (), s.mail.update h fun b => { b with obituaries := b.obituaries ++ [o] }) := by
      rw [Mailboxes.link, alive]
      rfl
    simp only [Estate.link, Part.lift, mailPart, kept]
    refine sound.concat (.linked h _ _) (by simp [Deed.request?])
      (fun g other => ⟨rfl, Mailboxes.ends_update_of_ne (Ne.symm other) _ _⟩) ?_
    have standing := sound.standing h
    rw [Mailboxes.ends, found, Option.map_some, isOpen] at standing
    rw [Deed.handle, Mailboxes.ends_update_self, found, Option.map_some, isOpen]
    exact standing.keep ⟨_, rite⟩

/-! ### Kills -/

theorem miss {h : Handle} (sound : Sound left s) (dead : s.mail.isAlive h = false) :
    Sound left (note (.killed h false) (note (.struck h) s)) where
  numbered := by simpa [note, Deed.request?] using sound.numbered
  answered := by simpa [note, Deed.request?] using sound.answered
  standing g := by
    by_cases same : h = g
    · subst same
      exact (sound.standing h).miss ((s.mail.isAlive_eq_ends h).symm.trans dead)
    · have struck := (sound.standing g).silent (d := .struck h) (Deed.silent_of_ne same)
        fun _ => trivial
      exact struck.silent (Deed.silent_of_ne same) fun _ => trivial

theorem strike {h : Handle} {obituaries : List (Obituary σ)} (sound : Sound left s)
    (alive : s.mail.ends h = some (true, obituaries)) :
    left h = none ∧ Sound (Function.update left h (some (obituaries.map (·.ticket))))
      (note (.struck h) { s with
        mail := s.mail.update h fun b => { b with isOpen := false, obituaries := [] } }) := by
  have standing := sound.standing h
  rw [alive] at standing
  refine ⟨by generalize left h = own at standing; cases standing; rfl, ?_⟩
  refine sound.concat (.struck h) (by simp [Deed.request?]) (fun g other => ⟨?_, ?_⟩) ?_
  · exact Function.update_of_ne (Ne.symm other) _ _
  · exact Mailboxes.ends_update_of_ne (Ne.symm other) _ _
  · obtain ⟨b, found, -⟩ := Option.map_eq_some_iff.mp alive
    rw [Deed.handle, Mailboxes.ends_update_self, found, Option.map_some, Function.update_self]
    exact standing.strike

theorem tell {h : Handle} {ticket : Nat} {later : List Nat} (sound : Sound left s)
    (due : left h = some (ticket :: later)) :
    Sound (Function.update left h (some later)) (note (.told h ticket) s) := by
  refine sound.concat (.told h ticket) (by simp [Deed.request?])
    (fun g other => ⟨Function.update_of_ne (Ne.symm other) _ _, rfl⟩) ?_
  have standing := sound.standing h
  rw [due] at standing
  rw [Deed.handle, Function.update_self]
  exact standing.tell

theorem fall {h : Handle} (sound : Sound left s) (due : left h = some []) :
    Sound (Function.update left h none) (note (.killed h true) s) := by
  refine sound.concat (.killed h true) (by simp [Deed.request?])
    (fun g other => ⟨Function.update_of_ne (Ne.symm other) _ _, rfl⟩) ?_
  have standing := sound.standing h
  rw [due] at standing
  rw [Deed.handle, Function.update_self]
  exact standing.fall

/-! ### Runs -/

/-- Seeing to an obituary that is due changes nothing else about the kills that are under way. -/
def KeptBy (see : Handle → Obituary σ → Act (Estate σ) Unit) : Prop :=
  ∀ {left : Handle → Option (List Nat)} {h : Handle} {o : Obituary σ} {later : List Nat}
    {s t : Estate σ}, Sound left s → left h = some (o.ticket :: later) → see h o s = .ok () t →
    Sound (Function.update left h (some later)) t

theorem forM {see : Handle → Obituary σ → Act (Estate σ) Unit} (kept : KeptBy see) {h : Handle}
    {obituaries : List (Obituary σ)} {t : Estate σ} (sound : Sound left s)
    (due : left h = some (obituaries.map (·.ticket)))
    (ok : obituaries.forM (see h) s = .ok () t) : Sound (Function.update left h (some [])) t := by
  induction obituaries generalizing left s with
  | nil =>
    cases ok
    rwa [Function.update_eq_self_iff.mpr due.symm]
  | cons o later ih =>
    obtain ⟨_, u, seen, rest⟩ := Act.of_bind ok
    have sound := ih (kept sound due seen) (Function.update_self ..) rest
    rwa [Function.update_idem] at sound

theorem kill {see : Handle → Obituary σ → Act (Estate σ) Unit} (kept : KeptBy see) {h : Handle}
    {alive : Bool} {t : Estate σ} (sound : Sound left s)
    (ok : Mailboxes.kill mailPart see h (note (.struck h) s) = .ok alive t) :
    Sound left (note (.killed h alive) t) := by
  cases found : s.mail.isAlive h with
  | false =>
    rw [Mailboxes.kill_of_none (lift_close_of_dead (s := note (.struck h) s) found)] at ok
    cases ok
    exact sound.miss found
  | true =>
    obtain ⟨obituaries, ends⟩ := Mailboxes.isAlive_iff_ends.mp found
    obtain ⟨undue, struck⟩ := sound.strike ends
    have shut := lift_close_of_ends (s := note (.struck h) s) ends
    rcases Mailboxes.of_kill ok with ⟨closed, -⟩ | ⟨obituaries', u, closed, seen, rfl⟩
    · cases shut.symm.trans closed
    · obtain ⟨same, rfl⟩ := Prod.mk.inj (shut.symm.trans closed)
      cases same
      have seen := forM kept struck (Function.update_self ..) seen
      rw [Function.update_idem] at seen
      have fallen := seen.fall (Function.update_self ..)
      rwa [Function.update_idem, Function.update_eq_self_iff.mpr undue.symm] at fallen

theorem performWith {see : Handle → Obituary σ → Act (Estate σ) Unit} (kept : KeptBy see)
    (rite : Rite σ) {t : Estate σ} (sound : Sound left s) (ok : rite.performWith see s = .ok () t) :
    Sound left t := by
  induction rite generalizing s with
  | done =>
    cases ok
    exact sound
  | around f next ih =>
    have sound : Sound left { s with rest := f s.rest } :=
      ⟨sound.numbered, sound.answered, sound.standing⟩
    exact ih s.rest sound ok
  | enroll h next ih => exact ih _ (sound.enroll h) ok
  | post h c next ih => exact ih _ (sound.post h c) ok
  | link h obituary next _ ih => exact ih _ (sound.link h obituary) ok
  | kill h next ih =>
    obtain ⟨alive, u, killed, ok⟩ := Act.of_bind (s := note (.struck h) s) ok
    exact ih _ (sound.kill kept killed) ok

theorem keptBy_see (depth : Nat) : KeptBy (Obituary.see (σ := σ) depth) := by
  induction depth with
  | zero =>
    intro left h o later s t sound due seen
    cases seen
  | succ depth ih =>
    intro left h o later s t sound due seen
    exact (sound.tell due).performWith ih (o.rite h) seen

theorem perform {depth : Nat} {rite : Rite σ} {t : Estate σ} (sound : Sound left s)
    (ok : rite.perform depth s = .ok () t) : Sound left t :=
  sound.performWith (keptBy_see depth) rite ok

end Sound

end Estate

end StorageBus

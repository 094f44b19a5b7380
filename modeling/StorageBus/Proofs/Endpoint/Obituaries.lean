import Mathlib.Logic.Hydra
import Mathlib.Tactic.Abel
import StorageBus.Proofs.Endpoint.Estate

/-!
# Every obituary once

Whatever is done with the endpoints of a process comes to an end, also if obituaries kill and ask
for further obituaries. When it has ended, an endpoint that was killed had its obituaries seen to,
each of them once and in the order in which they were asked for, and nobody else's were.

A kill takes the obituaries of an endpoint out of the mailboxes and has them done. Each of them may
put others into the mailboxes, but only those that were part of it. So what is still to be done, as
a multiset, gets smaller like a hydra that loses heads.

## Main definitions

* `Rite.Within` — a rite that is part of another one.
* `Mailboxes.pending` — what obituaries would do.
* `Estate.Settled` — what a record shows when all is done.

## Main results

* `Rite.returns` — everything comes to an end.
* `Rite.obituaries_once` — every obituary is seen to once if its endpoint dies, and never otherwise.
* `Rite.lastCall_too_large` — a call to a dead endpoint that is refused for its size.
-/
namespace StorageBus

open Relation

variable {σ : Type}

/-! ## Nesting deeper -/

namespace Rite

/-- Whatever one way to see to obituaries brings to an end, another one does in the same way. -/
def Extends (see deeper : Handle → Obituary σ → Act (Estate σ) Unit) : Prop :=
  ∀ ⦃h : Handle⦄ ⦃o : Obituary σ⦄ ⦃s t : Estate σ⦄, see h o s = .ok () t → deeper h o s = .ok () t

variable {see deeper : Handle → Obituary σ → Act (Estate σ) Unit}

theorem Extends.forM (ext : Extends see deeper) {h : Handle} {obituaries : List (Obituary σ)}
    {s t : Estate σ} (ok : obituaries.forM (see h) s = .ok () t) :
    obituaries.forM (deeper h) s = .ok () t := by
  induction obituaries generalizing s with
  | nil => exact ok
  | cons o later ih =>
    obtain ⟨_, u, seen, rest⟩ := Act.of_bind ok
    exact (Act.bind_apply (ext seen) _).trans (ih rest)

theorem Extends.kill (ext : Extends see deeper) {h : Handle} {alive : Bool} {s t : Estate σ}
    (ok : Mailboxes.kill Estate.mailPart see h s = .ok alive t) :
    Mailboxes.kill Estate.mailPart deeper h s = .ok alive t := by
  rcases Mailboxes.of_kill ok with ⟨closed, rfl⟩ | ⟨obituaries, u, closed, seen, rfl⟩
  · exact Mailboxes.kill_of_none closed
  · exact Mailboxes.kill_of_some closed (ext.forM seen)

theorem Extends.performWith (ext : Extends see deeper) (rite : Rite σ) {s t : Estate σ}
    (ok : rite.performWith see s = .ok () t) : rite.performWith deeper s = .ok () t := by
  induction rite generalizing s with
  | done => exact ok
  | around f next ih => exact ih s.rest (s := { s with rest := f s.rest }) ok
  | enroll h next ih => exact ih _ ok
  | post h c next ih => exact ih _ ok
  | link h obituary next _ ih => exact ih _ ok
  | kill h next ih =>
    obtain ⟨alive, u, killed, ok⟩ := Act.of_bind (s := s.note (.struck h)) ok
    exact (Act.bind_apply (s := s.note (.struck h)) (ext.kill killed) _).trans (ih _ ok)

theorem extends_see (depth : Nat) :
    Extends (Obituary.see (σ := σ) depth) (Obituary.see (depth + 1)) := by
  induction depth with
  | zero =>
    intro h o s t seen
    cases seen
  | succ depth ih =>
    intro h o s t seen
    exact Extends.performWith ih (o.rite h) seen

theorem extends_see_of_le {depth more : Nat} (le : depth ≤ more) :
    Extends (Obituary.see (σ := σ) depth) (Obituary.see more) := by
  induction le with
  | refl => exact fun _ _ _ _ seen => seen
  | step _ ih => exact fun _ _ _ _ seen => extends_see _ (ih seen)

theorem perform_of_le {depth more : Nat} (le : depth ≤ more) {rite : Rite σ} {s t : Estate σ}
    (ok : rite.perform depth s = .ok () t) : rite.perform more s = .ok () t :=
  Extends.performWith (extends_see_of_le le) rite ok

/-! ## What is still to be done -/

/-- What may still be done after the first step of a rite, or by an obituary it asks for. -/
inductive Within : Rite σ → Rite σ → Prop where
  | around (f : σ → σ) (next : σ → Rite σ) (was : σ) : Within (next was) (.around f next)
  | enroll (h : Handle) (next : Bool → Rite σ) (new : Bool) : Within (next new) (.enroll h next)
  | post (h : Handle) (c : Call) (next : Except Failure Unit → Rite σ)
    (answer : Except Failure Unit) : Within (next answer) (.post h c next)
  | link (h : Handle) (obituary : Handle → Rite σ) (next : Except Failure Unit → Rite σ)
    (answer : Except Failure Unit) : Within (next answer) (.link h obituary next)
  | obituary (h g : Handle) (obituary : Handle → Rite σ) (next : Except Failure Unit → Rite σ) :
    Within (obituary g) (.link h obituary next)
  | kill (h : Handle) (next : Bool → Rite σ) (alive : Bool) : Within (next alive) (.kill h next)

theorem wellFounded_within : WellFounded (Within (σ := σ)) := by
  refine ⟨fun rite => ?_⟩
  induction rite with
  | done => exact ⟨_, fun _ within => by cases within⟩
  | around f next ih => exact ⟨_, fun _ within => by cases within; exact ih _⟩
  | enroll h next ih => exact ⟨_, fun _ within => by cases within; exact ih _⟩
  | post h c next ih => exact ⟨_, fun _ within => by cases within; exact ih _⟩
  | link h obituary next ihObituary ihNext =>
    refine ⟨_, fun _ within => ?_⟩
    cases within with
    | link => exact ihNext _
    | obituary => exact ihObituary _
  | kill h next ih => exact ⟨_, fun _ within => by cases within; exact ih _⟩

end Rite

namespace Mailboxes

/-- What the obituaries in a mailbox would do. -/
def dues (h : Handle) (b : Mailbox (Obituary σ)) : Multiset (Rite σ) :=
  if b.isOpen then ↑(b.obituaries.map (·.rite h)) else 0

/-- What the obituaries in all mailboxes would do. -/
def pending (m : Mailboxes (Obituary σ)) : Multiset (Rite σ) :=
  (m.boxes.map fun (h, b) => dues h b).sum

theorem pending_update {m : Mailboxes (Obituary σ)} {h : Handle} {b : Mailbox (Obituary σ)}
    (found : Table.find? h m.boxes = some b) (f : Mailbox (Obituary σ) → Mailbox (Obituary σ)) :
    (m.update h f).pending + dues h b = m.pending + dues h (f b) := by
  obtain ⟨boxes⟩ := m
  simp only [pending, update] at found ⊢
  induction boxes with
  | nil => cases found
  | cons e boxes ih =>
    obtain ⟨key, first⟩ := e
    rw [Table.find?_cons] at found
    rw [Table.update_cons]
    by_cases same : key = h
    · rw [if_pos same, Option.some.injEq] at found
      subst same found
      simp only [↓reduceIte, List.map_cons, List.sum_cons]
      abel
    · rw [if_neg same] at found
      rw [if_neg same]
      simp only [List.map_cons, List.sum_cons, add_assoc, ih found]

/-- A change that keeps what is kept for the end of an endpoint. -/
theorem pending_update_of_dues {m : Mailboxes (Obituary σ)} {h : Handle}
    {b : Mailbox (Obituary σ)} (found : Table.find? h m.boxes = some b)
    {f : Mailbox (Obituary σ) → Mailbox (Obituary σ)} (same : dues h (f b) = dues h b) :
    (m.update h f).pending = m.pending := by
  have moved := pending_update found f
  rw [same] at moved
  exact add_right_cancel moved

theorem pending_enroll (h : Handle) (m : Mailboxes (Obituary σ)) :
    (m.enroll h).pending = m.pending := by
  simp [pending, enroll, Table.add, dues]

theorem pending_post (h : Handle) (c : Call) (m : Mailboxes (Obituary σ)) :
    (m.post h c).2.pending = m.pending := by
  simp only [post]
  split
  · rfl
  · split
    · next alive =>
      obtain ⟨b, found, -⟩ := isAlive_iff.mp alive
      exact pending_update_of_dues found rfl
    · rfl

/-- A request adds what the obituary would do, or nothing. -/
theorem pending_link (h : Handle) (o : Obituary σ) (m : Mailboxes (Obituary σ)) :
    (m.link h o).2.pending ≤ {o.rite h} + m.pending := by
  rw [link]
  split
  · next alive =>
    obtain ⟨b, found, isOpen⟩ := isAlive_iff.mp alive
    have moved := pending_update found fun b => { b with obituaries := b.obituaries ++ [o] }
    have more : dues h { b with obituaries := b.obituaries ++ [o] } = {o.rite h} + dues h b := by
      simp [dues, isOpen, ← Multiset.coe_add, add_comm]
    rw [more, ← add_assoc, add_comm m.pending] at moved
    exact (add_right_cancel moved).le
  · exact Multiset.le_add_left _ _

/-- A kill takes out what the obituaries of the endpoint would do. -/
theorem pending_close {h : Handle} {obituaries : List (Obituary σ)} {m : Mailboxes (Obituary σ)}
    (alive : m.ends h = some (true, obituaries)) :
    (↑(obituaries.map (·.rite h)) +
        (m.update h fun b => { b with isOpen := false, obituaries := [] }).pending :
      Multiset (Rite σ)) = m.pending := by
  obtain ⟨b, found, eq⟩ := Option.map_eq_some_iff.mp alive
  obtain ⟨isOpen, rfl⟩ := Prod.mk.inj eq
  have moved := pending_update found fun b => { b with isOpen := false, obituaries := [] }
  have had : dues h b = ↑(b.obituaries.map (·.rite h)) := if_pos isOpen
  rw [add_comm, ← had, moved]
  exact add_zero _

end Mailboxes

namespace Rite

/-- What there is to be done has become less: of some rites only parts are left, if anything. -/
abbrev AtMost : Multiset (Rite σ) → Multiset (Rite σ) → Prop := ReflTransGen (CutExpand Within)

/-- It has become less by at least one step. -/
abbrev Less : Multiset (Rite σ) → Multiset (Rite σ) → Prop := TransGen (CutExpand Within)

theorem wellFounded_less : WellFounded (Less (σ := σ)) := wellFounded_within.cutExpand.transGen

theorem cutExpand_done (rite : Rite σ) (todo : Multiset (Rite σ)) :
    CutExpand Within todo ({rite} + todo) := by
  have nothing : CutExpand Within 0 {rite} := cutExpand_singleton (by simp)
  simpa using (cutExpand_add_right todo).mpr nothing

theorem atMost_of_le {few many : Multiset (Rite σ)} (le : few ≤ many) : AtMost few many := by
  obtain ⟨more, rfl⟩ := Multiset.le_iff_exists_add.mp le
  clear le
  induction more using Multiset.induction with
  | empty => rw [add_zero]
  | cons rite more ih =>
    rw [← Multiset.singleton_add, add_left_comm]
    exact ih.tail (cutExpand_done rite _)

theorem AtMost.add_left {few many : Multiset (Rite σ)} (atMost : AtMost few many)
    (more : Multiset (Rite σ)) : AtMost (more + few) (more + many) :=
  ReflTransGen.lift (more + ·) (fun _ _ cut => (cutExpand_add_left more).mpr cut) _ _ atMost

/-- The rite comes to an end, with nothing more left to be done than there was before. -/
def Returns (rite : Rite σ) (s : Estate σ) : Prop :=
  ∃ depth t, rite.perform depth s = .ok () t ∧ AtMost t.mail.pending ({rite} + s.mail.pending)

theorem Returns.step {rite next : Rite σ} {s u : Estate σ} (returns : next.Returns u)
    (first : ∀ depth, rite.perform depth s = next.perform depth u)
    (less : Less ({next} + u.mail.pending) ({rite} + s.mail.pending)) : rite.Returns s := by
  obtain ⟨depth, t, ok, atMost⟩ := returns
  exact ⟨depth, t, (first depth).trans ok, atMost.trans less.to_reflTransGen⟩

/-- If whatever does not exceed a bound comes to an end, so do obituaries one after the other. -/
theorem exists_forM_see {most : Multiset (Rite σ)} {h : Handle} {obituaries : List (Obituary σ)}
    {s : Estate σ} (returns : ∀ rite u, AtMost ({rite} + u.mail.pending) most → rite.Returns u)
    (atMost : AtMost (↑(obituaries.map (·.rite h)) + s.mail.pending) most) :
    ∃ depth t, obituaries.forM (Obituary.see depth h) s = .ok () t ∧
      AtMost t.mail.pending most := by
  induction obituaries generalizing s with
  | nil => exact ⟨0, s, rfl, by simpa using atMost⟩
  | cons o later ih =>
    rw [List.map_cons, ← Multiset.cons_coe, ← Multiset.singleton_add, add_assoc, add_left_comm]
      at atMost
    have fewer : AtMost ({o.rite h} + s.mail.pending) most :=
      (atMost_of_le (Multiset.le_add_left _ _)).trans atMost
    obtain ⟨depth, u, ok, less⟩ := returns (o.rite h) (s.note (.told h o.ticket)) fewer
    obtain ⟨depth', t, rest, bound⟩ := ih ((less.add_left _).trans atMost)
    refine ⟨max (depth + 1) depth', t, ?_, bound⟩
    have seen : Obituary.see (depth + 1) h o s = .ok () u := ok
    have seen := extends_see_of_le (le_max_left (depth + 1) depth') seen
    have rest := Extends.forM (extends_see_of_le (le_max_right (depth + 1) depth')) rest
    exact (Act.bind_apply seen _).trans rest

/-- Everything comes to an end. -/
theorem returns (rite : Rite σ) (s : Estate σ) : rite.Returns s := by
  -- by induction on all that there is to be done, here and by the obituaries that are kept
  generalize todo_eq : {rite} + s.mail.pending = todo
  induction todo using wellFounded_less.induction generalizing rite s with
  | _ todo ih =>
    subst todo_eq
    have goOn (next : Rite σ) (u : Estate σ)
        (less : Less ({next} + u.mail.pending) ({rite} + s.mail.pending))
        (first : ∀ depth, rite.perform depth s = next.perform depth u) : rite.Returns s :=
      (ih _ less next u rfl).step first less
    have part {next : Rite σ} (within : Within next rite) :
        CutExpand Within ({next} + s.mail.pending) ({rite} + s.mail.pending) :=
      cutExpand_single_add within _
    cases rite with
    | done => exact ⟨0, s, rfl, atMost_of_le (Multiset.le_add_left _ _)⟩
    | around f next =>
      exact goOn _ { s with rest := f s.rest } (.single (part (.around f next s.rest))) fun _ => rfl
    | enroll h next =>
      refine goOn (next (s.enroll h).1) (s.enroll h).2 ?_ fun _ => rfl
      have same : (s.enroll h).2.mail.pending = s.mail.pending := by
        rw [Estate.enroll]
        split
        · rfl
        · exact Mailboxes.pending_enroll h s.mail
      rw [same]
      exact .single (part (.enroll h next _))
    | post h c next =>
      refine goOn (next (s.post h c).1) (s.post h c).2 ?_ fun _ => rfl
      have same : (s.post h c).2.mail.pending = s.mail.pending := Mailboxes.pending_post h c s.mail
      rw [same]
      exact .single (part (.post h c next _))
    | link h obituary next =>
      refine goOn (next (s.link h obituary).1) (s.link h obituary).2 ?_ fun _ => rfl
      have more : (s.link h obituary).2.mail.pending ≤ {obituary h} + s.mail.pending :=
        Mailboxes.pending_link h ⟨_, obituary⟩ s.mail
      have both : CutExpand Within ({next (s.link h obituary).1} + {obituary h})
          {Rite.link h obituary next} := by
        refine cutExpand_singleton fun rite mem => ?_
        rcases Multiset.mem_add.mp mem with mem | mem
        · rw [Multiset.mem_singleton.mp mem]
          exact .link h obituary next _
        · rw [Multiset.mem_singleton.mp mem]
          exact .obituary h h obituary next
      have both := (cutExpand_add_right s.mail.pending).mpr both
      rw [add_assoc] at both
      exact .tail' ((atMost_of_le more).add_left _) both
    | kill h next =>
      let struck := s.note (.struck h)
      cases found : s.mail.isAlive h with
      | false =>
        refine goOn (next false) (struck.note (.killed h false))
          (.single (part (.kill h next false))) fun depth => ?_
        have closed := Estate.lift_close_of_dead (s := struck) found
        exact Act.bind_apply (s := struck) (Mailboxes.kill_of_none closed) _
      | true =>
        obtain ⟨obituaries, ends⟩ := Mailboxes.isAlive_iff_ends.mp found
        let shut : Estate σ := { struck with
          mail := s.mail.update h fun b => { b with isOpen := false, obituaries := [] } }
        have closed : Estate.mailPart.lift (Mailboxes.close h) struck = (some obituaries, shut) :=
          Estate.lift_close_of_ends ends
        -- the kill only moves what the obituaries would do out of the mailboxes
        have moved : AtMost (↑(obituaries.map (·.rite h)) + shut.mail.pending) s.mail.pending :=
          atMost_of_le (Mailboxes.pending_close ends).le
        have bounded (rite : Rite σ) (u : Estate σ)
            (atMost : AtMost ({rite} + u.mail.pending) s.mail.pending) : rite.Returns u :=
          ih _ (.tail' atMost (cutExpand_done _ _)) rite u rfl
        obtain ⟨depth, u, seen, bound⟩ := exists_forM_see bounded moved
        have less : Less ({next true} + u.mail.pending) ({Rite.kill h next} + s.mail.pending) :=
          .tail' (bound.add_left _) (part (.kill h next true))
        obtain ⟨depth', t, ok, atMost⟩ := ih _ less (next true) (u.note (.killed h true)) rfl
        refine ⟨max depth depth', t, ?_, atMost.trans less.to_reflTransGen⟩
        have seen := Extends.forM (extends_see_of_le (le_max_left depth depth')) seen
        have killed := Mailboxes.kill_of_some closed seen
        exact (Act.bind_apply (s := struck) killed _).trans
          (perform_of_le (le_max_right depth depth') ok)

end Rite

/-! ## What the record shows -/

namespace Estate

theorem mem_requests_of_mem_kept {h : Handle} {ticket : Nat} {deeds : List Deed}
    (mem : ticket ∈ kept h deeds) : (ticket, h, .ok ()) ∈ requests deeds := by
  obtain ⟨d, mem, eq⟩ := List.mem_filterMap.mp mem
  refine List.mem_filterMap.mpr ⟨d, mem, ?_⟩
  unfold Deed.kept? at eq
  split at eq
  · split at eq
    · next same =>
      cases eq
      rw [Deed.request?, same]
    · cases eq
  all_goals cases eq

theorem kept_sublist (h : Handle) (deeds : List Deed) :
    (kept h deeds).Sublist ((requests deeds).map (·.1)) := by
  induction deeds with
  | nil => exact List.Sublist.refl _
  | cons d deeds ih =>
    have first : (d.kept? h).toList.Sublist (d.request?.toList.map (·.1)) := by
      unfold Deed.kept?
      split
      · split <;> simp [Deed.request?]
      all_goals exact List.nil_sublist _
    rw [kept_cons, requests_cons, List.map_append]
    exact first.append ih

/-- What a record shows when all is done. -/
structure Settled (deeds : List Deed) : Prop where
  /-- Of the kills of an endpoint one finds it alive. -/
  fallen : ∀ h, Struck h deeds → returns h true deeds = 1
  spared : ∀ h, ¬ Struck h deeds → returns h true deeds = 0
  /-- Every kill that began has returned. -/
  returned : ∀ h, strikes h deeds = returns h true deeds + returns h false deeds
  /-- No two requests have the same number. -/
  unique : ((requests deeds).map (·.1)).Nodup
  /-- The obituaries of a dead endpoint were given its handle in the order of their requests. -/
  seen : ∀ h, Struck h deeds → told h deeds = kept h deeds
  unseen : ∀ h, ¬ Struck h deeds → told h deeds = []
  once : ∀ h, (told h deeds).Nodup
  /-- Requests are refused only because the endpoint is dead. -/
  answered : ∀ r ∈ requests deeds, r.2.2 = .ok () ∨ r.2.2 = .error .deadObject
  /-- An obituary is given the handle it was asked for, and only if it was kept. -/
  owner : ∀ r ∈ requests deeds, ∀ h, r.1 ∈ told h deeds → r.2 = (h, .ok ())
  refuses : ∀ h, Refuses h deeds

theorem Sound.settled {s : Estate σ} (sound : Sound (fun _ => none) s) : Settled s.deeds := by
  have unique : ((requests s.deeds).map (·.1)).Nodup := by
    rw [sound.numbered]
    exact List.nodup_range
  have told_sublist (h : Handle) : (told h s.deeds).Sublist (kept h s.deeds) := by
    by_cases struck : Struck h s.deeds
    · rw [((sound.standing h).fallen struck).1]
    · rw [((sound.standing h).spared struck).1]
      exact List.nil_sublist _
  refine {
    fallen := fun h struck => ((sound.standing h).fallen struck).2.1
    spared := fun h unstruck => ((sound.standing h).spared unstruck).2.1
    returned := fun h => ?_
    unique := unique
    seen := fun h struck => ((sound.standing h).fallen struck).1
    unseen := fun h unstruck => ((sound.standing h).spared unstruck).1
    once := fun h => unique.sublist ((told_sublist h).trans (kept_sublist h _))
    answered := sound.answered
    owner := fun r asked h mem => ?_
    refuses := fun h => (sound.standing h).refuses }
  · by_cases struck : Struck h s.deeds
    · obtain ⟨-, one, odd⟩ := (sound.standing h).fallen struck
      rw [odd, one, add_comm]
    · obtain ⟨-, no, even⟩ := (sound.standing h).spared struck
      rw [even, no, zero_add]
  · have kept := mem_requests_of_mem_kept ((told_sublist h).subset mem)
    rw [List.inj_on_of_nodup_map unique asked kept rfl]

end Estate

/-- Whatever is done with endpoints comes to an end, and then everything was seen to that should
have been, and nothing else. -/
theorem Rite.obituaries_once (rite : Rite σ) (rest : σ) :
    ∃ depth t, (∀ more, depth ≤ more → rite.perform more { rest } = .ok () t) ∧
      Estate.Settled t.deeds := by
  obtain ⟨depth, t, ok, -⟩ := rite.returns { rest }
  have sound := (Estate.Sound.start rest).perform ok
  exact ⟨depth, t, fun _ le => perform_of_le le ok, sound.settled⟩

/-- Two endpoints that take each other along. The obituary that comes too late is refused. -/
example :
    let a : Handle := ⟨1, none⟩
    let b : Handle := ⟨2, none⟩
    let avenge (g : Handle) : Handle → Rite Unit := fun h =>
      .kill g fun _ => .link h (fun _ => .done) fun _ => .done
    let rite : Rite Unit := .enroll a fun _ => .enroll b fun _ => .link a (avenge b) fun _ =>
      .link b (avenge a) fun _ => .kill a fun _ => .done
    ∃ t, rite.perform 2 { rest := () } = .ok () t ∧ t.deeds =
      [.enrolled a, .enrolled b, .linked a 0 (.ok ()), .linked b 1 (.ok ()), .struck a, .told a 0,
        .struck b, .told b 1, .struck a, .killed a false, .linked b 2 (.error .deadObject),
        .killed b true, .linked a 3 (.error .deadObject), .killed a true] :=
  ⟨_, rfl, rfl⟩

/-- An endpoint dies, and its obituary calls it. -/
def Rite.lastCall (h : Handle) (c : Call) : Rite Unit :=
  .enroll h fun _ => .link h (fun g => .post g c fun _ => .done) fun _ => .kill h fun _ => .done

theorem Rite.lastCall_of_large {c : Call} (large : maxParcelSize < c.bytes.length) :
    ∃ t, (lastCall ⟨1, none⟩ c).perform 1 { rest := () } = .ok () t ∧
      ∃ before after answer, t.deeds = before ++ .told ⟨1, none⟩ 0 :: after ∧
        .posted ⟨1, none⟩ c answer ∈ after ∧ answer ≠ .error .deadObject := by
  have refused (m : Mailboxes (Obituary Unit)) : (m.post ⟨1, none⟩ c).1 ≠ .error .deadObject := by
    rw [Mailboxes.post, if_pos large]
    simp
  exact ⟨_, rfl, [.enrolled _, .linked _ 0 (.ok ()), .struck _], _, _, rfl, .head _, refused _⟩

/-- A call so large that nobody looks for the dead endpoint. -/
theorem Rite.lastCall_too_large :
    let c : Call := ⟨1, List.replicate (maxParcelSize + 1) 0⟩
    ∃ t, (lastCall ⟨1, none⟩ c).perform 1 { rest := () } = .ok () t ∧
      ∃ before after answer, t.deeds = before ++ .told ⟨1, none⟩ 0 :: after ∧
        .posted ⟨1, none⟩ c answer ∈ after ∧ answer ≠ .error .deadObject := by
  apply lastCall_of_large
  rw [List.length_replicate]
  exact Nat.lt_succ_self _

end StorageBus

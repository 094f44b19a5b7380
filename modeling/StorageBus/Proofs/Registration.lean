import StorageBus.Proofs.Pruning

/-!
# Registering remote listeners

A remote listener is put on the roster first, and then its obituary is left with the carrier. If the
carrier says that the endpoint is dead, the registration is taken back, and the roster is as if
nothing had happened. A carrier of mailboxes knows that. One of lines keeps no obituaries and never
says so, and a listener behind a line that was closed is registered, although a registration is to
be refused for a handle that is already dead.

## Main definitions

* `Network.Reaches` — the endpoint or the line exists, and it was not killed or closed.
* `Network.linked` — the network with an obituary more, if the carrier keeps any.

## Main results

* `Session.registerRemote_cases` — a registration by what the carrier answers.
* `Session.registers_wholly` — on both carriers it is a registration with its obituary, or nothing.
* `Session.registers_closed_line` — a listener that is registered behind a line that was closed.
-/
namespace StorageBus

variable {L σ ω ρ : Type}

namespace Network

/-- The endpoint or the line exists, and it was not killed or closed. -/
def Reaches (h : Handle) (n : Network ω ρ) : Route → Prop
  | .mail => ∃ box, Table.find? h n.mail.boxes = some box ∧ box.isOpen = true
  | .line => ∃ line, Table.find? h n.lines.lines = some line ∧ line.isHeld = true ∧
      line.isDead = false

/-- With the obituary behind those that the endpoint has. Lines have none. -/
def linked (h : Handle) (obituary : ω) (n : Network ω ρ) : Route → Network ω ρ
  | .mail =>
    { n with mail := n.mail.update h fun b => { b with obituaries := b.obituaries ++ [obituary] } }
  | .line => n

theorem reaches_mail_iff {h : Handle} {n : Network ω ρ} :
    n.Reaches h .mail ↔ n.mail.isAlive h = true := by
  rw [Reaches, Mailboxes.isAlive, Mailboxes.openBox?, Option.isSome_filter, Option.any_eq_true]

theorem link_mail_of_reaches (k : Sink ρ) (ps : Processes) {h : Handle} {n : Network ω ρ}
    (reaches : n.Reaches h .mail) (obituary : ω) :
    (carrier k ps .mail).link h obituary n = (.ok (), n.linked h obituary .mail) := by
  have alive := reaches_mail_iff.mp reaches
  simp only [carrier, Carrier.on, Part.lift, mailPart, Mailboxes.carrier, Mailboxes.link, alive,
    if_true, linked]

theorem link_mail_of_not_reaches (k : Sink ρ) (ps : Processes) {h : Handle} {n : Network ω ρ}
    (gone : ¬ n.Reaches h .mail) (obituary : ω) :
    (carrier k ps .mail).link h obituary n = (.error .deadObject, n) := by
  rw [reaches_mail_iff] at gone
  simp [carrier, Carrier.on, Part.lift, mailPart, Mailboxes.carrier, Mailboxes.link, gone]

theorem link_line (k : Sink ρ) (ps : Processes) (h : Handle) (obituary : ω) (n : Network ω ρ) :
    (carrier k ps .line).link h obituary n = (.error Carrier.unlinkable, n) := rfl

end Network

namespace Session

/-- What a registration comes to, by whether the handle is new and by what the carrier answers. -/
inductive Registering (c : Carrier σ ω) (obituary : ω) (h : Handle) (l : L) (s : Session L σ) :
    Bool × Session L σ → Prop where
  | duplicate (known : h ∈ s.roster.handles) : Registering c obituary h l s (false, s)
  | refused {roster : Roster L} {failure : Failure} {after : σ} (new : h ∉ s.roster.handles)
    (linking : c.link h obituary s.rest = (.error failure, after)) (dead : failure.isDead = true)
    (wf : roster.WellFormed) (entries : roster.entries = s.roster.entries) :
    Registering c obituary h l s (false, ⟨roster, after⟩)
  | registered {roster : Roster L} {answer : Except Failure Unit} {after : σ}
    (new : h ∉ s.roster.handles) (linking : c.link h obituary s.rest = (answer, after))
    (alive : ∀ failure, answer = .error failure → failure.isDead = false)
    (wf : roster.WellFormed) (entries : roster.entries = s.roster.entries ++ [⟨h, l⟩]) :
    Registering c obituary h l s (true, ⟨roster, after⟩)

theorem registerRemote_cases (c : Carrier σ ω) (obituary : ω) (h : Handle) (l : L)
    {s : Session L σ} (wf : s.roster.WellFormed) :
    Registering c obituary h l s (registerRemote c obituary h l s) := by
  by_cases known : h ∈ s.roster.handles
  · have same : s.register h l = (false, s) := by
      rw [register, Part.lift, rosterPart, Roster.register_of_mem known]
    rw [registerRemote, same]
    exact .duplicate known
  · have one := Roster.register_of_not_mem known l
    have entries := Roster.entries_register wf known l
    have wf' := wf.register h l
    have put : s.register h l = (true, { s with roster := (s.roster.register h l).2 }) := by
      rw [register, Part.lift, rosterPart, ← one]
    rw [registerRemote, put]
    generalize (s.roster.register h l).2 = roster at entries wf' ⊢
    cases linking : c.link h obituary s.rest with
    | mk answer after =>
    simp only [Part.lift, restPart, linking]
    cases answer with
    | ok =>
      refine .registered known linking (fun failure eq => ?_) wf' entries
      cases eq
    | error failure =>
      cases dead : failure.isDead with
      | false =>
        simp only [dead, Bool.false_eq_true, if_false]
        refine .registered known linking (fun failure eq => ?_) wf' entries
        cases eq
        exact dead
      | true =>
        simp only [dead, if_true]
        -- the entry that was put behind the others is the only one with its handle
        have back : (roster.unregister h).2.entries = s.roster.entries := by
          rw [Roster.entries_unregister wf', entries, List.filter_append,
            Roster.filter_entries_of_not_mem known]
          simp
        exact .refused known linking dead (wf'.unregister h) back

/-- On either carrier a remote listener is registered, behind all others and with its obituary if
the carrier keeps any, or the roster and the endpoints are as they were. It is registered exactly if
its handle is new and, with a mailbox, its endpoint is alive. -/
theorem registers_wholly (k : Sink ρ) (ps : Processes) (obituary : ω) (p : Proxy)
    {s : Session Proxy (Network ω ρ)} (wf : s.roster.WellFormed) :
    ∃ accepted after,
      registerRemote (Network.carrier k ps p.route) obituary p.remote.handle p s =
        (accepted, after) ∧ after.roster.WellFormed ∧
      (accepted = true ↔ p.remote.handle ∉ s.roster.handles ∧
        (p.route = .mail → s.rest.Reaches p.remote.handle .mail)) ∧
      (accepted = true → after.roster.entries = s.roster.entries ++ [⟨p.remote.handle, p⟩] ∧
        after.rest = s.rest.linked p.remote.handle obituary p.route) ∧
      (accepted = false → after.roster.entries = s.roster.entries ∧ after.rest = s.rest) := by
  have registering :=
    registerRemote_cases (Network.carrier k ps p.route) obituary p.remote.handle p wf
  generalize registerRemote (Network.carrier k ps p.route) obituary p.remote.handle p s = outcome
    at registering ⊢
  cases registering with
  | duplicate known => exact ⟨false, s, rfl, wf, by simp [known], by simp, fun _ => ⟨rfl, rfl⟩⟩
  | @refused roster failure after new linking dead wf' entries =>
    cases route : p.route with
    | line =>
      rw [route, Network.link_line] at linking
      cases linking
      cases dead
    | mail =>
      rw [route] at linking
      by_cases reaches : s.rest.Reaches p.remote.handle .mail
      · rw [Network.link_mail_of_reaches k ps reaches] at linking
        cases linking
      · rw [Network.link_mail_of_not_reaches k ps reaches] at linking
        obtain ⟨-, rfl⟩ := Prod.mk.inj linking
        exact ⟨false, _, rfl, wf', by simp [reaches], by simp, fun _ => ⟨entries, rfl⟩⟩
  | @registered roster answer after new linking alive wf' entries =>
    cases route : p.route with
    | line =>
      rw [route, Network.link_line] at linking
      obtain ⟨-, rfl⟩ := Prod.mk.inj linking
      exact ⟨true, _, rfl, wf', by simp [new], fun _ => ⟨entries, rfl⟩, by simp⟩
    | mail =>
      rw [route] at linking
      by_cases reaches : s.rest.Reaches p.remote.handle .mail
      · rw [Network.link_mail_of_reaches k ps reaches] at linking
        obtain ⟨-, rfl⟩ := Prod.mk.inj linking
        exact ⟨true, _, rfl, wf', by simp [new, reaches], fun _ => ⟨entries, rfl⟩, by simp⟩
      · rw [Network.link_mail_of_not_reaches k ps reaches] at linking
        obtain ⟨rfl, -⟩ := Prod.mk.inj linking
        cases alive _ rfl

/-- An endpoint that is alive, and one that was killed. -/
theorem registers_wholly_killed :
    let a : Proxy := { remote := { handle := ⟨1, none⟩ } }
    let b : Proxy := { remote := { handle := ⟨2, none⟩ } }
    let s : Session Proxy (Network String Tape) := {
      rest := { mail := (Mailboxes.close ⟨2, none⟩
        (Mailboxes.enroll ⟨2, none⟩ (Mailboxes.enroll ⟨1, none⟩ {}))).2 } }
    s.roster.WellFormed ∧ ∃ t u : Session Proxy (Network String Tape),
      registerRemote (Network.carrier Tape.sink ⟨1, []⟩ .mail) "a" ⟨1, none⟩ a s = (true, t) ∧
      t.roster.entries = [⟨⟨1, none⟩, a⟩] ∧ t.rest = s.rest.linked ⟨1, none⟩ "a" .mail ∧
      registerRemote (Network.carrier Tape.sink ⟨1, []⟩ .mail) "b" ⟨2, none⟩ b t = (false, u) ∧
      u.roster.entries = [⟨⟨1, none⟩, a⟩] ∧ u.rest = t.rest := by
  intro a b s
  have wf : s.roster.WellFormed := .empty
  have alive : s.rest.Reaches ⟨1, none⟩ .mail := Network.reaches_mail_iff.mpr (by decide)
  obtain ⟨accepted, t, ran, wf', iff, done, -⟩ := registers_wholly Tape.sink ⟨1, []⟩ "a" a wf
  have yes : accepted = true := iff.mpr ⟨List.not_mem_nil, fun _ => alive⟩
  obtain ⟨entries, linked⟩ := done yes
  obtain ⟨accepted', u, ran', -, iff', -, undone⟩ := registers_wholly Tape.sink ⟨1, []⟩ "b" b wf'
  have dead : ¬ t.rest.Reaches ⟨2, none⟩ .mail := by
    rw [linked, Network.reaches_mail_iff]
    decide
  have no : accepted' = false := by
    rw [← Bool.not_eq_true, iff', not_and]
    exact fun _ reaches => dead (reaches rfl)
  obtain ⟨entries', same⟩ := undone no
  exact ⟨wf, t, u, yes ▸ ran, entries, linked, no ▸ ran', entries'.trans entries, same⟩

/-- Nothing can be delivered on a line that was closed, but the carrier of lines does not say so,
and the listener is registered instead of being refused as already dead. -/
theorem registers_closed_line :
    let h : Handle := ⟨1, none⟩
    let p : Proxy := { remote := { handle := h }, route := .line }
    let s : Session Proxy (Network String Tape) := {
      rest := { lines := (Lines.close h (Lines.adopt h {} {})).2 } }
    let outcome := registerRemote (Network.carrier Tape.sink ⟨1, []⟩ p.route) "p" h p s
    outcome.1 = true ∧ outcome.2.roster.entries = [⟨h, p⟩] ∧ ¬ s.rest.Reaches h p.route ∧
      ¬ (outcome.1 = true ↔ h ∉ s.roster.handles ∧ s.rest.Reaches h p.route) := by
  intro h p s outcome
  have accepted : outcome.1 = true := by decide
  have closed : ¬ s.rest.Reaches h p.route := by
    rintro ⟨line, found, held, -⟩
    obtain rfl := Option.some.inj found
    cases held
  exact ⟨accepted, rfl, closed, fun iff => closed (iff.mp accepted).2⟩

end Session

end StorageBus

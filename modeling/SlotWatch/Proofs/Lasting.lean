import SlotWatch.Proofs.Advance

/-!
# SlotWatch.Proofs.Lasting

Properties of the whole board that last while listeners do only certain things.

A `Lasting` property may depend on

1. which commands are given (`may`), by listeners and from outside;
2. which registrations publishes come to (`R`), because it says of what is live that it is of
   this sort;
3. the news of an update being delivered at once: it need not hold between the two.

It is the proof obligations of a property, one for each part of the program.  The proof that
it then holds at every moment goes down the program, one lemma for each layer
(`Lasting.moment`).
-/

namespace SlotWatch

/-- Whether listeners give such commands only. -/
def React.Within {σ ε : Type} (may : Command ε → Prop) (react : React σ ε) : Prop :=
  ∀ r p b c, Move.command c ∈ react r p b → may c

namespace Switchboard

variable {σ ε : Type}

/-- What a property of boards has to satisfy to hold at every moment of a run in which such
commands are given, once it holds at the start. -/
structure Lasting (S : Source σ ε) (may : Command ε → Prop) (R : Registration → Prop)
    (P : Switchboard σ ε → Prop) : Prop where
  live {b r} : P b → r ∈ b.registry.live → R r
  obey {b} (invoke : Invoke σ ε) (l : Option String) (c : Command ε) : c.quiet = true → may c →
    P b → P (b.obey S invoke l c).2
  /-- A report of which nothing can be delivered. -/
  report {b slot p} : p.kind ≠ .iccAccount → b.registry.validateSlot p.kind slot = .ok () →
    (∀ q, (b.report S slot p).1 = some q → q.kind ≠ p.kind) → P b → P (b.report S slot p).2
  /-- A report and the beginning of the delivery of its news. -/
  tell {b slot p q} : p.kind ≠ .iccAccount → b.registry.validateSlot p.kind slot = .ok () →
    (b.report S slot p).1 = some q → q.kind = p.kind → P b →
    P ((b.report S slot p).2.launch S p.kind slot q)
  launch {b kind p} (slot : Slot) : p.kind = kind → P b → P (b.launch S kind slot p)
  skip {b r} (rs : List Registration) : (b.comeTo r rs).1 = false → R r → P b →
    P (b.comeTo r rs).2
  call {b r} (rs : List Registration) (p : Payload) : (b.comeTo r rs).1 = true → R r → P b →
    P ((b.comeTo r rs).2.hand r p).2
  land {b} : P b → P b.land
  remark {b} (l : Option String) (c : Command ε) (o : Outcome σ) : P b → P (b.note (.did l c o))

/-- News of the kind that was reported can be delivered. -/
theorem checkPublish_report (S : Source σ ε) {b : Switchboard σ ε} {slot : Slot} {p q : Payload}
    (hs : b.registry.validateSlot p.kind slot = .ok ()) (hq : q.kind = p.kind) :
    (b.report S slot p).2.checkPublish p.kind (some slot) q = .ok () := by
  have hregistry : (b.report S slot p).2.registry = b.registry := rfl
  unfold checkPublish
  simp only [if_neg (not_not.mpr hq), hregistry, hs, ite_self]

/-- A payload of another kind is refused before anybody is called. -/
theorem publish_of_ne {S : Source σ ε} (invoke : Invoke σ ε) {b : Switchboard σ ε} {kind : Kind}
    {p : Payload} (h : p.kind ≠ kind) (slot : Option Slot) :
    b.publish S invoke kind slot p = (.error (.payloadMismatch p.kind kind), b) := by
  unfold publish checkPublish
  rw [if_pos h]

/-- What an activity needs so that a lasting property holds at every moment of it. -/
def Ready (S : Source σ ε) (may : Command ε → Prop) (R : Registration → Prop)
    (P : Switchboard σ ε → Prop) (b : Switchboard σ ε) : Activity ε → Prop
  | .command _ c => P b ∧ may c
  | .moves _ ms => P b ∧ ∀ c, .command c ∈ ms → may c
  | .publish kind slot p =>
      b.checkPublish kind slot p = .ok () →
        P (b.launch S kind (slot.getD b.registry.defaultSlot) p) ∧ ∀ r ∈ b.registry.live, R r
  | .deliver _ rs => P b ∧ ∀ r ∈ rs, R r

namespace Lasting

variable {S : Source σ ε} {may : Command ε → Prop} {R : Registration → Prop}
  {P : Switchboard σ ε → Prop} (k : Lasting S may R P)
include k

/-! ## down the program -/

section

variable {invoke : Invoke σ ε} (hi : ∀ {r p b}, P (b.hand r p).2 → P (invoke r p b).2)
  {b : Switchboard σ ε}
include hi

/-- A turn calls the registration or passes it over. -/
theorem turn (hb : P b) (p : Payload) {r : Registration} (hr : R r) (rs : List Registration) :
    P (b.turn invoke p r rs).2 := by
  cases ha : (b.comeTo r rs).1 with
  | true =>
      rw [turn_of_armed invoke p ha]
      exact hi (k.call rs p ha hr hb)
  | false =>
      rw [turn_of_not_armed invoke p ha]
      exact k.skip rs ha hr hb

/-- The turns of a publish are taken one after the other. -/
theorem deliverAll (hb : P b) (p : Payload) {rs : List Registration} (hrs : ∀ r ∈ rs, R r) :
    P (deliverAll invoke p rs b).2 := by
  induction rs generalizing b with
  | nil => exact hb
  | cons r rs ih =>
      obtain ⟨hr, hrs⟩ := List.forall_mem_cons.mp hrs
      exact ih (k.turn hi hb p hr rs) hrs

/-- A publish that can begin. -/
theorem begun {kind : Kind} {slot : Option Slot} {p : Payload}
    (hp : b.checkPublish kind slot p = .ok ()) (hlive : ∀ r ∈ b.registry.live, R r)
    (hb : P (b.launch S kind (slot.getD b.registry.defaultSlot) p)) :
    P (b.publish S invoke kind slot p).2 := by
  have haudience : ∀ r ∈ b.audience kind (slot.getD b.registry.defaultSlot), R r :=
    fun r hr => hlive r (List.mem_filter.mp hr).1
  unfold Switchboard.publish
  rw [hp]
  exact k.land (k.deliverAll hi hb p haudience)

/-- A publish begins, takes its turns and ends. -/
theorem publish (hb : P b) (kind : Kind) (slot : Option Slot) (p : Payload) :
    P (b.publish S invoke kind slot p).2 := by
  cases hp : b.checkPublish kind slot p with
  | ok u =>
      exact k.begun hi hp (fun r => k.live hb) (k.launch _ (kind_of_checkPublish hp) hb)
  | error e =>
      unfold Switchboard.publish
      rw [hp]
      exact hb

/-- An update is refused, or taken in and then delivered if it is news. -/
theorem update (hb : P b) (slot : Slot) (p : Payload) : P (b.update S invoke slot p).2 := by
  unfold Switchboard.update
  split
  · exact k.publish hi hb _ _ p
  next hkind =>
  split
  · exact hb
  next hslot =>
  have hreport := k.report hkind hslot
  have htell := fun {q} => k.tell (q := q) hkind hslot
  have hcheck := fun {q} => checkPublish_report S (q := q) hslot
  have hregistry : (b.report S slot p).2.registry = b.registry := rfl
  revert hreport htell hcheck hregistry
  rcases b.report S slot p with ⟨_ | q, b'⟩
  · exact fun hreport _ _ _ => hreport (fun _ hq => absurd hq (Option.some_ne_none _).symm) hb
  · intro hreport htell hcheck hregistry
    by_cases hq : q.kind = p.kind
    · refine k.begun hi (hcheck hq) (fun r hr => k.live hb (hregistry ▸ hr)) ?_
      exact htell rfl hq hb
    · simp only [publish_of_ne invoke hq]
      refine hreport (fun q' hq' => ?_) hb
      cases hq'
      exact hq

/-- A command calls nobody, publishes or updates. -/
theorem command (hb : P b) (l : Option String) {c : Command ε} (hc : may c) :
    P (b.obey S invoke l c).2 := by
  cases hq : c.quiet with
  | true => exact k.obey invoke l c hq hc hb
  | false =>
      have hattempt : P (b.attempt S invoke c).2 := by
        unfold Command.quiet at hq
        unfold attempt
        split at hq
        · next a ha =>
            rw [ha]
            cases a with
            | publish kind slot p => exact k.publish hi hb kind slot p
            | update slot p => exact k.update hi hb slot p
            | _ => contradiction
        · contradiction
      exact k.remark l c _ hattempt

/-- Moves are made one after the other, up to a panic. -/
theorem moveAll (hb : P b) (l : Option String) {ms : List (Move ε)}
    (hms : ∀ c, Move.command c ∈ ms → may c) : P (b.moveAll S invoke l ms).2 := by
  induction ms generalizing b with
  | nil => exact hb
  | cons m ms ih =>
      cases m with
      | panic => exact hb
      | command c =>
          have hc := hms c List.mem_cons_self
          exact ih (k.command hi hb l hc) fun c' hc' => hms c' (List.mem_cons_of_mem _ hc')

end

omit k in
/-- A callback is handed its payload before it acts. -/
theorem handOver {body : Invoke σ ε} {r : Registration} {p : Payload} {b : Switchboard σ ε}
    (hbody : P (b.hand r p).2 → P (body r p (b.hand r p).2).2) (hb : P (b.hand r p).2) :
    P (handOver body r p b).2 := by
  unfold Switchboard.handOver
  simp only
  split
  · exact hbody hb
  · exact hb

/-- **Calls leave the property as it is**, at every depth of nesting. -/
theorem hear {react : React σ ε} (hreact : React.Within may react) (limit : Nat)
    {r : Registration} {p : Payload} {b : Switchboard σ ε} (hb : P (b.hand r p).2) :
    P (hear S react limit r p b).2 := by
  induction limit generalizing r p b with
  | zero => exact handOver id hb
  | succ limit ih =>
      exact handOver (fun hb => k.moveAll ih hb _ fun c => hreact r p _ c) hb

/-! ## moments -/

section

variable {react : React σ ε} (hreact : React.Within may react)
include hreact

/-- The commands of a run are carried out one after the other. -/
theorem run (limit : Nat) {cs : List (Command ε)} (hcs : ∀ c ∈ cs, may c) {b : Switchboard σ ε}
    (hb : P b) : P (run S react limit cs b) := by
  induction cs generalizing b with
  | nil => exact hb
  | cons c cs ih =>
      obtain ⟨hc, hcs⟩ := List.forall_mem_cons.mp hcs
      exact ih hcs (k.command (k.hear hreact limit) hb none hc)

/-- Whatever occurs in an activity comes after what was done in it before. -/
theorem occurs {limit : Nat} {a : Activity ε} {b m : Switchboard σ ε}
    (h : Occurs S react limit a b m) (hb : Ready S may R P b a) : P m := by
  induction h with
  | completed limit l c b => exact k.command (k.hear hreact limit) hb.1 l hb.2
  | publishing _ _ ih | announcing _ _ _ ih =>
      exact ih fun hp => ⟨k.launch _ (kind_of_checkPublish hp) hb.1, fun _ => k.live hb.1⟩
  | updating _ hkind hslot hnews _ ih =>
      have hlive := fun r => k.live (r := r) hb.1
      exact ih fun hp => ⟨k.tell hkind hslot hnews (kind_of_checkPublish hp) hb.1, hlive⟩
  | delivering hp _ ih =>
      obtain ⟨hlaunch, hlive⟩ := hb hp
      exact ih ⟨hlaunch, fun r hr => hlive r (List.mem_filter.mp hr).1⟩
  | called limit p rs ha => exact k.call rs p ha (hb.2 _ List.mem_cons_self) hb.1
  | acting ha _ _ ih =>
      exact ih ⟨k.call _ _ ha (hb.2 _ List.mem_cons_self) hb.1, fun c => hreact _ _ _ c⟩
  | others _ ih =>
      obtain ⟨hr, hrs⟩ := List.forall_mem_cons.mp hb.2
      exact ih ⟨k.turn (k.hear hreact _) hb.1 _ hr _, hrs⟩
  | move _ ih => exact ih ⟨hb.1, hb.2 _ List.mem_cons_self⟩
  | moves _ ih =>
      have hc := hb.2 _ List.mem_cons_self
      refine ih ⟨k.command (k.hear hreact _) hb.1 _ hc, fun c' hc' => ?_⟩
      exact hb.2 c' (List.mem_cons_of_mem _ hc')

/-- **A lasting property holds at every moment of a run.** -/
theorem moment {limit : Nat} {cs : List (Command ε)} (hcs : ∀ c ∈ cs, may c)
    {b m : Switchboard σ ε} (h : Moment S react limit cs b m) (hb : P b) : P m := by
  cases h with
  | start => exact hb
  | during before c after heq h =>
      rw [heq] at hcs
      have hbefore : ∀ c ∈ before, may c := fun c hc => hcs c (List.mem_append_left _ hc)
      exact k.occurs hreact h ⟨k.run hreact limit hbefore hb, hcs c (by simp)⟩

end

end Lasting

end Switchboard

end SlotWatch

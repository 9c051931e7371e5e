import SlotWatch.Proofs.Finality
import SlotWatch.Proofs.Removal

/-!
# SlotWatch.Proofs.Owing

Which one-shots wait.

1. What is due was collected by a publish that is still in progress (`Reaches.awaited`): some
   board on the way here is the one on which that publish began.
2. A one-shot that is due waits just if no command has asked for its removal since then
   (`Reaches.mem_waiting_iff`).
3. So where the same publishes are in progress, the same one-shots wait, less what commands have
   removed meanwhile (`Reaches.mem_waiting_of_settles`).  This is what a publish leaves behind.
-/

namespace SlotWatch

namespace Switchboard

variable {σ ε : Type} {S : Source σ ε}

/-! ## the publish that has collected a registration -/

/-- Whether a publish that began on `start` has collected a registration, and it is still due
on `b`. -/
structure Awaited (S : Source σ ε) (r : Registration) (start b : Switchboard σ ε) : Prop where
  collected : ∃ slot p, r ∈ start.audience p.kind slot ∧ Reaches S (start.launch S p.kind slot p) b
  due : ∃ rs ∈ b.running, r ∈ rs

/-- What is due was due before the last step, unless that step was a publish to collect it. -/
theorem Advance.due {b b' : Switchboard σ ε} (h : Advance S b b') {r : Registration}
    (hr : r ∈ b'.running.flatten) :
    r ∈ b.running.flatten ∨
      ∃ slot p, r ∈ b.audience p.kind slot ∧ b' = b.launch S p.kind slot p := by
  cases h with
  | obey invoke l c hc =>
      have hrunning : (b.obey S invoke l c).2.running = b.running :=
        (change_attempt invoke b hc).running_eq
      rw [hrunning] at hr
      exact .inl hr
  | report | remark => exact .inl hr
  | launch slot hp =>
      subst hp
      rw [launch_running, List.flatten_cons, List.mem_append] at hr
      exact hr.elim (fun hr => .inr ⟨slot, _, hr, rfl⟩) .inl
  | skip hrunning =>
      rw [comeTo_running hrunning] at hr
      rw [hrunning, List.flatten_cons, List.cons_append]
      exact .inl (List.mem_cons_of_mem _ hr)
  | call hrunning =>
      rw [hand_running, comeTo_running hrunning] at hr
      rw [hrunning, List.flatten_cons, List.cons_append]
      exact .inl (List.mem_cons_of_mem _ hr)
  | land hrunning =>
      simp only [Switchboard.land, hrunning, List.tail_cons] at hr
      rw [hrunning, List.flatten_cons, List.nil_append]
      exact .inl hr

section

variable {settings : SlotSettings} {source : σ} {b : Switchboard σ ε}
  (h : Reaches S (fresh settings source) b)
include h

/-- **What is due was collected by a publish on the way.** -/
theorem Reaches.awaited {r : Registration} (hr : r ∈ b.running.flatten) :
    ∃ start, Reaches S (fresh settings source) start ∧ Awaited S r start b := by
  induction h with
  | refl => simp [fresh] at hr
  | @tail c d hreach hstep ih =>
      have hdue : ∃ rs ∈ d.running, r ∈ rs := List.mem_flatten.mp hr
      rcases hstep.due hr with hr | ⟨slot, p, hcollected, rfl⟩
      · obtain ⟨start, hstart, ⟨slot, p, hcollected, hbegun⟩, -⟩ := ih hr
        exact ⟨start, hstart, ⟨slot, p, hcollected, hbegun.tail hstep⟩, hdue⟩
      · exact ⟨c, hreach, ⟨slot, p, hcollected, .refl⟩, hdue⟩

omit h in
/-- A publish that is awaited has led to where the run is. -/
theorem Awaited.reaches {r : Registration} {start : Switchboard σ ε} (h : Awaited S r start b) :
    Reaches S start b := by
  obtain ⟨slot, p, -, hbegun⟩ := h.collected
  exact .head (.launch slot rfl start) hbegun

/-- A one-shot that is due waits just if no command has asked for its removal since the publish
that has collected it began. -/
theorem Reaches.mem_waiting_iff {r : Registration} (hmode : r.mode = .oneShot)
    {start : Switchboard σ ε} (hstart : Reaches S (fresh settings source) start)
    (hawaited : Awaited S r start b) :
    r ∈ b.registry.waiting ↔ ¬ RemovedSince r start b := by
  obtain ⟨slot, p, hcollected, -⟩ := hawaited.collected
  have hlive : r ∈ start.registry.live := (List.mem_filter.mp hcollected).1
  have hdue : r ∈ b.running.flatten := List.mem_flatten.mpr hawaited.due
  rw [← mem_armed_iff hstart hawaited.reaches hlive hdue, h.inOrder.1.mem_waiting]
  exact ⟨fun hr => hr.2.2, fun harmed => ⟨hdue, hmode, harmed⟩⟩

/-- **What waits are the one-shots still owed a call**: a publish has collected them, has not
come to them, and no command has asked for their removal since. -/
theorem Reaches.waiting_iff_awaited {r : Registration} :
    r ∈ b.registry.waiting ↔ r.mode = .oneShot ∧ ∃ start,
      Reaches S (fresh settings source) start ∧ Awaited S r start b ∧
        ¬ RemovedSince r start b := by
  constructor
  · intro hr
    obtain ⟨hdue, hmode, -⟩ := h.inOrder.1.mem_waiting.mp hr
    obtain ⟨start, hstart, hawaited⟩ := h.awaited hdue
    exact ⟨hmode, start, hstart, hawaited, (h.mem_waiting_iff hmode hstart hawaited).mp hr⟩
  · rintro ⟨hmode, start, hstart, hawaited, hkept⟩
    exact (h.mem_waiting_iff hmode hstart hawaited).mpr hkept

/-- Nobody waits twice. -/
theorem Reaches.nodup_waiting_ids : (b.registry.waiting.map (·.id)).Nodup := by
  have hperm : b.owed.Perm b.registry.waiting :=
    (List.perm_ext_iff_of_nodup h.nodup_owed.of_map h.inOrder.1.nodup_waiting).mpr
      fun _ => h.mem_owed_iff
  exact (hperm.map _).nodup_iff.mp h.nodup_owed

/-- Whoever waits is not live. -/
theorem Reaches.ne_of_waiting {r s : Registration} (hr : r ∈ b.registry.waiting)
    (hs : s ∈ b.registry.live) : s.id ≠ r.id := by
  obtain ⟨hdue, hmode, -⟩ := h.inOrder.1.mem_waiting.mp hr
  exact h.inOrder.1.ne_of_due hdue hmode hs

/-! ## when a publish has returned -/

omit h in
/-- A removal falls on one part of the way or on the other. -/
theorem removedSince_trans {r : Registration} {b c d : Switchboard σ ε} (hbc : b.trace <:+ c.trace)
    (hcd : c.trace <:+ d.trace) :
    RemovedSince r b d ↔ RemovedSince r b c ∨ RemovedSince r c d := by
  simp only [RemovedSince, since_append hbc hcd, List.mem_append, or_and_right, exists_or]

omit h in
/-- A publish in progress still awaits whom it has collected, once others have ended. -/
theorem Awaited.settles {r : Registration} {start c : Switchboard σ ε}
    (h : Awaited S r start b) (hc : Settles S b c) : Awaited S r start c := by
  obtain ⟨slot, p, hcollected, hbegun⟩ := h.collected
  exact ⟨⟨slot, p, hcollected, hbegun.trans hc.1⟩, hc.2 ▸ h.due⟩

/-- **Where the same publishes are in progress, the same one-shots wait**, less those that
commands have removed meanwhile. -/
theorem Reaches.mem_waiting_of_settles {c : Switchboard σ ε} (hc : Settles S b c)
    {r : Registration} :
    r ∈ c.registry.waiting ↔ r ∈ b.registry.waiting ∧ ¬ RemovedSince r b c := by
  have hfresh : Reaches S (fresh settings source) c := h.trans hc.1
  -- both boards know the one-shot from the same publish
  have hboth {start : Switchboard σ ε} (hmode : r.mode = .oneShot)
      (hstart : Reaches S (fresh settings source) start) (hawaited : Awaited S r start b) :
      r ∈ c.registry.waiting ↔ r ∈ b.registry.waiting ∧ ¬ RemovedSince r b c := by
    rw [hfresh.mem_waiting_iff hmode hstart (hawaited.settles hc),
      h.mem_waiting_iff hmode hstart hawaited,
      removedSince_trans hawaited.reaches.suffix hc.1.suffix, not_or]
  constructor
  · intro hr
    obtain ⟨hdue, hmode, -⟩ := hfresh.inOrder.1.mem_waiting.mp hr
    obtain ⟨start, hstart, hawaited⟩ := h.awaited (hc.2 ▸ hdue)
    exact (hboth hmode hstart hawaited).mp hr
  · intro hr
    obtain ⟨hmode, start, hstart, hawaited, -⟩ := h.waiting_iff_awaited.mp hr.1
    exact (hboth hmode hstart hawaited).mpr hr

/-- **The waiting list holds exactly the one-shots still owed a call**, on every board that a run
can reach, with any number of publishes in progress and whatever listeners and source do.

* Every entry has an id of its own.
* What waits are the one-shots that a publish in progress has collected and not come to, and
  whose removal no command has asked for since that publish began.
* Each of them is armed, and none is live.
* When no publish is in progress, nothing waits.
* A publish that returns leaves none of the entries it has added, and of those that were there
  before it leaves all whose removal no command has asked for meanwhile. -/
theorem waiting_exactly_owed :
    (b.registry.waiting.map (·.id)).Nodup ∧
    (∀ r, r ∈ b.registry.waiting ↔ r.mode = .oneShot ∧ ∃ start,
      Reaches S (fresh settings source) start ∧ Awaited S r start b ∧
        ¬ RemovedSince r start b) ∧
    (∀ r ∈ b.registry.waiting, r.id ∈ b.registry.armed ∧ ∀ s ∈ b.registry.live, s.id ≠ r.id) ∧
    (b.running = [] → b.registry.waiting = []) ∧
    ∀ (react : React σ ε) (limit : Nat) (kind : Kind) (slot : Option Slot) (p : Payload),
      let after := (b.publish S (hear S react limit) kind slot p).2
      (∀ r ∈ b.audience kind (slot.getD b.registry.defaultSlot), r.mode = .oneShot →
        ∀ s ∈ after.registry.waiting, s.id ≠ r.id) ∧
      ∀ r, r ∈ after.registry.waiting ↔ r ∈ b.registry.waiting ∧ ¬ RemovedSince r b after := by
  have hmem {r : Registration} := h.inOrder.1.mem_waiting (r := r)
  refine ⟨h.nodup_waiting_ids, fun r => h.waiting_iff_awaited, fun r hr => ?_, fun hidle => ?_,
    fun react limit kind slot p => ?_⟩
  · exact ⟨(hmem.mp hr).2.2, fun s hs => h.ne_of_waiting hr hs⟩
  · refine List.eq_nil_iff_forall_not_mem.mpr fun r hr => ?_
    have hdue := (hmem.mp hr).1
    rw [hidle] at hdue
    contradiction
  · have hsettles := settles_publish (S := S) (proper_hear S react limit) kind slot p b
    have hafter {r : Registration} := h.mem_waiting_of_settles hsettles (r := r)
    refine ⟨fun r hr _ s hs => ?_, fun r => hafter⟩
    have hlive : r ∈ b.registry.live := (List.mem_filter.mp hr).1
    exact (h.ne_of_waiting (hafter.mp hs).1 hlive).symm

end

/-- A publish has called the first of the two registrations that it is for; the other waits. -/
theorem waiting_exactly_owed_midway :
    Reaches Bench.source (fresh Sample.settings Sample.bench) Sample.midway ∧
      Sample.late ∈ Sample.midway.registry.waiting ∧
      ∃ start, Reaches Bench.source (fresh Sample.settings Sample.bench) start ∧
        Awaited Bench.source Sample.late start Sample.midway ∧
        ¬ RemovedSince Sample.late start Sample.midway :=
  have hwaiting : Sample.late ∈ Sample.midway.registry.waiting := by decide
  have howed := (waiting_exactly_owed Sample.reaches_midway).2.1 Sample.late
  ⟨Sample.reaches_midway, hwaiting, (howed.mp hwaiting).2⟩

end Switchboard

end SlotWatch

import SlotWatch.Bench
import SlotWatch.Proofs.Inquiry
import SlotWatch.Proofs.Publishing
import SlotWatch.Proofs.Registering

/-!
# SlotWatch.Proofs.Granting

Sources that grant whatever they are asked and stay as they are (`Source.Grants`).  A bench
that does not forward requests, and has none to refuse, is one (`Bench.grants`).

With such a source what an operation does to a board can be written down: it asks for certain
feeds, one after the other, and is granted them all (`Switchboard.granting`).  There is one
equation for each operation.
-/

namespace SlotWatch

variable {σ ε : Type}

/-- Whether a source, as it is, grants every request and stays as it is. -/
def Source.Grants (S : Source σ ε) (s : σ) : Prop :=
  ∀ request feed, S.answer request feed s = (.ok (), s)

/-- A bench that is not wired to its phone and has nothing to refuse grants everything. -/
theorem Bench.grants {b : Bench} (hwiring : b.wiring ≠ .phone) (hrefusals : b.refusals = []) :
    Bench.source.Grants b := by
  have hanswer (request : Request) (feed : Feed) : b.answer request feed = (.ok (), b) := by
    unfold Bench.answer
    by_cases hbypass : b.wiring = .bypass
    · exact if_pos hbypass
    · rw [if_neg hbypass, hrefusals, List.lookup_nil]
      exact if_neg hwiring
  intro request feed
  cases request with
  | start => exact hanswer .start feed
  | stop => exact hanswer .stop feed

namespace Switchboard

/-! ## requests that are granted -/

/-- The board on which requests of one sort have been granted for feeds, in order. -/
def granting (request : Request) (feeds : List Feed) (b : Switchboard σ ε) : Switchboard σ ε :=
  { b with trace := (feeds.map fun feed => .asked request feed (.ok ())).reverse ++ b.trace }

@[simp] theorem granting_registry (request : Request) (feeds : List Feed) (b : Switchboard σ ε) :
    (b.granting request feeds).registry = b.registry := rfl

/-- Requests that are granted one after the other are granted in order. -/
theorem granting_granting (request : Request) (feed : Feed) (feeds : List Feed)
    (b : Switchboard σ ε) :
    (b.granting request [feed]).granting request feeds = b.granting request (feed :: feeds) := by
  simp [granting]

/-- Requests that are granted are no part of the story. -/
@[simp] theorem story_granting (request : Request) (feeds : List Feed) (b : Switchboard σ ε) :
    story (b.granting request feeds).trace = story b.trace := by
  have hrequests : story ((feeds.map fun feed =>
      (.asked request feed (.ok ()) : Event σ ε)).reverse) = [] := by
    refine List.filter_eq_nil_iff.mpr fun e he => ?_
    obtain ⟨feed, -, rfl⟩ := List.mem_map.mp (List.mem_reverse.mp he)
    simp [Event.isRequest]
  rw [granting, story, List.filter_append, ← story, hrequests, List.nil_append, ← story]

@[simp] theorem inquiries_granting (request : Request) (feeds : List Feed)
    (b : Switchboard σ ε) :
    inquiries (b.granting request feeds).trace =
      inquiries b.trace ++ feeds.map (Inquiry.ok request) := by
  have hinquiry : Event.inquiry? (σ := σ) (ε := ε) ∘
      (fun feed => .asked request feed (.ok ())) = some ∘ Inquiry.ok request := rfl
  rw [granting, inquiries, List.filterMap_append, List.filterMap_reverse, List.reverse_append,
    List.reverse_reverse, List.filterMap_map, hinquiry, List.filterMap_eq_map, ← inquiries]

/-! ## operations -/

variable {S : Source σ ε} {b : Switchboard σ ε}

/-- A request is granted, and the source is as before. -/
theorem ask_of_grants (h : S.Grants b.source) (request : Request) (feed : Feed) :
    b.ask S request feed = (.ok (), b.granting request [feed]) := by
  unfold ask
  rw [h request feed]
  rfl

/-- All feeds are stopped. -/
theorem stopAll_of_grants (h : S.Grants b.source) (feeds : List Feed) :
    b.stopAll S feeds = (.ok (), b.granting .stop feeds) := by
  induction feeds generalizing b with
  | nil => rfl
  | cons feed feeds ih =>
      have hasked := ask_of_grants h .stop feed
      have hothers := ih (b := b.granting .stop [feed]) h
      rw [granting_granting] at hothers
      rw [stopAll_cons_of_ok S (congrArg Prod.fst hasked), hasked]
      exact hothers

/-- All feeds are started, and none is taken back. -/
theorem startAll_of_grants (h : S.Grants b.source) (started feeds : List Feed) :
    b.startAll S started feeds = (.ok (), b.granting .start feeds) := by
  induction feeds generalizing b started with
  | nil => rfl
  | cons feed feeds ih =>
      have hasked := ask_of_grants h .start feed
      have hothers := ih (b := b.granting .start [feed]) h (started ++ [feed])
      rw [granting_granting] at hothers
      rw [startAll_cons_of_ok S (congrArg Prod.fst hasked), hasked]
      exact hothers

/-- A registration that is fit and new is made. -/
theorem register_of_grants (h : S.Grants b.source) {callback : Callback} {kind : Kind}
    {options : Option Options} {mode : Mode} {selector : Option Slot}
    (hs : b.registry.selector kind options = .ok selector)
    (hd : b.registry.duplicate? kind selector callback mode = none) :
    let feed := (selector.getD b.registry.defaultSlot, kind)
    b.register S callback kind options mode =
      (.ok b.registry.nextId,
        { b.granting .start (if b.registry.observes feed then [] else [feed]) with
          registry := b.registry.add kind selector callback mode }) := by
  intro feed
  unfold register
  simp only [hs, hd, ensure]
  cases ho : b.registry.observes feed with
  | true => rfl
  | false => simp [feed, ask_of_grants h]

/-- A removal succeeds, and all that it releases is stopped. -/
theorem withdraw_of_grants (h : S.Grants b.source) (selected : Registration → Bool) :
    b.withdraw S selected =
      (.ok (b.registry.withdraw selected).removed,
        (b.struck selected).granting .stop (b.registry.withdraw selected).released) := by
  have hgrants : S.Grants (b.struck selected).source := h
  rw [withdraw_eq, stopAll_of_grants hgrants]
  rfl

/-- All that the one-shots of a publish release is stopped. -/
theorem launch_of_grants (h : S.Grants b.source) (kind : Kind) (slot : Slot) (p : Payload) :
    b.launch S kind slot p =
      (b.gathered kind slot p).granting .stop (b.registry.collect kind slot).released := by
  have hgrants : S.Grants (b.gathered kind slot p).source := h
  rw [launch_eq, stopAll_of_grants hgrants]

/-- The default slot moves to every other slot of the phone. -/
theorem setDefault_of_grants (h : S.Grants b.source) {slot : Slot}
    (hslot : ¬ (slot < 0 ∨ b.registry.slotCount ≤ slot)) (hs : b.registry.defaultSlot ≠ slot) :
    b.setDefault S slot =
      (.ok (),
        granting .stop (b.registry.moveDefault slot).2
          { b.granting .start (b.registry.arrivals slot) with
            registry := (b.registry.moveDefault slot).1 }) := by
  have hgrants : S.Grants ({ b.granting .start (b.registry.arrivals slot) with
      registry := (b.registry.moveDefault slot).1 } : Switchboard σ ε).source := h
  unfold setDefault
  rw [if_neg hslot, if_neg hs, startAll_of_grants h]
  simp only [granting_registry]
  rw [stopAll_of_grants hgrants]

end Switchboard

end SlotWatch

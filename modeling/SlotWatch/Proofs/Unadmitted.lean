import SlotWatch.Proofs.Access
import SlotWatch.Proofs.Replaying

/-!
# SlotWatch.Proofs.Unadmitted

Without access there is no delivery.

The registry itself does not look at permissions.  But a kind comes into the live list by a
start, which the phone grants only if it admits the kind, or on a feed that a live
registration of the kind observes already; and a publish is for live registrations of the
kind of its payload.  So over the steps of a script, as long as the phone does not admit a
kind,

1. no live registration is of the kind (`Vacant`);
2. no payload of the kind is delivered (`Silence`).
-/

namespace SlotWatch

instance (p : Phone) (kind : Kind) : Decidable (p.Admits kind) :=
  inferInstanceAs (Decidable (_ ∧ _))

namespace Simulation

open Switchboard

section
variable {settings : SlotSettings} {phone : Phone} {kind : Kind}
  {b b' : Switchboard Phone Phone.Control}

/-! ## what a command can do -/

/-- Whether no live registration is of the kind. -/
def Vacant (kind : Kind) (b : Switchboard Phone Phone.Control) : Prop :=
  ∀ r ∈ b.registry.live, r.kind ≠ kind

/-- Whether from `b` to `b'` no payload of the kind has been delivered. -/
def Silence (kind : Kind) (b b' : Switchboard Phone Phone.Control) : Prop :=
  ∃ ds : List Delivery, (∀ d ∈ ds, d.payload.kind ≠ kind) ∧
    heard b'.trace = ds.reverse ++ heard b.trace

/-- If nothing new has been heard, nothing of the kind has been. -/
theorem Silence.of_heard_eq (h : heard b'.trace = heard b.trace) : Silence kind b b' :=
  ⟨[], by simp, h⟩

/-- What calls nobody is heard by nobody. -/
theorem heard_of_change {removes : Registration → Prop}
    (h : Change Phone.source removes b b') : heard b'.trace = heard b.trace := by
  cases h with
  | nothing _ h => rw [h.trace]
  | register callback kind _ _ h =>
      rw [h.trace, ← heard_story, (registering Phone.source callback kind _ _ b).story_eq,
        heard_story]
  | withdraw _ h =>
      rw [h.trace, ← heard_story, story_withdraw, ← heard_story b.trace]
      rfl
  | setDefault _ h =>
      rw [h.trace, ← heard_story, (moving Phone.source _ b).story_eq, heard_story]

/-- A command that calls nobody, while the phone does not admit the kind. -/
theorem vacant_obey (hv : Vacant kind b) (hn : ¬ b.source.Admits kind)
    {c : Command Phone.Control} (hc : c.quiet = true) :
    Vacant kind (b.obey Phone.source call none c).2 ∧
      Silence kind b (b.obey Phone.source call none c).2 := by
  have hstep : Advance Phone.source b (b.obey Phone.source call none c).2 :=
    .obey call none c hc b
  constructor
  · rintro r hr rfl
    rcases hstep.kind_live hr with ⟨s, hs, hkind⟩ | hadmits
    · exact hv s hs hkind
    · exact hn hadmits
  · have hchange := heard_of_change (change_attempt (S := Phone.source) call b hc)
    exact .of_heard_eq hchange

/-- A publish is for nobody of the kind. -/
theorem vacant_publish (h : Reaches Phone.source (Switchboard.fresh settings phone) b)
    (hv : Vacant kind b) (about : Kind) (slot : Option Slot) (p : Payload) :
    Vacant kind (b.publish Phone.source call about slot p).2 ∧
      Silence kind b (b.publish Phone.source call about slot p).2 := by
  by_cases hp : Permitted b.registry about slot p
  · obtain ⟨-, hheard, waiting, armed, hregistry⟩ := publish_call h hp
    constructor
    · intro r hr
      rw [hregistry] at hr
      exact hv r (List.mem_filter.mp hr).1
    · refine ⟨_, fun d hd hkind => ?_, hheard⟩
      -- whoever was told is live and of the kind of the payload
      obtain ⟨r, hr, hdelivery⟩ := List.mem_filterMap.mp hd
      obtain ⟨listener, -, rfl⟩ := Option.map_eq_some_iff.mp hdelivery
      obtain ⟨hlive, hheard⟩ := List.mem_filter.mp hr
      have habout := (of_decide_eq_true hheard).1
      exact hv r hlive (habout.trans (hp.1.symm.trans hkind))
  · obtain ⟨e, hpublish, -⟩ := publish_of_not_permitted (S := Phone.source) call hp
    rw [hpublish]
    exact ⟨hv, .of_heard_eq rfl⟩

/-- An update of the kind finds nobody, and one of another kind is not heard of by the kind. -/
theorem vacant_update (h : Reaches Phone.source (Switchboard.fresh settings phone) b)
    (hv : Vacant kind b) (slot : Slot) (p : Payload) :
    Vacant kind (b.update Phone.source call slot p).2 ∧
      Silence kind b (b.update Phone.source call slot p).2 := by
  unfold update
  split
  · exact vacant_publish h hv _ _ p
  · split
    · exact ⟨hv, .of_heard_eq rfl⟩
    · have hreport : Reaches Phone.source (Switchboard.fresh settings phone)
          (b.report Phone.source slot p).2 := h.tail (.report slot p b)
      have hvacant : Vacant kind (b.report Phone.source slot p).2 := hv
      have hheard : heard (b.report Phone.source slot p).2.trace = heard b.trace := rfl
      rcases hnews : b.report Phone.source slot p with ⟨_ | q, after⟩
      · rw [hnews] at hvacant hheard
        exact ⟨hvacant, .of_heard_eq hheard⟩
      · rw [hnews] at hreport hvacant hheard
        obtain ⟨hvacant, ds, hds, hlog⟩ := vacant_publish hreport hvacant p.kind (some slot) q
        rw [hheard] at hlog
        exact ⟨hvacant, ds, hds, hlog⟩

/-! ## steps -/

/-- A step, while the phone does not admit the kind. -/
theorem vacant_carryOut {s : Simulation}
    (h : Reaches Phone.source (Switchboard.fresh settings phone) s.board)
    (hv : Vacant kind s.board) (hn : ¬ s.board.source.Admits kind) (step : Step) :
    Vacant kind (s.carryOut step).2 ∧ Silence kind s.board (s.carryOut step).2 := by
  cases step with
  | publish slot p => exact vacant_update h hv _ p
  | unsubscribe event listener =>
      refine vacant_obey hv hn ?_
      cases listener with
      | none => rfl
      | some listener =>
          simp only [request]
          split <;> rfl
  | _ => exact vacant_obey hv hn rfl

/-- A step before the phone admits the kind registers nobody for it, and reports nothing of it. -/
theorem vacant_take {s : Simulation}
    (h : Reaches Phone.source (Switchboard.fresh settings phone) s.board)
    (hv : Vacant kind s.board) (hn : ¬ s.board.source.Admits kind) (index : Nat) (step : Step) :
    Vacant kind (s.take index step).2.board ∧
      ∀ d ∈ (s.take index step).1.deliveries, d.payload.kind ≠ kind := by
  obtain ⟨hvacant, ds, hds, hheard⟩ := vacant_carryOut h hv hn step
  have hdeliveries := deliveries_since (reaches_carryOut s step).suffix hheard
  rw [take_eq]
  refine ⟨hvacant, fun d hd => hds d ?_⟩
  rwa [hdeliveries] at hd

/-! ## scripts -/

/-- The first `n` steps, if the phone admits the kind before none of them. -/
theorem vacant_takeAll {s : Simulation} {steps : List Step} {index n : Nat}
    (h : Reaches Phone.source (Switchboard.fresh settings phone) s.board)
    (hv : Vacant kind s.board)
    (hn : ∀ m < n, ¬ (s.takeAll index (steps.take m)).2.board.source.Admits kind) :
    Vacant kind (s.takeAll index (steps.take n)).2.board ∧
      ∀ outcome ∈ (s.takeAll index steps).1.take n, ∀ d ∈ outcome.deliveries,
        d.payload.kind ≠ kind := by
  induction steps generalizing s index n with
  | nil =>
      rw [List.take_nil]
      exact ⟨hv, by simp [takeAll]⟩
  | cons step steps ih =>
      cases n with
      | zero => exact ⟨hv, by simp⟩
      | succ n =>
          obtain ⟨hvacant, hquiet⟩ := vacant_take h hv (hn 0 (Nat.succ_pos n)) index step
          have hafter : Reaches Phone.source (Switchboard.fresh settings phone)
              (s.take index step).2.board := h.trans (reaches_carryOut s step)
          have hothers := ih hafter hvacant (n := n) fun m hm => hn (m + 1) (by omega)
          refine ⟨hothers.1, fun outcome houtcome => ?_⟩
          rcases List.mem_cons.mp houtcome with rfl | houtcome
          · exact hquiet
          · exact hothers.2 outcome houtcome

end

/-- **Without access there is no delivery.**  If before none of the first `n` steps of a
script the application was entitled to a kind while the phone could be reached, then after
them no live registration is of the kind, and none of them has delivered a payload of the
kind, whatever the settings, the phone and the script. -/
theorem unadmitted_never_heard (settings : SlotSettings) (phone : Phone) (script : Script)
    (kind : Kind) (n : Nat)
    (hn : ∀ m < n,
      ¬ ((fresh settings phone).takeAll 0 (script.steps.take m)).2.board.source.Admits kind) :
    (∀ r ∈ ((fresh settings phone).takeAll 0 (script.steps.take n)).2.board.registry.live,
      r.kind ≠ kind) ∧
    ∀ outcome ∈ ((fresh settings phone).replay script).1.steps.take n,
      ∀ d ∈ outcome.deliveries, d.payload.kind ≠ kind := by
  have hstart : Reaches Phone.source (Switchboard.fresh settings phone)
      (fresh settings phone).board := .refl
  have hvacant : Vacant kind (fresh settings phone).board := by
    simp [Vacant, fresh, Switchboard.fresh, Registry.ofSettings]
  exact vacant_takeAll hstart hvacant hn

/-! ### a sample script

The application is entitled to a kind only while the phone cannot be reached.  It is told of
another kind, on the slot that has become the default slot. -/

namespace Sample

def cutOff : Script :=
  ⟨[.setConnected false, .grant Permission.getTelephonyState,
    .subscribe "voiceMailMsgIndicatorChange" "first" none false,
    .revoke Permission.getTelephonyState, .setConnected true,
    .subscribe "voiceMailMsgIndicatorChange" "first" none false,
    .subscribe "iccAccountInfoChange" "second" none true, .setDefaultSlot 1,
    .publish none (.voiceMail true), .publish none .iccAccount]⟩

def system : Phone := .withGrants "now" true []

end Sample

/-- The system application has not had the kind admitted in the first ten steps. -/
theorem unadmitted_never_heard_cutOff :
    (∀ m < 10, ¬ ((fresh {} Sample.system).takeAll 0
      (Sample.cutOff.steps.take m)).2.board.source.Admits .voiceMail) ∧
    (∀ r ∈ ((fresh {} Sample.system).takeAll 0
      (Sample.cutOff.steps.take 10)).2.board.registry.live, r.kind ≠ .voiceMail) ∧
    (∀ outcome ∈ ((fresh {} Sample.system).replay Sample.cutOff).1.steps.take 10,
      ∀ d ∈ outcome.deliveries, d.payload.kind ≠ .voiceMail) ∧
    ((fresh {} Sample.system).replay Sample.cutOff).1.steps.map (·.deliveries.length) =
      [0, 0, 0, 0, 0, 0, 0, 0, 0, 1] :=
  have hn : ∀ m < 10, ¬ ((fresh {} Sample.system).takeAll 0
      (Sample.cutOff.steps.take m)).2.board.source.Admits .voiceMail := by decide +kernel
  have hsilent := unadmitted_never_heard {} Sample.system Sample.cutOff .voiceMail 10 hn
  ⟨hn, hsilent.1, hsilent.2, by decide +kernel⟩

end Simulation

end SlotWatch

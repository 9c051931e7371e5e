import SlotWatch.Proofs.Removal

/-!
# SlotWatch.Proofs.Delivery

Whom a publish calls.

The roster of a publish is fixed when it begins; from then on the listeners it calls may
do what they like.  `Turns` says what it then has to do, in terms of the trace alone:

1. it comes to the registrations of the roster in order;
2. one that a command has asked to be removed since the publish began is passed over;
3. every other one is called, and what is first put on the trace by that is that it is
   handed the payload.
-/

namespace SlotWatch

variable {σ ε : Type}

/-! ## payloads and callbacks -/

/-- A payload has a value for listeners of its own kind. -/
theorem Payload.isSome_extract? (p : Payload) : (p.extract? p.kind).isSome := by
  cases p <;> rfl

/-- A callback for values of a kind can be handed a payload of the kind. -/
theorem Callback.accepts_of_suits {callback : Callback} {p : Payload}
    (h : callback.suits p.kind) : callback.accepts p = true := by
  cases callback with
  | whole => rfl
  | typed _ k =>
      cases (h : k = p.kind)
      exact p.isSome_extract?
  | channel _ k =>
      cases (h : k = p.kind)
      exact p.isSome_extract?

namespace Switchboard

variable {S : Source σ ε}

/-! ## at every moment -/

/-- Whether the callbacks of what is live or due are for its kind. -/
def Suited (g : Registry) (due : List Registration) (_ : List (Event σ ε)) : Prop :=
  ∀ r, g.Knows due r → r.callback.suits r.kind

/-- Callbacks are registered for kinds that suit them, and keep them. -/
theorem upheld_suited : Upheld (Suited : _ → _ → List (Event σ ε) → Prop) where
  remark _ _ h := h
  add hc _ _ h := by
    intro r hr
    rcases Registry.knows_of_knows_add hr with hr | rfl
    · exact h r hr
    · exact hc
  withdraw _ h := fun r hr => h r (Registry.knows_of_knows_withdraw hr)
  moveDefault _ h := by
    intro r hr
    obtain ⟨s, hs, _, hterms⟩ := Registry.knows_of_knows_moveDefault hr
    rw [← Registration.kind_eq_of_terms_eq hterms, ← Registration.callback_eq_of_terms_eq hterms]
    exact h s hs
  collect _ _ h := fun r hr => h r (Registry.knows_of_knows_collect hr)
  skip _ h := fun r hr => h r (Registry.knows_of_knows_claim hr)
  call _ _ h := fun r hr => h r (Registry.knows_of_knows_claim hr)

/-- Whoever is live or due can take the payloads of its kind. -/
theorem Reaches.suited {settings : SlotSettings} {source : σ} {b : Switchboard σ ε}
    (h : Reaches S (fresh settings source) b) :
    Suited b.registry b.running.flatten (story b.trace) := by
  refine upheld_suited.reaches h fun r hr => ?_
  simp [Registry.Knows, Registry.ofSettings] at hr

/-! ## the turns of a publish -/

/-- `Turns invoke p b rs c called after`: on `c`, with `rs` still to come to, a publish
that began on `b` calls `called` and arrives at `after`. -/
inductive Turns (invoke : Invoke σ ε) (p : Payload) (b : Switchboard σ ε) :
    List Registration → Switchboard σ ε → List Registration → Switchboard σ ε → Prop where
  | done (c : Switchboard σ ε) : Turns invoke p b [] c [] c
  | call (hr : ¬ RemovedSince r b c)
      (hp : (.delivered r p :: c.trace) <:+ (invoke r p (c.comeTo r rs).2).2.trace)
      (h : Turns invoke p b rs (invoke r p (c.comeTo r rs).2).2 called after) :
      Turns invoke p b (r :: rs) c (r :: called) after
  | skip (hr : RemovedSince r b c) (h : Turns invoke p b rs (c.comeTo r rs).2 called after) :
      Turns invoke p b (r :: rs) c called after

/-- Whom a publish calls is part of its roster, in the same order. -/
theorem Turns.sublist {invoke : Invoke σ ε} {p : Payload} {b c after : Switchboard σ ε}
    {rs called : List Registration} (h : Turns invoke p b rs c called after) :
    called.Sublist rs := by
  induction h with
  | done => exact .slnil
  | call _ _ _ ih => exact ih.cons_cons _
  | skip _ _ ih => exact ih.cons _

/-- A call is on the trace before anything that the listener does. -/
theorem suffix_invoke {invoke : Invoke σ ε} (hi : Proper S invoke) {p : Payload}
    {r : Registration} (hr : r.callback.accepts p = true) (b : Switchboard σ ε) :
    (.delivered r p :: b.trace) <:+ (invoke r p b).2.trace := by
  have hhanded : (b.hand r p).2.trace = .delivered r p :: b.trace := by
    rw [(alike_hand r p b).trace, note_trace, Registration.handed, if_pos hr]
  rw [← hhanded]
  exact Reaches.suffix (hi r p b).1

/-- Coming to collected registrations. -/
theorem turns_deliverAll {invoke : Invoke σ ε} (hi : Proper S invoke) {settings : SlotSettings}
    {source : σ} {b : Switchboard σ ε} (hb : Reaches S (fresh settings source) b)
    {p : Payload} {rs : List Registration} {rest : List (List Registration)}
    {c : Switchboard σ ε} (hc : Reaches S b c) (hrunning : c.running = rs :: rest)
    (hrs : ∀ r ∈ rs, r ∈ b.registry.live ∧ r.kind = p.kind) :
    Turns invoke p b rs c (deliverAll invoke p rs c).1 (deliverAll invoke p rs c).2 := by
  induction rs generalizing c with
  | nil => exact .done c
  | cons r rs ih =>
      obtain ⟨hlive, hkind⟩ := hrs r List.mem_cons_self
      have hdue : r ∈ c.running.flatten := by simp [hrunning]
      have hfresh : Reaches S (fresh settings source) c := hb.trans hc
      have harmed := (comeTo_armed r rs c).trans
        (mem_armed_iff hb hc hlive hdue)
      obtain ⟨hturn, hrunning'⟩ := reaches_turn hi hrunning hkind
      have hothers := ih (hc.trans hturn) hrunning' fun r' hr' =>
        hrs r' (List.mem_cons_of_mem r hr')
      unfold deliverAll
      cases ha : (c.comeTo r rs).1 with
      | true =>
          rw [turn_of_armed invoke p ha] at hothers ⊢
          have hsuits := hfresh.suited r (.inr hdue)
          rw [hkind] at hsuits
          have haccepts := Callback.accepts_of_suits hsuits
          exact .call (harmed.mp ha) (suffix_invoke hi haccepts (c.comeTo r rs).2) hothers
      | false =>
          rw [turn_of_not_armed invoke p ha] at hothers ⊢
          refine .skip ?_ hothers
          by_contra hnot
          rw [harmed.mpr hnot] at ha
          contradiction

/-! ## whom a publish is for -/

/-- Whether what a publish is given is in order. -/
def Permitted (g : Registry) (kind : Kind) (slot : Option Slot) (p : Payload) : Prop :=
  p.kind = kind ∧
    ∀ s, slot = some s → kind.selectable → g.validateSlot kind s = .ok ()

/-- A slot that is named must be a slot of the kind, if the kind has slots. -/
theorem permitted_iff {g : Registry} {kind : Kind} {slot : Option Slot} {p : Payload}
    (hcount : g.slotCount ≠ Int32.maxValue) :
    Permitted g kind slot p ↔ p.kind = kind ∧
      ∀ s, slot = some s → kind.selectable → kind.minSlot ≤ s ∧ s ≤ g.slotCount := by
  simp only [Permitted, Registry.validateSlot_eq_ok_iff, hcount, ne_eq, not_false_eq_true,
    and_true]

/-- The registrations that an event is for, in the order in which they were made. -/
def roster (g : Registry) (kind : Kind) (slot : Slot) : List Registration :=
  g.live.filter fun r =>
    r.kind = kind ∧
      (kind = .iccAccount ∨ r.selector = some slot ∨ r.selector = none ∧ slot = g.defaultSlot)

/-- A publish collects whom its event is for. -/
theorem audience_eq (kind : Kind) (slot : Slot) (b : Switchboard σ ε) :
    b.audience kind slot = roster b.registry kind slot := by
  refine List.filter_congr fun r _ => ?_
  have hselectable : kind.selectable = false ↔ kind = .iccAccount := by
    cases kind <;> decide
  rw [Registration.hears, Bool.eq_iff_iff]
  simp only [Bool.and_eq_true, Bool.or_eq_true, Bool.not_eq_true', beq_iff_eq, hselectable,
    decide_eq_true_eq]
  cases r.selector <;> simp

/-- What is in order passes the check. -/
theorem checkPublish_of_permitted {b : Switchboard σ ε} {kind : Kind} {slot : Option Slot}
    {p : Payload} (h : Permitted b.registry kind slot p) :
    b.checkPublish kind slot p = .ok () := by
  unfold checkPublish
  rw [if_neg (not_not.mpr h.1)]
  cases slot with
  | none => rfl
  | some s =>
      by_cases hk : kind.selectable
      · simp only [if_pos hk]
        exact h.2 s rfl hk
      · simp only [if_neg hk]

/-- A publish that is not in order is refused for what it was given. -/
theorem checkPublish_of_not_permitted {b : Switchboard σ ε} {kind : Kind} {slot : Option Slot}
    {p : Payload} (h : ¬ Permitted b.registry kind slot p) :
    ∃ e, b.checkPublish kind slot p = .error e ∧ e.category = .invalidParameter := by
  unfold checkPublish
  by_cases hkind : p.kind ≠ kind
  · rw [if_pos hkind]
    exact ⟨_, rfl, rfl⟩
  rw [if_neg hkind]
  cases slot with
  | none => exact absurd ⟨not_not.mp hkind, nofun⟩ h
  | some s =>
      by_cases hk : kind.selectable
      · have hslot : ¬ b.registry.validateSlot kind s = .ok () := by
          intro hs
          refine h ⟨not_not.mp hkind, fun s' hs' _ => ?_⟩
          cases hs'
          exact hs
        simp only [if_pos hk]
        exact ⟨_, Registry.validateSlot_of_not_ok hslot, rfl⟩
      · exact absurd ⟨not_not.mp hkind, fun _ _ hs => absurd hs hk⟩ h

/-! ## publishing -/

/-- A publish that is not in order does nothing. -/
theorem publish_of_not_permitted (invoke : Invoke σ ε) {b : Switchboard σ ε} {kind : Kind}
    {slot : Option Slot} {p : Payload} (h : ¬ Permitted b.registry kind slot p) :
    ∃ e, b.publish S invoke kind slot p = (.error e, b) ∧ e.category = .invalidParameter := by
  obtain ⟨e, he, hcategory⟩ := checkPublish_of_not_permitted h
  refine ⟨e, ?_, hcategory⟩
  unfold publish
  rw [he]

/-- A publish that is in order comes to its roster turn by turn, and counts whom it has called. -/
theorem publish_of_permitted {invoke : Invoke σ ε} (hi : Proper S invoke)
    {settings : SlotSettings} {source : σ} {b : Switchboard σ ε}
    (hb : Reaches S (fresh settings source) b) {kind : Kind} {slot : Option Slot} {p : Payload}
    (h : Permitted b.registry kind slot p) :
    ∃ called after,
      Turns invoke p b (roster b.registry kind (slot.getD b.registry.defaultSlot))
        (b.launch S kind (slot.getD b.registry.defaultSlot) p) called after ∧
      b.publish S invoke kind slot p = (.ok called.length, after.land) := by
  have hlaunch := Advance.launch (S := S) (slot.getD b.registry.defaultSlot) h.1 b
  have hrunning := launch_running S kind (slot.getD b.registry.defaultSlot) p b
  have hroster : ∀ r ∈ b.audience kind (slot.getD b.registry.defaultSlot),
      r ∈ b.registry.live ∧ r.kind = p.kind := fun r hr =>
    ⟨(List.mem_filter.mp hr).1, (kind_of_mem_audience hr).trans h.1.symm⟩
  have hturns := turns_deliverAll hi hb (.single hlaunch) hrunning hroster
  rw [← audience_eq]
  refine ⟨_, _, hturns, ?_⟩
  unfold publish
  rw [checkPublish_of_permitted h]

/-- **A publish calls exactly whom it is for**, on every board that a run can reach and
whatever the listeners do meanwhile.  What it is given is in order if the payload is of the
kind and the slot, if one is named and the kind has slots, is one of them.  If it is not in
order, nothing happens.  Otherwise it comes to the registrations that it is for when it
begins, in the order in which they were made, and calls each, once and with its payload,
unless a command has asked for its removal since. -/
theorem publish_exact {settings : SlotSettings} {source : σ} {b : Switchboard σ ε}
    (h : Reaches S (fresh settings source) b) (react : React σ ε) (limit : Nat) (kind : Kind)
    (slot : Option Slot) (p : Payload) :
    (b.registry.slotCount ≠ Int32.maxValue →
      (Permitted b.registry kind slot p ↔ p.kind = kind ∧
        ∀ s, slot = some s → kind.selectable → kind.minSlot ≤ s ∧ s ≤ b.registry.slotCount)) ∧
    (¬ Permitted b.registry kind slot p →
      ∃ e, b.publish S (hear S react limit) kind slot p = (.error e, b) ∧
        e.category = .invalidParameter) ∧
    (Permitted b.registry kind slot p →
      ∃ called after,
        Turns (hear S react limit) p b
          (roster b.registry kind (slot.getD b.registry.defaultSlot))
          (b.launch S kind (slot.getD b.registry.defaultSlot) p) called after ∧
        b.publish S (hear S react limit) kind slot p = (.ok called.length, after.land) ∧
        called.Sublist (roster b.registry kind (slot.getD b.registry.defaultSlot)) ∧
        (called.map (·.id)).Nodup) := by
  refine ⟨permitted_iff, publish_of_not_permitted (hear S react limit), fun hp => ?_⟩
  obtain ⟨called, after, hturns, hpublish⟩ :=
    publish_of_permitted (proper_hear S react limit) h hp
  have hlive := hturns.sublist.trans List.filter_sublist
  exact ⟨called, after, hturns, hpublish, hturns.sublist,
    h.inOrder.1.nodup_live.sublist (hlive.map _)⟩

/-- A payload for the default slot is in order on a board with two registrations. -/
theorem publish_exact_ready :
    Reaches Bench.source (fresh Sample.settings Sample.bench) Sample.ready ∧
      Permitted Sample.ready.registry .voiceMail none (.voiceMail true) ∧
      ∃ called after,
        Turns (hear Bench.source Sample.react 2) (.voiceMail true) Sample.ready
          (roster Sample.ready.registry .voiceMail 0)
          (Sample.ready.launch Bench.source .voiceMail 0 (.voiceMail true)) called after ∧
        Sample.ready.publish Bench.source (hear Bench.source Sample.react 2) .voiceMail none
          (.voiceMail true) = (.ok called.length, after.land) ∧
        called.Sublist (roster Sample.ready.registry .voiceMail 0) ∧
        (called.map (·.id)).Nodup :=
  have h := (settles_run Sample.react 2 Sample.registrations
    (fresh Sample.settings Sample.bench)).1
  have hp : Permitted Sample.ready.registry .voiceMail none (.voiceMail true) :=
    ⟨rfl, nofun⟩
  ⟨h, hp, (publish_exact h Sample.react 2 .voiceMail none (.voiceMail true)).2.2 hp⟩

end Switchboard

end SlotWatch

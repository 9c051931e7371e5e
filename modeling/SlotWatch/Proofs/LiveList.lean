import SlotWatch.Proofs.Delivery

/-!
# SlotWatch.Proofs.LiveList

What can be relied on in the list of live registrations (`Registry.Sound`).

1. No two are for the same kind, selector, callback and mode.
2. Each observes its selector or, without one, the default slot of the moment.
3. A selector is a slot of the kind, and only kinds with slots have one.
4. The default slot is the configured one or a slot of the phone.

Each operation of the registry keeps the list sound.  So a registration that repeats a
live one always finds it, and a new one is put at the end.
-/

namespace SlotWatch

variable {σ ε : Type}

theorem Registration.selector_eq_of_terms_eq {r s : Registration} (h : r.terms = s.terms) :
    r.selector = s.selector :=
  congrArg (fun t => t.2.1) h

/-- After a move of the default slot a registration without a selector observes it. -/
theorem Registration.moved_observed (slot : Slot) (r : Registration) :
    (r.moved slot).observed = if r.selector = none then slot else r.observed := by
  unfold Registration.moved Registration.follows
  cases r.selector with
  | some s => simp
  | none =>
      by_cases ho : r.observed = slot
      · simp [ho]
      · simp [ho]

namespace Registry

/-! ## selectors -/

/-- Whether a listener of the kind may select the slot. -/
def Allows (g : Registry) (kind : Kind) (slot : Slot) : Prop :=
  kind.selectable = true ∧ g.validateSlot kind slot = .ok ()

/-- What is asked for is what is selected, if it is allowed. -/
theorem selector_eq_ok_iff {g : Registry} {kind : Kind} {options : Option Options}
    {selector : Option Slot} :
    g.selector kind options = .ok selector ↔
      selector = options.map (·.slot) ∧ ∀ slot, selector = some slot → g.Allows kind slot := by
  cases options with
  | none => cases selector <;> simp [Registry.selector]
  | some o =>
      unfold Registry.selector
      simp only [Option.map_some]
      by_cases hk : kind.selectable = true
      · rw [if_pos hk]
        by_cases hv : g.validateSlot kind o.slot = .ok ()
        · rw [hv]
          constructor
          · rintro ⟨⟩
            exact ⟨rfl, by rintro _ ⟨⟩; exact ⟨hk, hv⟩⟩
          · rintro ⟨rfl, -⟩
            rfl
        · rw [validateSlot_of_not_ok hv]
          constructor
          · nofun
          · rintro ⟨rfl, hallowed⟩
            exact absurd (hallowed _ rfl).2 hv
      · rw [if_neg hk]
        constructor
        · nofun
        · rintro ⟨rfl, hallowed⟩
          exact absurd (hallowed _ rfl).1 hk

/-! ## repetitions -/

/-- A registration is found again by what it was made for. -/
theorem duplicate?_eq (g : Registry) (kind : Kind) (selector : Option Slot)
    (callback : Callback) (mode : Mode) :
    g.duplicate? kind selector callback mode =
      g.live.find? fun r => r.terms == (kind, selector, callback, mode) := by
  unfold duplicate?
  congr 1
  funext r
  rw [Bool.eq_iff_iff]
  simp [Registration.terms, and_assoc]

/-- It is the only one of its kind. -/
theorem duplicate?_of_mem {g : Registry} (hnodup : (g.live.map Registration.terms).Nodup)
    {r : Registration} (hr : r ∈ g.live) {kind : Kind} {selector : Option Slot}
    {callback : Callback} {mode : Mode} (hterms : r.terms = (kind, selector, callback, mode)) :
    g.duplicate? kind selector callback mode = some r := by
  rw [duplicate?_eq]
  cases hfound : g.live.find? fun s => s.terms == (kind, selector, callback, mode) with
  | none =>
      have hne := List.find?_eq_none.mp hfound r hr
      rw [hterms, beq_self_eq_true] at hne
      contradiction
  | some s =>
      have hlike := List.find?_some hfound
      have hsame : s.terms = r.terms := by
        rw [hterms]
        exact beq_iff_eq.mp hlike
      rw [List.inj_on_of_nodup_map hnodup (List.mem_of_find?_eq_some hfound) hr hsame]

/-- There is no repetition if nobody live was made for the same. -/
theorem duplicate?_eq_none_iff {g : Registry} {kind : Kind} {selector : Option Slot}
    {callback : Callback} {mode : Mode} :
    g.duplicate? kind selector callback mode = none ↔
      ∀ r ∈ g.live, r.terms ≠ (kind, selector, callback, mode) := by
  simp [duplicate?_eq]

/-! ## soundness -/

/-- What can be relied on in the live list of a registry that was made with settings. -/
structure Sound (settings : SlotSettings) (g : Registry) : Prop where
  nodup_terms : (g.live.map Registration.terms).Nodup
  observed_eq {r} : r ∈ g.live → r.observed = r.selector.getD g.defaultSlot
  allows {r slot} : r ∈ g.live → r.selector = some slot → g.Allows r.kind slot
  slotCount_eq : g.slotCount = settings.slotCount
  defaultSlot_of : g.defaultSlot = settings.defaultSlot ∨
    0 ≤ g.defaultSlot ∧ g.defaultSlot < g.slotCount

namespace Sound

variable {settings : SlotSettings} {g : Registry}

/-- A list without registrations is sound. -/
theorem ofSettings (settings : SlotSettings) : Sound settings (.ofSettings settings) where
  nodup_terms := List.nodup_nil
  observed_eq h := by contradiction
  allows h := by contradiction
  slotCount_eq := rfl
  defaultSlot_of := .inl rfl

/-- A registration is made if what it selects is allowed and it repeats none, and it observes
its selector or the default slot. -/
theorem add (h : Sound settings g) {kind : Kind} {options : Option Options}
    {selector : Option Slot} {callback : Callback} {mode : Mode}
    (hs : g.selector kind options = .ok selector)
    (hd : g.duplicate? kind selector callback mode = none) :
    Sound settings (g.add kind selector callback mode) where
  nodup_terms := by
    have hnew := duplicate?_eq_none_iff.mp hd
    simp only [Registry.add, List.map_append, List.map_cons, List.map_nil]
    rw [List.nodup_append]
    refine ⟨h.nodup_terms, List.nodup_singleton _, fun a ha c hc => ?_⟩
    obtain ⟨r, hr, rfl⟩ := List.mem_map.mp ha
    rw [List.mem_singleton.mp hc]
    exact hnew r hr
  observed_eq hr := by
    rcases mem_live_add.mp hr with hr | rfl
    · exact h.observed_eq hr
    · rfl
  allows hr hslot := by
    rcases mem_live_add.mp hr with hr | rfl
    · exact h.allows hr hslot
    · exact (selector_eq_ok_iff.mp hs).2 _ hslot
  slotCount_eq := h.slotCount_eq
  defaultSlot_of := h.defaultSlot_of

/-- Some registrations leave, and the slots are as they were. -/
theorem of_sublist (h : Sound settings g) {g' : Registry} (hlive : g'.live.Sublist g.live)
    (hcount : g'.slotCount = g.slotCount) (hdefault : g'.defaultSlot = g.defaultSlot) :
    Sound settings g' where
  nodup_terms := h.nodup_terms.sublist (hlive.map _)
  observed_eq hr := by
    rw [hdefault]
    exact h.observed_eq (hlive.subset hr)
  allows hr hslot := by
    rw [Allows, validateSlot_congr hcount]
    exact h.allows (hlive.subset hr) hslot
  slotCount_eq := by rw [hcount, h.slotCount_eq]
  defaultSlot_of := by
    rw [hdefault, hcount]
    exact h.defaultSlot_of

/-- Claiming a one-shot leaves the live list alone. -/
theorem claim (h : Sound settings g) (r : Registration) : Sound settings (g.claim r).2 := by
  refine h.of_sublist ?_ ?_ ?_
  · rw [claim_live]
  · unfold Registry.claim
    split <;> rfl
  · unfold Registry.claim
    split <;> rfl

/-- Those without a selector move with the default slot, and the others stay. -/
theorem moveDefault (h : Sound settings g) {slot : Slot}
    (hslot : ¬ (slot < 0 ∨ g.slotCount ≤ slot)) : Sound settings (g.moveDefault slot).1 where
  nodup_terms := by
    have hterms : (g.moveDefault slot).1.live.map Registration.terms =
        g.live.map Registration.terms := by
      simp [Registry.moveDefault]
    rw [hterms]
    exact h.nodup_terms
  observed_eq hr := by
    obtain ⟨s, hs, rfl⟩ := List.mem_map.mp hr
    have hdefault : (g.moveDefault slot).1.defaultSlot = slot := rfl
    rw [Registration.moved_observed, Registration.selector_eq_of_terms_eq (s.moved_terms slot),
      hdefault]
    cases hselector : s.selector with
    | none => rfl
    | some selected =>
        rw [if_neg (Option.some_ne_none selected), h.observed_eq hs, hselector]
        rfl
  allows hr hselected := by
    obtain ⟨s, hs, rfl⟩ := List.mem_map.mp hr
    rw [Registration.selector_eq_of_terms_eq (s.moved_terms slot)] at hselected
    rw [Registration.kind_eq_of_terms_eq (s.moved_terms slot)]
    exact h.allows hs hselected
  slotCount_eq := h.slotCount_eq
  defaultSlot_of := by
    rw [not_or, Int32.not_lt, Int32.not_le] at hslot
    exact .inr hslot

end Sound

end Registry

namespace Switchboard

variable {S : Source σ ε}

/-! ## registering -/

section
variable {settings : SlotSettings} {b : Switchboard σ ε} {callback : Callback} {kind : Kind}
  {options : Option Options} {mode : Mode}

/-- A registration that repeats a live one is that one. -/
theorem register_of_repeated (h : b.registry.Sound settings) {r : Registration}
    (hr : r ∈ b.registry.live) (hterms : r.terms = (kind, options.map (·.slot), callback, mode)) :
    b.register S callback kind options mode = (.ok r.id, b) := by
  have hkind : r.kind = kind := congrArg (fun t => t.1) hterms
  have hselector : r.selector = options.map (·.slot) := congrArg (fun t => t.2.1) hterms
  have hs : b.registry.selector kind options = .ok (options.map (·.slot)) := by
    refine Registry.selector_eq_ok_iff.mpr ⟨rfl, fun slot hslot => ?_⟩
    rw [← hselector] at hslot
    rw [← hkind]
    exact h.allows hr hslot
  have hd := Registry.duplicate?_of_mem h.nodup_terms hr hterms
  simp only [register, hs, hd]

/-- A registration that repeats none is put at the end. -/
theorem live_register_of_new
    (hnew : ∀ r ∈ b.registry.live, r.terms ≠ (kind, options.map (·.slot), callback, mode))
    {id : Nat} (ho : (b.register S callback kind options mode).1 = .ok id) :
    ∃ r : Registration, r.id = id ∧ r.terms = (kind, options.map (·.slot), callback, mode) ∧
      (b.register S callback kind options mode).2.registry.live = b.registry.live ++ [r] := by
  have hcases := registering S callback kind options mode b
  rw [ho] at hcases
  generalize (b.register S callback kind options mode).2 = b' at hcases
  cases hcases with
  | repeated hs hd =>
      obtain ⟨rfl, -⟩ := Registry.selector_eq_ok_iff.mp hs
      rw [Registry.duplicate?_eq] at hd
      have hlike := List.find?_some hd
      exact absurd (beq_iff_eq.mp hlike) (hnew _ (List.mem_of_find?_eq_some hd))
  | joined hs | started hs =>
      obtain ⟨rfl, -⟩ := Registry.selector_eq_ok_iff.mp hs
      exact ⟨b.registry.made kind _ callback mode, rfl, rfl, rfl⟩

end

/-! ## at every moment -/

/-- The live list stays sound, operation by operation. -/
theorem upheld_sound (settings : SlotSettings) :
    Upheld fun g _ (_ : List (Event σ ε)) => g.Sound settings where
  remark _ _ h := h
  add _ hs hd h := h.add hs hd
  withdraw _ h := h.of_sublist List.filter_sublist rfl rfl
  moveDefault hslot h := h.moveDefault hslot
  collect _ _ h := h.of_sublist List.filter_sublist rfl rfl
  skip _ h := h.claim _
  call _ _ h := h.claim _

/-- The live list is sound on every board that a run reaches. -/
theorem Reaches.sound {settings : SlotSettings} {source : σ} {b : Switchboard σ ε}
    (h : Reaches S (fresh settings source) b) : b.registry.Sound settings :=
  (upheld_sound settings).reaches h (.ofSettings settings)

/-- A usable configuration has a default slot that is a slot of the phone. -/
theorem defaultSlot_of_validate {config : Settings} (hv : config.validate = .ok ()) :
    0 ≤ config.slots.defaultSlot ∧ config.slots.defaultSlot < config.slots.slotCount := by
  unfold Settings.validate at hv
  split at hv
  · contradiction
  · split at hv
    · contradiction
    · next hslot => rwa [not_or, Int32.not_lt, Int32.not_le] at hslot

/-- Slot 0 is in the range of every kind, as far as its beginning goes. -/
theorem minSlot_le_zero (kind : Kind) : kind.minSlot ≤ 0 := by
  cases kind <;> decide

/-- What a live registration observes is a slot of its kind, if the default slot is a slot
of the phone. -/
theorem validateSlot_observed {settings : SlotSettings} {g : Registry} (h : g.Sound settings)
    (hcount : g.slotCount ≠ Int32.maxValue)
    (hdefault : 0 ≤ g.defaultSlot ∧ g.defaultSlot < g.slotCount) {r : Registration}
    (hr : r ∈ g.live) : g.validateSlot r.kind r.observed = .ok () := by
  rw [h.observed_eq hr]
  cases hselector : r.selector with
  | some slot => exact (h.allows hr hselector).2
  | none =>
      refine Registry.validateSlot_eq_ok_iff.mpr ⟨?_, ?_, hcount⟩
      · exact Int32.le_trans (minSlot_le_zero r.kind) hdefault.1
      · exact Int32.le_of_lt hdefault.2

/-- **The live list is sound**, on every board that a run can reach.

* No two live registrations are for the same; one that repeats a live registration is that
  one, and nothing happens; one that repeats none is put at the end.
* Each observes its selector or, without one, the default slot.
* Selectors are slots of the kind, and account changes have none.
* If the configuration is usable, the default slot is a slot of the phone, and whatever is
  observed is a slot of its kind unless the phone has the largest number of slots. -/
theorem live_list_sound {config : Settings} {source : σ} {b : Switchboard σ ε}
    (h : Reaches S (fresh config.slots source) b) :
    ((b.registry.live.map Registration.terms).Nodup ∧
      ∀ callback kind options mode,
        (∀ r ∈ b.registry.live, r.terms = (kind, options.map (·.slot), callback, mode) →
          b.register S callback kind options mode = (.ok r.id, b)) ∧
        ((∀ r ∈ b.registry.live, r.terms ≠ (kind, options.map (·.slot), callback, mode)) →
          ∀ id, (b.register S callback kind options mode).1 = .ok id →
            ∃ r : Registration, r.id = id ∧
              r.terms = (kind, options.map (·.slot), callback, mode) ∧
              (b.register S callback kind options mode).2.registry.live =
                b.registry.live ++ [r])) ∧
    (∀ r ∈ b.registry.live, r.observed = r.selector.getD b.registry.defaultSlot) ∧
    (∀ r ∈ b.registry.live, ∀ slot, r.selector = some slot →
      r.kind ≠ .iccAccount ∧ r.kind.minSlot ≤ slot ∧ slot ≤ config.slots.slotCount) ∧
    (config.validate = .ok () →
      (0 ≤ b.registry.defaultSlot ∧ b.registry.defaultSlot < config.slots.slotCount) ∧
        (config.slots.slotCount ≠ Int32.maxValue →
          ∀ r ∈ b.registry.live, b.registry.validateSlot r.kind r.observed = .ok ())) := by
  have hsound := h.sound
  have hcount := hsound.slotCount_eq
  refine ⟨⟨hsound.nodup_terms, fun callback kind options mode => ⟨?_, ?_⟩⟩, ?_, ?_, ?_⟩
  · exact fun r hr hterms => register_of_repeated hsound hr hterms
  · exact fun hnew id ho => live_register_of_new hnew ho
  · exact fun r hr => hsound.observed_eq hr
  · intro r hr slot hselector
    obtain ⟨hselectable, hslot⟩ := hsound.allows hr hselector
    obtain ⟨hleast, hmost, -⟩ := Registry.validateSlot_eq_ok_iff.mp hslot
    refine ⟨fun hkind => ?_, hleast, hcount ▸ hmost⟩
    rw [hkind] at hselectable
    contradiction
  · intro hv
    have hdefault : 0 ≤ b.registry.defaultSlot ∧
        b.registry.defaultSlot < b.registry.slotCount := by
      rcases hsound.defaultSlot_of with hsame | hmoved
      · rw [hsame, hcount]
        exact defaultSlot_of_validate hv
      · exact hmoved
    exact ⟨hcount ▸ hdefault, fun hmax r hr =>
      validateSlot_observed hsound (hcount ▸ hmax) hdefault hr⟩

/-! ### a sample list

One listener follows the default slot, which moves, and one has selected the slot of calls
that belong to no card; the first registers once more. -/

namespace Sample

def config : Settings := {}

def spread : Switchboard Bench Bench.Control :=
  run Bench.source react 0
    [ask (.on .voiceMail "first" none .repeating),
      ask (.on .callState "calls" (some ⟨-1⟩) .oneShot), ask (.setDefault 1),
      ask (.on .voiceMail "first" none .repeating)]
    (fresh config.slots bench)

end Sample

/-- One registration has moved to slot 1, and the other stays on slot -1. -/
theorem live_list_sound_spread :
    Reaches Bench.source (fresh Sample.config.slots Sample.bench) Sample.spread ∧
      Sample.config.validate = .ok () ∧
      Sample.spread.registry.live.map (fun r => (r.selector, r.observed)) =
        [(none, 1), (some (-1), -1)] ∧
      (Sample.spread.registry.live.map Registration.terms).Nodup ∧
      (∀ r ∈ Sample.spread.registry.live,
        r.observed = r.selector.getD Sample.spread.registry.defaultSlot) ∧
      (0 ≤ Sample.spread.registry.defaultSlot ∧
        Sample.spread.registry.defaultSlot < Sample.config.slots.slotCount) ∧
      ∀ r ∈ Sample.spread.registry.live,
        Sample.spread.registry.validateSlot r.kind r.observed = .ok () :=
  have hreach : Reaches Bench.source (fresh Sample.config.slots Sample.bench) Sample.spread :=
    (settles_run Sample.react 0 _ (fresh Sample.config.slots Sample.bench)).1
  have hv : Sample.config.validate = .ok () := rfl
  have hsound := live_list_sound hreach
  have husable := hsound.2.2.2 hv
  ⟨hreach, hv, rfl, hsound.1.1, hsound.2.1, husable.1, husable.2 (by decide)⟩

end Switchboard

end SlotWatch

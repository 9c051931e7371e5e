import SlotWatch.Proofs.Registry
import SlotWatch.Proofs.Requests
import SlotWatch.Switchboard.Registering

/-!
# SlotWatch.Proofs.Registering

How making and removing registrations and moving the default slot can end, and what
board each leaves: `Registering` and `Moving` list the cases, and `withdraw_eq` is
the one case of a removal.
-/

namespace SlotWatch

namespace Switchboard

variable {σ ε : Type} (S : Source σ ε)

/-! ## making -/

/-- How making a registration can end. -/
inductive Registering (callback : Callback) (kind : Kind) (options : Option Options)
    (mode : Mode) (b : Switchboard σ ε) : Except Failure Nat → Switchboard σ ε → Prop where
  /-- What is asked for selects no slot of the kind. -/
  | unfit (hs : b.registry.selector kind options = .error e) :
      Registering callback kind options mode b (.error e) b
  /-- There is a live registration like it. -/
  | repeated (hs : b.registry.selector kind options = .ok selector)
      (hd : b.registry.duplicate? kind selector callback mode = some r) :
      Registering callback kind options mode b (.ok r.id) b
  /-- What it needs is observed already. -/
  | joined (hs : b.registry.selector kind options = .ok selector)
      (hd : b.registry.duplicate? kind selector callback mode = none)
      (ho : b.registry.observes (selector.getD b.registry.defaultSlot, kind)) :
      Registering callback kind options mode b (.ok b.registry.nextId)
        { b with registry := b.registry.add kind selector callback mode }
  /-- The source starts what it needs. -/
  | started (hs : b.registry.selector kind options = .ok selector)
      (hd : b.registry.duplicate? kind selector callback mode = none)
      (ho : ¬ b.registry.observes (selector.getD b.registry.defaultSlot, kind))
      (ha : (b.ask S .start (selector.getD b.registry.defaultSlot, kind)).1 = .ok ()) :
      Registering callback kind options mode b (.ok b.registry.nextId)
        { (b.ask S .start (selector.getD b.registry.defaultSlot, kind)).2 with
          registry := b.registry.add kind selector callback mode }
  /-- The source refuses what it needs. -/
  | refused (hs : b.registry.selector kind options = .ok selector)
      (hd : b.registry.duplicate? kind selector callback mode = none)
      (ho : ¬ b.registry.observes (selector.getD b.registry.defaultSlot, kind))
      (ha : (b.ask S .start (selector.getD b.registry.defaultSlot, kind)).1 = .error e) :
      Registering callback kind options mode b (.error e)
        (b.ask S .start (selector.getD b.registry.defaultSlot, kind)).2

/-- Making a registration ends in one of these ways. -/
theorem registering (callback : Callback) (kind : Kind) (options : Option Options)
    (mode : Mode) (b : Switchboard σ ε) :
    Registering S callback kind options mode b (b.register S callback kind options mode).1
      (b.register S callback kind options mode).2 := by
  unfold register
  cases hs : b.registry.selector kind options with
  | error e => exact .unfit hs
  | ok selector =>
      simp only
      cases hd : b.registry.duplicate? kind selector callback mode with
      | some r => exact .repeated hs hd
      | none =>
          simp only [ensure]
          by_cases ho : b.registry.observes (selector.getD b.registry.defaultSlot, kind)
          · rw [if_pos ho]
            exact .joined hs hd ho
          · rw [if_neg ho]
            have hstarted := Registering.started (S := S) hs hd ho
            have hrefused := fun e => Registering.refused (S := S) (e := e) hs hd ho
            have hregistry := ask_registry S .start (selector.getD b.registry.defaultSlot, kind) b
            revert hstarted hrefused hregistry
            rcases b.ask S .start (selector.getD b.registry.defaultSlot, kind) with ⟨_ | _, b'⟩
            · exact fun _ hrefused _ => hrefused _ rfl
            · intro hstarted _ hregistry
              simp only at hregistry ⊢
              rw [hregistry]
              exact hstarted rfl

variable {S}

theorem Registering.running_eq {callback : Callback} {kind : Kind} {options : Option Options}
    {mode : Mode} {b b' : Switchboard σ ε} {o : Except Failure Nat}
    (h : Registering S callback kind options mode b o b') : b'.running = b.running := by
  cases h <;> rfl

/-- Making a registration forgets nothing of what has happened. -/
theorem Registering.suffix {callback : Callback} {kind : Kind} {options : Option Options}
    {mode : Mode} {b b' : Switchboard σ ε} {o : Except Failure Nat}
    (h : Registering S callback kind options mode b o b') : b.trace <:+ b'.trace := by
  cases h with
  | unfit | repeated | joined => exact List.suffix_refl _
  | started | refused => exact suffix_ask S _ _ b

/-- Making a registration asks the source at most, and nothing else happens. -/
theorem Registering.story_eq {callback : Callback} {kind : Kind} {options : Option Options}
    {mode : Mode} {b b' : Switchboard σ ε} {o : Except Failure Nat}
    (h : Registering S callback kind options mode b o b') : story b'.trace = story b.trace := by
  cases h with
  | unfit | repeated | joined => rfl
  | started | refused => exact story_ask S _ _ b

variable (S)

@[simp] theorem register_running (callback : Callback) (kind : Kind) (options : Option Options)
    (mode : Mode) (b : Switchboard σ ε) :
    (b.register S callback kind options mode).2.running = b.running :=
  (registering S callback kind options mode b).running_eq

/-! ## removing -/

/-- The selected registrations have left, and the source has not been told yet. -/
def struck (selected : Registration → Bool) (b : Switchboard σ ε) : Switchboard σ ε :=
  note { b with registry := (b.registry.withdraw selected).rest }
    (.withdrawn (b.registry.withdraw selected).removed)

@[simp] theorem struck_registry (selected : Registration → Bool) (b : Switchboard σ ε) :
    (b.struck selected).registry = (b.registry.withdraw selected).rest := rfl

@[simp] theorem struck_running (selected : Registration → Bool) (b : Switchboard σ ε) :
    (b.struck selected).running = b.running := rfl

@[simp] theorem struck_trace (selected : Registration → Bool) (b : Switchboard σ ε) :
    (b.struck selected).trace =
      .withdrawn (b.registry.withdraw selected).removed :: b.trace := rfl

/-- A removal: the registrations leave, and then the source is told. -/
theorem withdraw_eq (selected : Registration → Bool) (b : Switchboard σ ε) :
    b.withdraw S selected =
      (((b.struck selected).stopAll S (b.registry.withdraw selected).released).1.map
          fun () => (b.registry.withdraw selected).removed,
        ((b.struck selected).stopAll S (b.registry.withdraw selected).released).2) := by
  unfold withdraw struck
  simp only
  split <;> simp_all [Except.map]

@[simp] theorem withdraw_running (selected : Registration → Bool) (b : Switchboard σ ε) :
    (b.withdraw S selected).2.running = b.running := by
  rw [withdraw_eq, stopAll_running, struck_running]

/-- A removal stands, whatever the source answers. -/
@[simp] theorem withdraw_registry (selected : Registration → Bool) (b : Switchboard σ ε) :
    (b.withdraw S selected).2.registry = (b.registry.withdraw selected).rest := by
  rw [withdraw_eq, stopAll_registry, struck_registry]

/-- A removal is one event, apart from requests to the source. -/
theorem story_withdraw (selected : Registration → Bool) (b : Switchboard σ ε) :
    story (b.withdraw S selected).2.trace =
      .withdrawn (b.registry.withdraw selected).removed :: story b.trace := by
  rw [withdraw_eq, story_stopAll, struck_trace, story_cons rfl]

theorem suffix_withdraw (selected : Registration → Bool) (b : Switchboard σ ε) :
    b.trace <:+ (b.withdraw S selected).2.trace := by
  rw [withdraw_eq]
  exact (List.suffix_cons _ _).trans (suffix_stopAll S _ (b.struck selected))

/-! ## the default slot -/

/-- All that is needed on `slot` is started and the default slot has moved there;
the source has not been told yet what was left. -/
def relocated (slot : Slot) (b : Switchboard σ ε) : Switchboard σ ε :=
  { (b.startAll S [] (b.registry.arrivals slot)).2 with
    registry := (b.registry.moveDefault slot).1 }

@[simp] theorem relocated_registry (slot : Slot) (b : Switchboard σ ε) :
    (b.relocated S slot).registry = (b.registry.moveDefault slot).1 := rfl

@[simp] theorem relocated_running (slot : Slot) (b : Switchboard σ ε) :
    (b.relocated S slot).running = b.running :=
  startAll_running S [] _ b

@[simp] theorem relocated_trace (slot : Slot) (b : Switchboard σ ε) :
    (b.relocated S slot).trace = (b.startAll S [] (b.registry.arrivals slot)).2.trace := rfl

/-- How moving the default slot can end. -/
inductive Moving (slot : Slot) (b : Switchboard σ ε) :
    Except Failure Unit → Switchboard σ ε → Prop where
  /-- It is no slot of the phone. -/
  | outside (h : slot < 0 ∨ b.registry.slotCount ≤ slot) :
      Moving slot b (.error (.defaultSlotOutOfRange slot b.registry.slotCount)) b
  /-- It is the default slot. -/
  | stayed (h : ¬ (slot < 0 ∨ b.registry.slotCount ≤ slot)) (hs : b.registry.defaultSlot = slot) :
      Moving slot b (.ok ()) b
  /-- The source refuses something that is needed there. -/
  | refused (h : ¬ (slot < 0 ∨ b.registry.slotCount ≤ slot))
      (hs : b.registry.defaultSlot ≠ slot)
      (ha : (b.startAll S [] (b.registry.arrivals slot)).1 = .error e) :
      Moving slot b (.error e) (b.startAll S [] (b.registry.arrivals slot)).2
  /-- The source starts all that is needed there, and then is told what was left. -/
  | moved (h : ¬ (slot < 0 ∨ b.registry.slotCount ≤ slot)) (hs : b.registry.defaultSlot ≠ slot)
      (ha : (b.startAll S [] (b.registry.arrivals slot)).1 = .ok ()) :
      Moving slot b (.ok ())
        ((b.relocated S slot).stopAll S (b.registry.moveDefault slot).2).2

/-- Moving the default slot ends in one of these ways. -/
theorem moving (slot : Slot) (b : Switchboard σ ε) :
    Moving S slot b (b.setDefault S slot).1 (b.setDefault S slot).2 := by
  unfold setDefault
  by_cases h : slot < 0 ∨ b.registry.slotCount ≤ slot
  · rw [if_pos h]
    exact .outside h
  rw [if_neg h]
  by_cases hs : b.registry.defaultSlot = slot
  · rw [if_pos hs]
    exact .stayed h hs
  rw [if_neg hs]
  have hmoved := Moving.moved (S := S) h hs
  have hrefused := fun e => Moving.refused (S := S) (e := e) h hs
  have hregistry := startAll_registry S [] (b.registry.arrivals slot) b
  unfold relocated at hmoved
  revert hmoved hrefused hregistry
  rcases b.startAll S [] (b.registry.arrivals slot) with ⟨_ | _, b'⟩
  · exact fun _ hrefused _ => hrefused _ rfl
  · intro hmoved _ hregistry
    simp only at hregistry ⊢
    rw [hregistry]
    exact hmoved rfl

variable {S}

theorem Moving.running_eq {slot : Slot} {b b' : Switchboard σ ε} {o : Except Failure Unit}
    (h : Moving S slot b o b') : b'.running = b.running := by
  cases h with
  | outside | stayed => rfl
  | refused => exact startAll_running S _ _ b
  | moved => rw [stopAll_running, relocated_running]

theorem Moving.suffix {slot : Slot} {b b' : Switchboard σ ε} {o : Except Failure Unit}
    (h : Moving S slot b o b') : b.trace <:+ b'.trace := by
  cases h with
  | outside | stayed => exact List.suffix_refl _
  | refused => exact suffix_startAll S _ _ b
  | moved =>
      exact (suffix_startAll S [] (b.registry.arrivals slot) b).trans
        (suffix_stopAll S _ (b.relocated S slot))

theorem Moving.story_eq {slot : Slot} {b b' : Switchboard σ ε} {o : Except Failure Unit}
    (h : Moving S slot b o b') : story b'.trace = story b.trace := by
  cases h with
  | outside | stayed => rfl
  | refused => exact story_startAll S _ _ b
  | moved => rw [story_stopAll, relocated_trace, story_startAll]

variable (S)

@[simp] theorem setDefault_running (slot : Slot) (b : Switchboard σ ε) :
    (b.setDefault S slot).2.running = b.running :=
  (moving S slot b).running_eq

end Switchboard

end SlotWatch

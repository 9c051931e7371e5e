import SlotWatch.Proofs.Delivery

/-!
# SlotWatch.Proofs.Idle

Publishing to listeners that perform no command: they take what they are handed, and may
panic (`Idle`).

1. Calling such a listener only hands it the payload (`hear_of_idle`).
2. Coming to collected registrations changes no more of the registry than which of them
   wait and are armed, and asks the source for nothing (`deliverAll_of_idle`).
3. A publish that begins on a board on which no other is in progress calls everyone that
   it is for (`publish_of_idle`).
-/

namespace SlotWatch

namespace Switchboard

variable {σ ε : Type} {S : Source σ ε} {react : React σ ε}

/-- Listeners that perform no command. -/
def Idle (react : React σ ε) : Prop :=
  ∀ r p b c, Move.command c ∉ react r p b

/-! ## calls -/

/-- Whoever performs no command returns or panics at once. -/
theorem moveAll_of_idle (invoke : Invoke σ ε) (l : Option String) {ms : List (Move ε)}
    (hms : ∀ c, Move.command c ∉ ms) (b : Switchboard σ ε) :
    (b.moveAll S invoke l ms).2 = b := by
  cases ms with
  | nil => rfl
  | cons m ms =>
      cases m with
      | panic => rfl
      | command c => exact absurd List.mem_cons_self (hms c)

/-- A listener that performs no command only takes the payload. -/
theorem hear_of_idle (h : Idle react) (limit : Nat) (r : Registration) (p : Payload)
    (b : Switchboard σ ε) : (hear S react limit r p b).2 = (b.hand r p).2 := by
  cases limit with
  | zero =>
      unfold hear handOver
      simp only
      split <;> rfl
  | succ limit =>
      unfold hear handOver
      simp only
      split
      · exact moveAll_of_idle _ _ (h r p _) _
      · rfl

/-- To hand over a payload is no matter of the source. -/
@[simp] theorem hand_source (r : Registration) (p : Payload) (b : Switchboard σ ε) :
    (b.hand r p).2.source = b.source := by
  unfold hand
  split
  · split <;> rfl
  · rfl

@[simp] theorem hand_nextChannel (r : Registration) (p : Payload) (b : Switchboard σ ε) :
    (b.hand r p).2.nextChannel = b.nextChannel := by
  unfold hand
  split
  · split <;> rfl
  · rfl

/-! ## coming to collected registrations -/

/-- Boards that differ at most in what waits and is armed, in the inboxes and in what has
happened. -/
structure Lulled (b b' : Switchboard σ ε) : Prop where
  live_eq : b'.registry.live = b.registry.live
  nextId_eq : b'.registry.nextId = b.registry.nextId
  slotCount_eq : b'.registry.slotCount = b.registry.slotCount
  defaultSlot_eq : b'.registry.defaultSlot = b.registry.defaultSlot
  source_eq : b'.source = b.source
  nextChannel_eq : b'.nextChannel = b.nextChannel

theorem Lulled.refl (b : Switchboard σ ε) : Lulled b b := ⟨rfl, rfl, rfl, rfl, rfl, rfl⟩

theorem Lulled.trans {b₁ b₂ b₃ : Switchboard σ ε} (h₁ : Lulled b₁ b₂) (h₂ : Lulled b₂ b₃) :
    Lulled b₁ b₃ where
  live_eq := h₂.live_eq.trans h₁.live_eq
  nextId_eq := h₂.nextId_eq.trans h₁.nextId_eq
  slotCount_eq := h₂.slotCount_eq.trans h₁.slotCount_eq
  defaultSlot_eq := h₂.defaultSlot_eq.trans h₁.defaultSlot_eq
  source_eq := h₂.source_eq.trans h₁.source_eq
  nextChannel_eq := h₂.nextChannel_eq.trans h₁.nextChannel_eq

/-- To come to a registration changes what waits and is armed at most. -/
theorem lulled_comeTo (r : Registration) (rs : List Registration) (b : Switchboard σ ε) :
    Lulled b (b.comeTo r rs).2 := by
  unfold comeTo Registry.claim
  cases r.mode <;> exact ⟨rfl, rfl, rfl, rfl, rfl, rfl⟩

/-- The turn of a registration: it is handed the payload if it may be called. -/
theorem turn_of_idle (h : Idle react) (limit : Nat) (p : Payload) (r : Registration)
    (rs : List Registration) (b : Switchboard σ ε) :
    Lulled b (b.turn (hear S react limit) p r rs).2 ∧
      (b.turn (hear S react limit) p r rs).2.trace =
        (if (b.turn (hear S react limit) p r rs).1 = true then [r.handed p] else []) ++
          b.trace := by
  have hcome := lulled_comeTo r rs b
  cases ha : (b.comeTo r rs).1 with
  | false =>
      rw [turn_of_not_armed _ p ha]
      exact ⟨hcome, rfl⟩
  | true =>
      have halike := alike_hand r p (b.comeTo r rs).2
      rw [turn_of_armed _ p ha, hear_of_idle h]
      constructor
      · refine hcome.trans ⟨?_, ?_, ?_, ?_, hand_source r p _, hand_nextChannel r p _⟩
        all_goals rw [halike.registry, note_registry]
      · rw [halike.trace]
        rfl

/-- A delivery to listeners that perform no command puts its calls on the trace, and nothing
else. -/
theorem deliverAll_of_idle (h : Idle react) (limit : Nat) (p : Payload)
    (rs : List Registration) (b : Switchboard σ ε) :
    Lulled b (deliverAll (hear S react limit) p rs b).2 ∧
      (deliverAll (hear S react limit) p rs b).2.trace =
        ((deliverAll (hear S react limit) p rs b).1.map (·.handed p)).reverse ++ b.trace := by
  induction rs generalizing b with
  | nil => exact ⟨.refl b, rfl⟩
  | cons r rs ih =>
      obtain ⟨hturn, htrace⟩ := turn_of_idle (S := S) h limit p r rs b
      obtain ⟨hothers, htraces⟩ := ih (b.turn (hear S react limit) p r rs).2
      unfold deliverAll
      refine ⟨hturn.trans hothers, htraces.trans ?_⟩
      cases hcalled : (b.turn (hear S react limit) p r rs).1 <;> simp [htrace, hcalled]

/-- Registrations that may all be called are all called. -/
theorem called_of_idle (h : Idle react) (limit : Nat) (p : Payload) {rs : List Registration}
    {b : Switchboard σ ε} (hnodup : (rs.map (·.id)).Nodup)
    (harmed : ∀ r ∈ rs, r.id ∈ b.registry.armed) :
    (deliverAll (hear S react limit) p rs b).1 = rs := by
  induction rs generalizing b with
  | nil => rfl
  | cons r rs ih =>
      obtain ⟨hnew, hnodup⟩ := List.nodup_cons.mp hnodup
      have hcalled := (comeTo_armed r rs b).mpr (harmed r List.mem_cons_self)
      have hturn := turn_of_armed (hear S react limit) p hcalled
      have hregistry : (b.turn (hear S react limit) p r rs).2.registry =
          (b.registry.claim r).2 := by
        rw [hturn, hear_of_idle h, (alike_hand _ _ _).registry, note_registry, comeTo_registry]
      have hothers : ∀ s ∈ rs, s.id ∈ (b.turn (hear S react limit) p r rs).2.registry.armed := by
        intro s hs
        have hne : s.id ≠ r.id := fun heq => hnew (List.mem_map.mpr ⟨s, hs, heq⟩)
        rw [hregistry, Registry.mem_armed_claim]
        exact ⟨harmed s (List.mem_cons_of_mem r hs), fun _ => hne⟩
      unfold deliverAll
      simp only [ih hnodup hothers]
      rw [hturn]
      rfl

/-! ## publishing -/

/-- A publish that is in order calls everyone that it is for.  Once it has begun it changes
nothing but what waits and is armed. -/
theorem publish_of_idle (hidle : Idle react) (limit : Nat) {settings : SlotSettings}
    {source : σ} {b : Switchboard σ ε} (h : Reaches S (fresh settings source) b) {kind : Kind}
    {slot : Option Slot} {p : Payload} (hp : Permitted b.registry kind slot p) :
    let place := slot.getD b.registry.defaultSlot
    let told := roster b.registry kind place
    (b.publish S (hear S react limit) kind slot p).1 = .ok told.length ∧
      Lulled (b.launch S kind place p) (b.publish S (hear S react limit) kind slot p).2 ∧
      (b.publish S (hear S react limit) kind slot p).2.trace =
        (told.map (.delivered · p)).reverse ++ (b.launch S kind place p).trace := by
  intro place told
  have horderly := h.inOrder.1
  have hsub : told.Sublist b.registry.live := List.filter_sublist
  have harmed : ∀ r ∈ told, r.id ∈ (b.launch S kind place p).registry.armed := by
    intro r hr
    rw [launch_registry]
    exact horderly.armed_of_live (hsub.subset hr)
  have hhanded : told.map (·.handed p) = told.map (.delivered · p : _ → Event σ ε) := by
    refine List.map_congr_left fun r hr => ?_
    have hkind := (of_decide_eq_true (List.mem_filter.mp hr).2).1
    have hsuits := h.suited r (.inl (hsub.subset hr))
    rw [hkind, ← hp.1] at hsuits
    rw [Registration.handed, if_pos (Callback.accepts_of_suits hsuits)]
  have hcalled := called_of_idle (S := S) hidle limit p
    (horderly.nodup_live.sublist (hsub.map _)) harmed
  obtain ⟨hlulled, htrace⟩ :=
    deliverAll_of_idle (S := S) hidle limit p told (b.launch S kind place p)
  rw [hcalled, hhanded] at htrace
  unfold publish
  rw [checkPublish_of_permitted hp]
  simp only [audience_eq]
  exact ⟨congrArg (Except.ok ·.length) hcalled, hlulled.trans ⟨rfl, rfl, rfl, rfl, rfl, rfl⟩,
    htrace⟩

end Switchboard

end SlotWatch

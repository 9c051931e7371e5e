import SlotWatch.Proofs.Named
import SlotWatch.Proofs.Registry

/-!
# SlotWatch.Proofs.Naming

Registries whose listeners are given other names.

A listener has a callback of its own for the values of each kind, and one for whole payloads.
A `Naming` gives each of them a name, different ones different names, and so a callback for
whole payloads that takes its place (`Callback.renamed`).  It has other words for commands, too.

A registry never looks into a callback: it compares callbacks, and nothing else.  So every
operation does the same to a registry with renamed callbacks (`Registry.renamed`): one lemma
for each.
-/

namespace SlotWatch

/-- A name for every callback of a listener, and a word for every command. -/
structure Naming where
  /-- The name of the callback for the values of a kind or, without one, for whole payloads. -/
  of : Option Kind → String → String
  /-- The word for a command, which may have been one by kind. -/
  word : Bool → String → String
  of_inj {k k' : Option Kind} {l l' : String} : of k l = of k' l' → k = k' ∧ l = l'
  word_inj {x x' : Bool} {w w' : String} : word x w = word x' w' → x = x' ∧ w = w'

variable (n : Naming)

/-- A name is the name of one listener, for callbacks of one kind. -/
theorem Naming.of_injective (k : Option Kind) : Function.Injective (n.of k) :=
  fun _ _ h => (n.of_inj h).2

/-- The callback for whole payloads that takes the place of a callback.  Channels stay. -/
def Callback.renamed : Callback → Callback
  | whole l => whole (n.of none l)
  | typed l k => whole (n.of (some k) l)
  | channel serial k => channel serial k

/-- Callbacks that differ still differ by name. -/
theorem Callback.renamed_injective : Function.Injective (Callback.renamed n) := by
  intro c c' h
  cases c <;> cases c' <;> simp only [renamed, whole.injEq, reduceCtorEq] at h
  all_goals try exact h
  all_goals
    obtain ⟨hkind, rfl⟩ := n.of_inj h
    first | rfl | contradiction | (cases hkind; rfl)

/-- Callbacks are told apart by name as they are without. -/
@[simp] theorem Callback.renamed_beq (c c' : Callback) :
    (c.renamed n == c'.renamed n) = (c == c') := by
  rw [Bool.eq_iff_iff, beq_iff_eq, beq_iff_eq, (Callback.renamed_injective n).eq_iff]

/-- The registration with its callback renamed. -/
def Registration.renamed (r : Registration) : Registration :=
  { r with callback := r.callback.renamed n }

theorem Registration.renamed_injective : Function.Injective (Registration.renamed n) := by
  rintro ⟨id, kind, selector, observed, callback, mode⟩ ⟨_, _, _, _, callback', _⟩ h
  simp only [renamed, mk.injEq] at h
  obtain ⟨rfl, rfl, rfl, rfl, hcallback, rfl⟩ := h
  rw [Callback.renamed_injective n hcallback]

section

variable (r : Registration)

@[simp] theorem Registration.renamed_id : (r.renamed n).id = r.id := rfl

@[simp] theorem Registration.renamed_mode : (r.renamed n).mode = r.mode := rfl

@[simp] theorem Registration.renamed_kind : (r.renamed n).kind = r.kind := rfl

@[simp] theorem Registration.renamed_feed : (r.renamed n).feed = r.feed := rfl

@[simp] theorem Registration.renamed_hears (kind : Kind) (slot defaultSlot : Slot) :
    (r.renamed n).hears kind slot defaultSlot = r.hears kind slot defaultSlot := rfl

@[simp] theorem Registration.renamed_follows (slot : Slot) :
    (r.renamed n).follows slot = r.follows slot := rfl

@[simp] theorem Registration.renamed_moved (slot : Slot) :
    (r.renamed n).moved slot = (r.moved slot).renamed n := by
  unfold Registration.moved
  rw [renamed_follows]
  split <;> rfl

end

/-- The registry with all callbacks renamed. -/
def Registry.renamed (g : Registry) : Registry :=
  { g with
    live := g.live.map (Registration.renamed n)
    waiting := g.waiting.map (Registration.renamed n) }

namespace Registry

theorem renamed_injective : Function.Injective (Registry.renamed n) := by
  rintro ⟨live, waiting, armed, nextId, slotCount, defaultSlot⟩ ⟨live', waiting', _, _, _, _⟩ h
  simp only [renamed, mk.injEq] at h
  obtain ⟨hlive, hwaiting, rfl, rfl, rfl, rfl⟩ := h
  have hinjective := List.map_injective_iff.mpr (Registration.renamed_injective n)
  rw [hinjective hlive, hinjective hwaiting]

variable (g : Registry)

@[simp] theorem slotCount_renamed : (g.renamed n).slotCount = g.slotCount := rfl

@[simp] theorem defaultSlot_renamed : (g.renamed n).defaultSlot = g.defaultSlot := rfl

@[simp] theorem nextId_renamed : (g.renamed n).nextId = g.nextId := rfl

@[simp] theorem validateSlot_renamed (kind : Kind) (slot : Slot) :
    (g.renamed n).validateSlot kind slot = g.validateSlot kind slot := rfl

@[simp] theorem selector_renamed (kind : Kind) (options : Option Options) :
    (g.renamed n).selector kind options = g.selector kind options := rfl

@[simp] theorem observes_renamed (feed : Feed) : (g.renamed n).observes feed = g.observes feed :=
  List.any_map

@[simp] theorem released_renamed (left : List Feed) :
    (g.renamed n).released left = g.released left := by
  simp only [released, observes_renamed]

@[simp] theorem listenerCount_renamed (kind : Kind) :
    (g.renamed n).listenerCount kind = g.listenerCount kind :=
  List.countP_map

/-- A repetition is found by name where it is found without. -/
theorem duplicate?_renamed (kind : Kind) (selector : Option Slot) (callback : Callback)
    (mode : Mode) :
    (g.renamed n).duplicate? kind selector (callback.renamed n) mode =
      (g.duplicate? kind selector callback mode).map (Registration.renamed n) := by
  unfold duplicate? renamed
  rw [List.find?_map]
  simp [Function.comp_def, Registration.renamed]

/-- A registration is added by name as it is without. -/
theorem add_renamed (kind : Kind) (selector : Option Slot) (callback : Callback) (mode : Mode) :
    (g.renamed n).add kind selector (callback.renamed n) mode =
      (g.add kind selector callback mode).renamed n := by
  simp [add, renamed, Registration.renamed]

/-- What is selected is the same if the selections agree. -/
theorem withdraw_renamed {selected selected' : Registration → Bool}
    (h : ∀ r, selected' (r.renamed n) = selected r) :
    ((g.renamed n).withdraw selected').removed =
        (g.withdraw selected).removed.map (Registration.renamed n) ∧
      ((g.renamed n).withdraw selected').released = (g.withdraw selected).released ∧
      ((g.renamed n).withdraw selected').rest = (g.withdraw selected).rest.renamed n := by
  have hrest : ((g.renamed n).withdraw selected').rest = (g.withdraw selected).rest.renamed n := by
    simp only [withdraw, renamed, List.filter_map, List.any_map, Function.comp_def, h,
      Registration.renamed_id]
  refine ⟨?_, ?_, hrest⟩
  · simp only [withdraw, renamed, List.filter_map, List.any_map, List.map_append,
      Function.comp_def, h, Registration.renamed_id]
  · have hleft : ((g.renamed n).live.filter selected').map (·.feed) =
        (g.live.filter selected).map (·.feed) := by
      simp [renamed, List.filter_map, Function.comp_def, h]
    show ((g.renamed n).withdraw selected').rest.released _ = (g.withdraw selected).rest.released _
    rw [hrest, hleft, released_renamed]

/-- An event is for the same registrations by name. -/
theorem collect_renamed (kind : Kind) (slot : Slot) :
    ((g.renamed n).collect kind slot).deliveries =
        (g.collect kind slot).deliveries.map (Registration.renamed n) ∧
      ((g.renamed n).collect kind slot).released = (g.collect kind slot).released ∧
      ((g.renamed n).collect kind slot).rest = (g.collect kind slot).rest.renamed n := by
  have hrest : ((g.renamed n).collect kind slot).rest = (g.collect kind slot).rest.renamed n := by
    simp [collect, renamed, List.filter_map, Function.comp_def]
  refine ⟨?_, ?_, hrest⟩
  · simp [collect, renamed, List.filter_map, Function.comp_def]
  · unfold collect at hrest ⊢
    simp only at hrest ⊢
    rw [hrest, released_renamed]
    simp [renamed, List.filter_map, Function.comp_def]

/-- Whoever may be called may be called by name. -/
@[simp] theorem claim_renamed (r : Registration) :
    (g.renamed n).claim (r.renamed n) = ((g.claim r).1, (g.claim r).2.renamed n) := by
  unfold claim
  rw [Registration.renamed_mode]
  cases r.mode with
  | repeating => rfl
  | oneShot => simp [renamed, List.filter_map, Function.comp_def]

@[simp] theorem arrivals_renamed (slot : Slot) :
    (g.renamed n).arrivals slot = g.arrivals slot := by
  simp only [arrivals, observes_renamed]
  simp [renamed, List.filter_map, Function.comp_def]

/-- The default slot moves the same registrations by name. -/
theorem moveDefault_renamed (slot : Slot) :
    (g.renamed n).moveDefault slot =
      ((g.moveDefault slot).1.renamed n, (g.moveDefault slot).2) := by
  have hrest : ((g.renamed n).moveDefault slot).1 = (g.moveDefault slot).1.renamed n := by
    simp [moveDefault, renamed, Function.comp_def]
  refine Prod.ext hrest ?_
  unfold moveDefault at hrest ⊢
  simp only at hrest ⊢
  rw [hrest, released_renamed]
  simp [renamed, List.filter_map, Function.comp_def]

end Registry

end SlotWatch

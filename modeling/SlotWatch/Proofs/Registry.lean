import SlotWatch.Proofs.Feed
import SlotWatch.Registry

/-!
# SlotWatch.Proofs.Registry

The operations of a registry, seen through what it observes and through which of its
registrations are live, wait and are armed.

Removing, collecting and moving the default slot all have one law for the feeds
they release: they are the ones that were observed before and are not afterwards
(`mem_released_iff`).
-/

namespace SlotWatch

/-- One more than `count` is what it should be, unless `count` is the largest number there is. -/
theorem Slot.lt_add_one_iff {slot count : Slot} :
    slot < count + 1 ↔ slot ≤ count ∧ count ≠ Int32.maxValue := by
  have hslot := slot.le_toInt
  have hleast := count.le_toInt
  have hcount := count.toInt_lt
  have hone : (1 : Int32).toInt = 1 := rfl
  have hmax : count = Int32.maxValue ↔ count.toInt = 2147483647 := Int32.toInt_inj.symm
  rw [Int32.lt_iff_toInt_lt, Int32.le_iff_toInt_le, Int32.toInt_add, hone, ne_eq, hmax]
  by_cases hlast : count.toInt = 2147483647
  · have hsum : (count.toInt + 1).bmod (2 ^ 32) = -2147483648 := by
      rw [hlast]
      rfl
    rw [hsum]
    omega
  · have hsum : (count.toInt + 1).bmod (2 ^ 32) = count.toInt + 1 :=
      Int.bmod_eq_of_le (by omega) (by omega)
    rw [hsum]
    omega

namespace Registry

/-! ## valid slots -/

/-- Which slots are valid depends on how many slots the phone has, and on nothing else. -/
theorem validateSlot_congr {g g' : Registry} (h : g'.slotCount = g.slotCount) (kind : Kind)
    (slot : Slot) : g'.validateSlot kind slot = g.validateSlot kind slot := by
  unfold validateSlot
  rw [h]

/-- The check, put as what has to hold of a slot. -/
theorem validateSlot_eq (g : Registry) (kind : Kind) (slot : Slot) :
    g.validateSlot kind slot =
      if kind.minSlot ≤ slot ∧ slot < g.slotCount + 1 then .ok ()
      else .error (.slotOutOfRange slot kind) := by
  unfold validateSlot
  rw [← ite_not]
  simp only [not_or, Int32.not_lt, Int32.not_le]

/-- The valid slots are those from the lowest of the kind to the number of slots, unless that is
the largest number there is. -/
theorem validateSlot_eq_ok_iff {g : Registry} {kind : Kind} {slot : Slot} :
    g.validateSlot kind slot = .ok () ↔
      kind.minSlot ≤ slot ∧ slot ≤ g.slotCount ∧ g.slotCount ≠ Int32.maxValue := by
  rw [validateSlot_eq, ← Slot.lt_add_one_iff]
  split <;> simp_all

/-- A slot that is not valid is named in the refusal. -/
theorem validateSlot_of_not_ok {g : Registry} {kind : Kind} {slot : Slot}
    (h : ¬ g.validateSlot kind slot = .ok ()) :
    g.validateSlot kind slot = .error (.slotOutOfRange slot kind) := by
  rw [validateSlot_eq] at h ⊢
  exact if_neg fun hrange => h (if_pos hrange)

/-! ## what is observed -/

theorem observes_iff {g : Registry} {feed : Feed} :
    g.observes feed ↔ ∃ r ∈ g.live, r.feed = feed := by
  simp [observes]

theorem observes_of_mem {g : Registry} {r : Registration} (h : r ∈ g.live) :
    g.observes r.feed :=
  observes_iff.mpr ⟨r, h, rfl⟩

@[simp] theorem not_observes_ofSettings (s : SlotSettings) (feed : Feed) :
    (ofSettings s).observes feed = false := rfl

/-- What is released is what has been left and is not observed. -/
theorem mem_released {g : Registry} {left : List Feed} {feed : Feed} :
    feed ∈ g.released left ↔ feed ∈ left ∧ ¬ g.observes feed := by
  simp [released]

theorem nodup_released (g : Registry) (left : List Feed) : (g.released left).Nodup :=
  Feed.nodup_ascending _

/-- Of what `left` a registry, the feeds released are those that it observed before
and does not observe any more. -/
theorem mem_released_iff {g rest : Registry} (left : List Feed)
    (hleft : ∀ feed ∈ left, g.observes feed)
    (hrest : ∀ feed, g.observes feed → feed ∈ left ∨ rest.observes feed) (feed : Feed) :
    feed ∈ rest.released left ↔ g.observes feed ∧ ¬ rest.observes feed := by
  rw [mem_released]
  constructor
  · rintro ⟨hf, hn⟩
    exact ⟨hleft feed hf, hn⟩
  · rintro ⟨hf, hn⟩
    exact ⟨(hrest feed hf).resolve_right hn, hn⟩

/-! ## adding -/

/-- A registration adds its feed to those observed, and no other. -/
theorem observes_add {g : Registry} {kind : Kind} {selector : Option Slot}
    {callback : Callback} {mode : Mode} {feed : Feed} :
    (g.add kind selector callback mode).observes feed ↔
      g.observes feed ∨ feed = (selector.getD g.defaultSlot, kind) := by
  rw [eq_comm (a := feed)]
  simp [observes, add, Registration.feed]

/-! ## removing -/

/-- After a removal those feeds are observed that somebody who stays observes. -/
theorem observes_withdraw {g : Registry} {selected : Registration → Bool} {feed : Feed} :
    (g.withdraw selected).rest.observes feed ↔
      ∃ r ∈ g.live, selected r = false ∧ r.feed = feed := by
  simp [observes, withdraw]

/-- A removal starts no feed. -/
theorem observes_of_observes_withdraw {g : Registry} {selected : Registration → Bool}
    {feed : Feed} (h : (g.withdraw selected).rest.observes feed) : g.observes feed := by
  obtain ⟨r, hr, -, hf⟩ := observes_withdraw.mp h
  exact observes_iff.mpr ⟨r, hr, hf⟩

/-- A removal releases what was observed before it and is not any more. -/
theorem mem_released_withdraw {g : Registry} {selected : Registration → Bool} {feed : Feed} :
    feed ∈ (g.withdraw selected).released ↔
      g.observes feed ∧ ¬ (g.withdraw selected).rest.observes feed := by
  refine mem_released_iff ((g.live.filter selected).map (·.feed)) ?_ ?_ feed
  · intro feed hf
    obtain ⟨r, hr, rfl⟩ := List.mem_map.mp hf
    exact observes_of_mem (List.mem_filter.mp hr).1
  · intro feed hf
    obtain ⟨r, hr, rfl⟩ := observes_iff.mp hf
    cases hs : selected r with
    | true => exact .inl (List.mem_map_of_mem (List.mem_filter.mpr ⟨hr, hs⟩))
    | false => exact .inr (observes_withdraw.mpr ⟨r, hr, hs, rfl⟩)

theorem nodup_released_withdraw (g : Registry) (selected : Registration → Bool) :
    (g.withdraw selected).released.Nodup :=
  nodup_released _ _

/-! ## collecting -/

/-- Whether a publish takes a registration out of the live list. -/
def fires (g : Registry) (kind : Kind) (slot : Slot) (r : Registration) : Bool :=
  r.hears kind slot g.defaultSlot && r.mode == .oneShot

/-- After collecting those feeds are observed that somebody who has not fired observes. -/
theorem observes_collect {g : Registry} {kind : Kind} {slot : Slot} {feed : Feed} :
    (g.collect kind slot).rest.observes feed ↔
      ∃ r ∈ g.live, g.fires kind slot r = false ∧ r.feed = feed := by
  have hlive : (g.collect kind slot).rest.live = g.live.filter fun r => !g.fires kind slot r := rfl
  simp [observes, hlive]

theorem observes_of_observes_collect {g : Registry} {kind : Kind} {slot : Slot} {feed : Feed}
    (h : (g.collect kind slot).rest.observes feed) : g.observes feed := by
  obtain ⟨r, hr, -, hf⟩ := observes_collect.mp h
  exact observes_iff.mpr ⟨r, hr, hf⟩

theorem mem_released_collect {g : Registry} {kind : Kind} {slot : Slot} {feed : Feed} :
    feed ∈ (g.collect kind slot).released ↔
      g.observes feed ∧ ¬ (g.collect kind slot).rest.observes feed := by
  refine mem_released_iff ((g.live.filter (g.fires kind slot)).map (·.feed)) ?_ ?_ feed
  · intro feed hf
    obtain ⟨r, hr, rfl⟩ := List.mem_map.mp hf
    exact observes_of_mem (List.mem_filter.mp hr).1
  · intro feed hf
    obtain ⟨r, hr, rfl⟩ := observes_iff.mp hf
    cases hs : g.fires kind slot r with
    | true => exact .inl (List.mem_map_of_mem (List.mem_filter.mpr ⟨hr, hs⟩))
    | false => exact .inr (observes_collect.mpr ⟨r, hr, hs, rfl⟩)

theorem nodup_released_collect (g : Registry) (kind : Kind) (slot : Slot) :
    (g.collect kind slot).released.Nodup :=
  nodup_released _ _

/-! ## claiming -/

/-- Claiming leaves the live list as it is. -/
@[simp] theorem claim_live (g : Registry) (r : Registration) : (g.claim r).2.live = g.live := by
  unfold claim
  split <;> rfl

@[simp] theorem claim_nextId (g : Registry) (r : Registration) :
    (g.claim r).2.nextId = g.nextId := by
  unfold claim
  split <;> rfl

/-- Claiming disarms a one-shot, and nothing else. -/
theorem mem_armed_claim (g : Registry) (r : Registration) (id : Nat) :
    id ∈ (g.claim r).2.armed ↔ id ∈ g.armed ∧ (r.mode = .oneShot → id ≠ r.id) := by
  unfold claim
  cases hmode : r.mode <;> simp

theorem observes_claim (g : Registry) (r : Registration) (feed : Feed) :
    (g.claim r).2.observes feed = g.observes feed := by
  unfold observes
  rw [claim_live]

/-! ## the default slot -/

/-- What arrives on a slot is what follows the default slot there and is not observed yet. -/
theorem mem_arrivals {g : Registry} {slot : Slot} {feed : Feed} :
    feed ∈ g.arrivals slot ↔
      (∃ r ∈ g.live, r.follows slot ∧ (slot, r.kind) = feed) ∧ ¬ g.observes feed := by
  simp [arrivals, and_assoc]

theorem nodup_arrivals (g : Registry) (slot : Slot) : (g.arrivals slot).Nodup :=
  Feed.nodup_ascending _

theorem not_observes_of_mem_arrivals {g : Registry} {slot : Slot} {feed : Feed}
    (h : feed ∈ g.arrivals slot) : ¬ g.observes feed :=
  (mem_arrivals.mp h).2

/-- A registration that follows the default slot is heard on the new one. -/
theorem feed_moved {slot : Slot} {r : Registration} (h : r.follows slot) :
    (r.moved slot).feed = (slot, r.kind) := by
  simp [Registration.moved, h, Registration.feed]

theorem moved_of_not_follows {slot : Slot} {r : Registration} (h : r.follows slot = false) :
    r.moved slot = r := by
  simp [Registration.moved, h]

/-- After a move those feeds are observed that somebody observes who has moved. -/
theorem observes_moveDefault {g : Registry} {slot : Slot} {feed : Feed} :
    (g.moveDefault slot).1.observes feed ↔ ∃ r ∈ g.live, (r.moved slot).feed = feed := by
  simp [observes, moveDefault]

theorem mem_released_moveDefault {g : Registry} {slot : Slot} {feed : Feed} :
    feed ∈ (g.moveDefault slot).2 ↔
      g.observes feed ∧ ¬ (g.moveDefault slot).1.observes feed := by
  refine mem_released_iff ((g.live.filter (·.follows slot)).map (·.feed)) ?_ ?_ feed
  · intro feed hf
    obtain ⟨r, hr, rfl⟩ := List.mem_map.mp hf
    exact observes_of_mem (List.mem_filter.mp hr).1
  · intro feed hf
    obtain ⟨r, hr, rfl⟩ := observes_iff.mp hf
    cases hs : r.follows slot with
    | true => exact .inl (List.mem_map_of_mem (List.mem_filter.mpr ⟨hr, hs⟩))
    | false => exact .inr (observes_moveDefault.mpr ⟨r, hr, by rw [moved_of_not_follows hs]⟩)

theorem nodup_released_moveDefault (g : Registry) (slot : Slot) :
    (g.moveDefault slot).2.Nodup :=
  nodup_released _ _

/-- Once the default slot has moved, what is observed is what was, and what the
move needs, without what it has left. -/
theorem observes_moveDefault_iff {g : Registry} {slot : Slot} {feed : Feed} :
    (g.moveDefault slot).1.observes feed ↔
      (g.observes feed ∨ feed ∈ g.arrivals slot) ∧ feed ∉ (g.moveDefault slot).2 := by
  rw [mem_released_moveDefault]
  constructor
  · intro h
    refine ⟨?_, fun hn => hn.2 h⟩
    by_cases ho : g.observes feed
    · exact .inl ho
    obtain ⟨r, hr, hf⟩ := observes_moveDefault.mp h
    cases hs : r.follows slot with
    | true => exact .inr (mem_arrivals.mpr ⟨⟨r, hr, hs, by rw [← hf, feed_moved hs]⟩, ho⟩)
    | false =>
        rw [moved_of_not_follows hs] at hf
        exact absurd (observes_iff.mpr ⟨r, hr, hf⟩) ho
  · rintro ⟨ho | ha, hn⟩
    · exact not_not.mp fun hm => hn ⟨ho, hm⟩
    · obtain ⟨⟨r, hr, hs, hf⟩, -⟩ := mem_arrivals.mp ha
      exact observes_moveDefault.mpr ⟨r, hr, by rw [feed_moved hs, hf]⟩

end Registry

end SlotWatch

import SlotWatch.Phone

/-!
# SlotWatch.Proofs.Cache

What a phone remembers of its slots.

A cache is sorted: its slots ascend (`Cache.Sorted`).  Altering the state of a slot keeps it
sorted and alters the state of that slot alone (`Cache.lookup_alter`), so after a report a
phone knows of the slot what it was told last, and of the others what it knew before
(`Phone.state_remember`).
-/

namespace SlotWatch

namespace Cache

/-- The slots of which something is known. -/
def slots (c : Cache) : List Slot := c.map Prod.fst

/-- Whether the slots of a cache ascend. -/
def Sorted (c : Cache) : Prop := c.slots.Pairwise (· < ·)

@[simp] theorem slots_nil : slots [] = [] := rfl

@[simp] theorem slots_cons (entry : Slot × SlotState) (c : Cache) :
    slots (entry :: c) = entry.1 :: c.slots := rfl

theorem sorted_nil : Sorted [] := List.Pairwise.nil

/-- Altering what is known of a slot adds that slot at most. -/
theorem mem_slots_alter {slot t : Slot} {f : SlotState → SlotState} {c : Cache}
    (h : t ∈ (c.alter slot f).slots) : t = slot ∨ t ∈ c.slots := by
  induction c with
  | nil => simpa [alter] using h
  | cons entry rest ih =>
      obtain ⟨u, s⟩ := entry
      simp only [alter] at h
      split at h
      · exact .inr h
      · split at h
        · simpa using h
        · simp only [slots_cons, List.mem_cons] at h ⊢
          rcases h with rfl | h
          · exact .inr (.inl rfl)
          · exact (ih h).imp id .inr

/-- A slot that was not known yet is put where it belongs. -/
theorem Sorted.alter {c : Cache} (h : c.Sorted) (slot : Slot) (f : SlotState → SlotState) :
    Sorted (c.alter slot f) := by
  induction c with
  | nil => exact List.pairwise_singleton _ _
  | cons entry rest ih =>
      obtain ⟨t, s⟩ := entry
      obtain ⟨hfirst, hrest⟩ := List.pairwise_cons.mp h
      simp only [Cache.alter]
      split
      · exact h
      · next hne =>
          split
          · next hlt =>
              refine List.pairwise_cons.mpr ⟨fun u hu => ?_, h⟩
              rcases List.mem_cons.mp hu with rfl | hu
              · exact hlt
              · exact Int32.lt_trans hlt (hfirst u hu)
          · next hge =>
              refine List.pairwise_cons.mpr ⟨fun u hu => ?_, ih hrest⟩
              rcases mem_slots_alter hu with rfl | hu
              · have hle := Int32.not_lt.mp hge
                exact (Int32.lt_or_eq_of_le hle).resolve_right (Ne.symm hne)
              · exact hfirst u hu

/-- Nothing is known of a slot that is none of the cache's. -/
theorem lookup_of_not_mem {c : Cache} {slot : Slot} (h : slot ∉ c.slots) :
    c.lookup slot = none := by
  induction c with
  | nil => rfl
  | cons entry rest ih =>
      rw [slots_cons, List.mem_cons, not_or] at h
      rw [List.lookup_cons, beq_eq_false_iff_ne.mpr h.1]
      exact ih h.2

/-- **The state of one slot is altered**, and that of no other. -/
theorem lookup_alter {c : Cache} (h : c.Sorted) (slot t : Slot) (f : SlotState → SlotState) :
    (c.alter slot f).lookup t =
      if t = slot then some (f ((c.lookup slot).getD {})) else c.lookup t := by
  induction c with
  | nil =>
      by_cases ht : t = slot
      · simp [alter, ht]
      · simp [alter, ht, List.lookup_cons, beq_eq_false_iff_ne.mpr ht]
  | cons entry rest ih =>
      obtain ⟨u, s⟩ := entry
      obtain ⟨hfirst, hrest⟩ := List.pairwise_cons.mp h
      simp only [alter]
      by_cases hu : slot = u
      · subst hu
        by_cases ht : t = slot
        · simp [ht]
        · simp [ht, List.lookup_cons, beq_eq_false_iff_ne.mpr ht]
      · rw [if_neg hu]
        by_cases hlt : slot < u
        · -- the slot is new, so it is not further back either
          have hnew : slot ∉ slots ((u, s) :: rest) := by
            intro hmem
            rcases List.mem_cons.mp hmem with heq | hmem
            · exact hu heq
            · exact Int32.lt_irrefl (Int32.lt_trans hlt (hfirst slot hmem))
          rw [if_pos hlt, lookup_of_not_mem hnew, List.lookup_cons]
          by_cases ht : t = slot
          · simp [ht]
          · simp [ht, beq_eq_false_iff_ne.mpr ht]
        · have hahead : (slot == u) = false := beq_eq_false_iff_ne.mpr hu
          rw [if_neg hlt, List.lookup_cons, List.lookup_cons, List.lookup_cons, hahead]
          by_cases ht : t = u
          · subst ht
            have hne : t ≠ slot := Ne.symm hu
            simp [hne]
          · simp only [beq_eq_false_iff_ne.mpr ht]
            exact ih hrest

end Cache

namespace Phone

/-- The entry of a slot keeps its place. -/
theorem sorted_remember {p : Phone} (h : p.cache.Sorted) (slot : Slot) (q : Payload) :
    (p.remember slot q).cache.Sorted :=
  h.alter slot _

/-- What is known of the slots after a report. -/
theorem state_remember {p : Phone} (h : p.cache.Sorted) (slot t : Slot) (q : Payload) :
    (p.remember slot q).state t =
      if t = slot then { (p.state slot).put q with updatedAt := some p.clock }
      else p.state t := by
  unfold state remember
  simp only [Cache.lookup_alter h]
  split <;> rfl

end Phone

end SlotWatch

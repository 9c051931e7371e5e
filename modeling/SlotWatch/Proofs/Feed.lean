import Mathlib.Data.List.Sort
import SlotWatch.Kind

/-!
# SlotWatch.Proofs.Feed

The order of feeds.  `Feed.precedes` is a strict order in which any two feeds can be
compared, and `Feed.ascending` lists the feeds of a list in that order: the same
feeds (`mem_ascending`), each once (`nodup_ascending`).
-/

namespace SlotWatch

namespace Kind

theorem rank_injective : Function.Injective rank := by
  intro a b h
  cases a <;> cases b <;> first | rfl | contradiction

end Kind

namespace Feed

/-! ## the order -/

theorem precedes_iff {a b : Feed} :
    a.precedes b = true ↔ a.1 < b.1 ∨ (a.1 = b.1 ∧ a.2.rank < b.2.rank) := by
  simp [precedes]

theorem precedes_irrefl (a : Feed) : ¬ a.precedes a = true := by
  rw [precedes_iff]
  rintro (h | ⟨-, h⟩)
  · exact Int32.lt_irrefl h
  · exact Nat.lt_irrefl _ h

/-- Slots are compared first, and kinds only on the same slot. -/
theorem precedes_trans {a b c : Feed} (hab : a.precedes b = true) (hbc : b.precedes c = true) :
    a.precedes c = true := by
  rw [precedes_iff] at hab hbc ⊢
  rcases hab with hab | ⟨hab, hrank⟩
  · rcases hbc with hbc | ⟨hbc, -⟩
    · exact .inl (Int32.lt_trans hab hbc)
    · exact .inl (hbc ▸ hab)
  · rcases hbc with hbc | ⟨hbc, hrank'⟩
    · exact .inl (hab ▸ hbc)
    · exact .inr ⟨hab.trans hbc, Nat.lt_trans hrank hrank'⟩

/-- Of two feeds one precedes the other. -/
theorem precedes_of_ne {a b : Feed} (hne : a ≠ b) (h : ¬ a.precedes b = true) :
    b.precedes a = true := by
  rw [precedes_iff, not_or, not_and] at h
  rw [precedes_iff]
  obtain ⟨hslot, hrank⟩ := h
  rcases Int32.lt_or_eq_of_le (Int32.not_lt.mp hslot) with hlt | heq
  · exact .inl hlt
  · refine .inr ⟨heq, ?_⟩
    have hle := Nat.not_lt.mp (hrank heq.symm)
    refine Nat.lt_of_le_of_ne hle fun hr => hne ?_
    exact Prod.ext heq.symm (Kind.rank_injective hr.symm)

/-! ## ascending lists -/

/-- Each feed of the list precedes those after it. -/
def Ascending (feeds : List Feed) : Prop :=
  feeds.Pairwise fun a b => a.precedes b = true

instance (feeds : List Feed) : Decidable (Ascending feeds) :=
  inferInstanceAs (Decidable (feeds.Pairwise fun a b => a.precedes b = true))

/-- Inserting adds one feed and loses none. -/
theorem mem_insert {a f : Feed} {feeds : List Feed} :
    f ∈ insert a feeds ↔ f = a ∨ f ∈ feeds := by
  induction feeds with
  | nil => simp [insert]
  | cons b bs ih =>
      rw [insert]
      split
      · next h => simp [h]
      · split
        · exact List.mem_cons
        · rw [List.mem_cons, ih, List.mem_cons]
          exact or_left_comm

/-- A feed is inserted where it belongs. -/
theorem Ascending.insert {feeds : List Feed} (h : Ascending feeds) (a : Feed) :
    Ascending (insert a feeds) := by
  induction feeds with
  | nil => exact List.pairwise_singleton _ a
  | cons b bs ih =>
      obtain ⟨hb, hbs⟩ := List.pairwise_cons.mp h
      rw [Feed.insert]
      split
      · exact h
      · next hne =>
          split
          · next hab =>
              refine List.pairwise_cons.mpr ⟨fun f hf => ?_, h⟩
              rcases List.mem_cons.mp hf with rfl | hf
              · exact hab
              · exact precedes_trans hab (hb f hf)
          · next hab =>
              refine List.pairwise_cons.mpr ⟨fun f hf => ?_, ih hbs⟩
              rcases mem_insert.mp hf with rfl | hf
              · exact precedes_of_ne hne hab
              · exact hb f hf

/-- No feed precedes itself, so none is listed twice. -/
theorem Ascending.nodup {feeds : List Feed} (h : Ascending feeds) : feeds.Nodup := by
  refine List.Pairwise.imp ?_ h
  intro a b hab heq
  subst heq
  exact precedes_irrefl a hab

/-- The insertions of `ascending`, on top of what has been inserted before. -/
theorem mem_foldl_insert {f : Feed} (feeds sorted : List Feed) :
    f ∈ feeds.foldl (fun sorted a => insert a sorted) sorted ↔ f ∈ feeds ∨ f ∈ sorted := by
  induction feeds generalizing sorted with
  | nil => simp
  | cons a feeds ih =>
      rw [List.foldl_cons, ih, mem_insert, List.mem_cons]
      exact (or_assoc.trans or_left_comm).symm

/-- Feeds inserted one after the other stay in order. -/
theorem Ascending.foldl_insert (feeds : List Feed) {sorted : List Feed} (h : Ascending sorted) :
    Ascending (feeds.foldl (fun sorted a => Feed.insert a sorted) sorted) := by
  induction feeds generalizing sorted with
  | nil => exact h
  | cons a feeds ih => exact ih (h.insert a)

/-- Putting feeds in order adds none and loses none. -/
@[simp] theorem mem_ascending {f : Feed} {feeds : List Feed} :
    f ∈ ascending feeds ↔ f ∈ feeds := by
  rw [ascending, mem_foldl_insert]
  simp

theorem ascending_ascending (feeds : List Feed) : Ascending (ascending feeds) :=
  Ascending.foldl_insert feeds List.Pairwise.nil

/-- The feeds of a list can be put in ascending order in one way. -/
theorem Ascending.eq_of_mem_iff {feeds feeds' : List Feed} (h : Ascending feeds)
    (h' : Ascending feeds') (hmem : ∀ f, f ∈ feeds ↔ f ∈ feeds') : feeds = feeds' := by
  have hirrefl : Std.Irrefl fun a b : Feed => a.precedes b = true := ⟨precedes_irrefl⟩
  have hantisymm : Std.Antisymm fun a b : Feed => a.precedes b = true :=
    ⟨fun a b hab hba => absurd (precedes_trans hab hba) (precedes_irrefl a)⟩
  exact List.Pairwise.eq_of_mem_iff h h' hmem

theorem nodup_ascending (feeds : List Feed) : (ascending feeds).Nodup :=
  (ascending_ascending feeds).nodup

end Feed

end SlotWatch

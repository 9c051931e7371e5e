import Mathlib.Data.List.Nodup
import SlotWatch.Proofs.Registry

/-!
# SlotWatch.Proofs.Roster

Which registrations are where.  While publishes are in progress a registration can be
live, due (a publish has collected it and has still to come to it) or both, and a
one-shot that is due waits.  `Orderly` says how these fit together:

1. An id stands for one registration, which keeps what it was made for (`terms`).
2. What is live is armed, and what is armed is live or waits.
3. A one-shot is live or due, never both, and due only once.
4. The one-shots that wait are those that are due and armed.
5. A repeating registration that is due is armed as long as it is live.

Each operation of the registry keeps the roster orderly.
-/

namespace SlotWatch

/-- What a registration was made for. -/
def Registration.terms (r : Registration) : Kind × Option Slot × Callback × Mode :=
  (r.kind, r.selector, r.callback, r.mode)

theorem Registration.kind_eq_of_terms_eq {r s : Registration} (h : r.terms = s.terms) :
    r.kind = s.kind :=
  congrArg (fun t => t.1) h

theorem Registration.callback_eq_of_terms_eq {r s : Registration} (h : r.terms = s.terms) :
    r.callback = s.callback :=
  congrArg (fun t => t.2.2.1) h

theorem Registration.mode_eq_of_terms_eq {r s : Registration} (h : r.terms = s.terms) :
    r.mode = s.mode :=
  congrArg (fun t => t.2.2.2) h

@[simp] theorem Registration.moved_id (slot : Slot) (r : Registration) :
    (r.moved slot).id = r.id := by
  unfold Registration.moved
  split <;> rfl

/-- Moving changes what is observed for a registration, and not what it was made for. -/
@[simp] theorem Registration.moved_terms (slot : Slot) (r : Registration) :
    (r.moved slot).terms = r.terms := by
  unfold Registration.moved
  split <;> rfl

namespace Registry

/-- Whether a registration is live or due. -/
def Knows (g : Registry) (due : List Registration) (r : Registration) : Prop :=
  r ∈ g.live ∨ r ∈ due

/-- The registration that is made by adding. -/
def made (g : Registry) (kind : Kind) (selector : Option Slot) (callback : Callback)
    (mode : Mode) : Registration :=
  { id := g.nextId, kind, selector, observed := selector.getD g.defaultSlot, callback, mode }

/-- Adding puts one registration on the live list. -/
theorem mem_live_add {g : Registry} {kind : Kind} {selector : Option Slot}
    {callback : Callback} {mode : Mode} {r : Registration} :
    r ∈ (g.add kind selector callback mode).live ↔
      r ∈ g.live ∨ r = g.made kind selector callback mode := by
  simp [add, made]

/-- Whoever is not selected for removal stays. -/
theorem mem_live_withdraw {g : Registry} {selected : Registration → Bool} {r : Registration} :
    r ∈ (g.withdraw selected).rest.live ↔ r ∈ g.live ∧ selected r = false := by
  simp [withdraw]

/-- Whoever does not fire stays. -/
theorem mem_live_collect {g : Registry} {kind : Kind} {slot : Slot} {r : Registration} :
    r ∈ (g.collect kind slot).rest.live ↔ r ∈ g.live ∧ g.fires kind slot r = false := by
  have hlive : (g.collect kind slot).rest.live = g.live.filter fun r => !g.fires kind slot r := rfl
  simp [hlive]

/-- What fires leaves the live list and waits. -/
theorem mem_waiting_collect {g : Registry} {kind : Kind} {slot : Slot} {r : Registration} :
    r ∈ (g.collect kind slot).rest.waiting ↔
      r ∈ g.waiting ∨ r ∈ g.live ∧ g.fires kind slot r = true := by
  have hwaiting : (g.collect kind slot).rest.waiting =
      g.waiting ++ g.live.filter (g.fires kind slot) := rfl
  simp [hwaiting]

/-- Only one-shots fire. -/
theorem mode_of_fires {g : Registry} {kind : Kind} {slot : Slot} {r : Registration}
    (h : g.fires kind slot r = true) : r.mode = .oneShot := by
  simp only [fires, Bool.and_eq_true, beq_iff_eq] at h
  exact h.2

/-- Whoever fires is to be called. -/
theorem mem_deliveries_of_fires {g : Registry} {kind : Kind} {slot : Slot} {r : Registration}
    (hr : r ∈ g.live) (h : g.fires kind slot r = true) :
    r ∈ (g.collect kind slot).deliveries := by
  simp only [fires, Bool.and_eq_true] at h
  exact List.mem_filter.mpr ⟨hr, h.1⟩

/-- A publish that is for a one-shot fires it. -/
theorem fires_of_mem_deliveries {g : Registry} {kind : Kind} {slot : Slot} {r : Registration}
    (h : r ∈ (g.collect kind slot).deliveries) (hmode : r.mode = .oneShot) :
    g.fires kind slot r = true := by
  have hears := (List.mem_filter.mp h).2
  simp [fires, hears, hmode]

/-- A repeating registration stays when it is collected. -/
theorem mem_live_collect_of_repeating {g : Registry} {kind : Kind} {slot : Slot}
    {r : Registration} (hr : r ∈ g.live) (hmode : r.mode = .repeating) :
    r ∈ (g.collect kind slot).rest.live := by
  refine mem_live_collect.mpr ⟨hr, ?_⟩
  by_contra hf
  rw [Bool.not_eq_false] at hf
  rw [mode_of_fires hf] at hmode
  contradiction

/-- Adding makes one registration known. -/
theorem knows_of_knows_add {g : Registry} {due : List Registration} {kind : Kind}
    {selector : Option Slot} {callback : Callback} {mode : Mode} {r : Registration}
    (h : (g.add kind selector callback mode).Knows due r) :
    g.Knows due r ∨ r = g.made kind selector callback mode := by
  rcases h with hr | hr
  · exact (mem_live_add.mp hr).imp_left .inl
  · exact .inl (.inr hr)

/-- A removal makes nobody known. -/
theorem knows_of_knows_withdraw {g : Registry} {due : List Registration}
    {selected : Registration → Bool} {r : Registration}
    (h : (g.withdraw selected).rest.Knows due r) : g.Knows due r :=
  h.imp_left fun hr => (mem_live_withdraw.mp hr).1

/-- Whoever has moved was known before by its id and its terms. -/
theorem knows_of_knows_moveDefault {g : Registry} {due : List Registration} {slot : Slot}
    {r : Registration} (h : (g.moveDefault slot).1.Knows due r) :
    ∃ s, g.Knows due s ∧ s.id = r.id ∧ s.terms = r.terms := by
  rcases h with hr | hr
  · obtain ⟨s, hs, rfl⟩ := List.mem_map.mp hr
    exact ⟨s, .inl hs, by simp, by simp⟩
  · exact ⟨r, .inr hr, rfl, rfl⟩

/-- Whoever becomes due by collecting was live. -/
theorem knows_of_knows_collect {g : Registry} {due : List Registration} {kind : Kind}
    {slot : Slot} {r : Registration}
    (h : (g.collect kind slot).rest.Knows ((g.collect kind slot).deliveries ++ due) r) :
    g.Knows due r := by
  rcases h with hr | hr
  · exact .inl (mem_live_collect.mp hr).1
  · rcases List.mem_append.mp hr with hr | hr
    · exact .inl (List.mem_filter.mp hr).1
    · exact .inr hr

/-- Coming to a registration makes nothing known. -/
theorem knows_of_knows_claim {g : Registry} {due : List Registration} {r s : Registration}
    (h : (g.claim r).2.Knows due s) : g.Knows (r :: due) s := by
  rcases h with hs | hs
  · rw [claim_live] at hs
    exact .inl hs
  · exact .inr (List.mem_cons_of_mem r hs)

/-- How live, due, waiting and armed registrations fit together. -/
structure Orderly (g : Registry) (due : List Registration) : Prop where
  nodup_live : (g.live.map (·.id)).Nodup
  lt_nextId {r} : g.Knows due r → r.id < g.nextId
  terms_eq {r s} : g.Knows due r → g.Knows due s → r.id = s.id → r.terms = s.terms
  armed_of_live {r} : r ∈ g.live → r.id ∈ g.armed
  ne_of_due {r s} : r ∈ due → r.mode = .oneShot → s ∈ g.live → s.id ≠ r.id
  nodup_due : ((due.filter (·.mode == .oneShot)).map (·.id)).Nodup
  mem_waiting {r} : r ∈ g.waiting ↔ r ∈ due ∧ r.mode = .oneShot ∧ r.id ∈ g.armed
  nodup_waiting : g.waiting.Nodup
  live_of_armed {r} : r ∈ due → r.mode = .repeating → r.id ∈ g.armed →
    ∃ s ∈ g.live, s.id = r.id
  of_armed {id} : id ∈ g.armed → ∃ r, (r ∈ g.live ∨ r ∈ g.waiting) ∧ r.id = id

namespace Orderly

variable {g : Registry} {due : List Registration}

/-- A live registration is told by its id. -/
theorem eq_of_live (h : Orderly g due) {r s : Registration} (hr : r ∈ g.live)
    (hs : s ∈ g.live) (hid : r.id = s.id) : r = s :=
  List.inj_on_of_nodup_map h.nodup_live hr hs hid

/-- A one-shot is due once. -/
theorem eq_of_due (h : Orderly g due) {r s : Registration} (hr : r ∈ due)
    (hr' : r.mode = .oneShot) (hs : s ∈ due) (hs' : s.mode = .oneShot) (hid : r.id = s.id) :
    r = s := by
  refine List.inj_on_of_nodup_map h.nodup_due ?_ ?_ hid
  · simpa using ⟨hr, hr'⟩
  · simpa using ⟨hs, hs'⟩

/-- Nothing is out of order where there are no registrations. -/
theorem ofSettings (s : SlotSettings) : Orderly (ofSettings s) [] where
  nodup_live := List.nodup_nil
  lt_nextId h := by simp [Knows, Registry.ofSettings] at h
  terms_eq h := by simp [Knows, Registry.ofSettings] at h
  armed_of_live h := by simp [Registry.ofSettings] at h
  ne_of_due h := by simp at h
  nodup_due := List.nodup_nil
  mem_waiting := by simp [Registry.ofSettings]
  nodup_waiting := List.nodup_nil
  live_of_armed h := by simp at h
  of_armed h := by simp [Registry.ofSettings] at h

/-! ## adding -/

/-- A new registration has a new id, which is armed. -/
theorem add (h : Orderly g due) (kind : Kind) (selector : Option Slot) (callback : Callback)
    (mode : Mode) : Orderly (g.add kind selector callback mode) due := by
  -- the id of the new registration is nobody else's
  have hfresh : ∀ {r}, g.Knows due r → r.id ≠ g.nextId :=
    fun hr => Nat.ne_of_lt (h.lt_nextId hr)
  have harmed : ∀ {r}, g.Knows due r →
      (r.id ∈ (g.add kind selector callback mode).armed ↔ r.id ∈ g.armed) := by
    intro r hr
    simp [Registry.add, hfresh hr]
  constructor
  case nodup_live =>
      simp only [Registry.add, List.map_append, List.map_cons, List.map_nil]
      rw [List.nodup_append]
      refine ⟨h.nodup_live, List.nodup_singleton _, ?_⟩
      intro a ha c hc
      obtain ⟨r, hr, rfl⟩ := List.mem_map.mp ha
      rw [List.mem_singleton.mp hc]
      exact hfresh (.inl hr)
  case lt_nextId =>
      intro r hr
      have hnext : (g.add kind selector callback mode).nextId = g.nextId + 1 := rfl
      rcases knows_of_knows_add hr with hr | rfl
      · have := h.lt_nextId hr
        omega
      · simp only [made]
        omega
  case terms_eq =>
      intro r s hr hs hid
      rcases knows_of_knows_add hr with hr | rfl
      · rcases knows_of_knows_add hs with hs | rfl
        · exact h.terms_eq hr hs hid
        · exact absurd hid (hfresh hr)
      · rcases knows_of_knows_add hs with hs | rfl
        · exact absurd hid.symm (hfresh hs)
        · rfl
  case armed_of_live =>
      intro r hr
      rcases mem_live_add.mp hr with hr | rfl
      · exact (harmed (.inl hr)).mpr (h.armed_of_live hr)
      · exact List.mem_cons_self
  case ne_of_due =>
      intro r s hr hmode hs
      rcases mem_live_add.mp hs with hs | rfl
      · exact h.ne_of_due hr hmode hs
      · exact (hfresh (.inr hr)).symm
  case nodup_due => exact h.nodup_due
  case mem_waiting =>
      intro r
      have hwaiting : (g.add kind selector callback mode).waiting = g.waiting := rfl
      rw [hwaiting, h.mem_waiting]
      refine and_congr_right fun hr => and_congr_right fun _ => ?_
      exact (harmed (.inr hr)).symm
  case nodup_waiting => exact h.nodup_waiting
  case live_of_armed =>
      intro r hr hmode ha
      obtain ⟨s, hs, hid⟩ := h.live_of_armed hr hmode ((harmed (.inr hr)).mp ha)
      exact ⟨s, mem_live_add.mpr (.inl hs), hid⟩
  case of_armed =>
      intro id ha
      rcases List.mem_cons.mp ha with rfl | ha
      · exact ⟨_, .inl (mem_live_add.mpr (.inr rfl)), rfl⟩
      · obtain ⟨r, hr, hid⟩ := h.of_armed ha
        exact ⟨r, hr.imp_left fun hr => mem_live_add.mpr (.inl hr), hid⟩

/-! ## removing -/

/-- Removing disarms what it removes, and nothing else. -/
theorem mem_armed_withdraw (g : Registry) (selected : Registration → Bool) (id : Nat) :
    id ∈ (g.withdraw selected).rest.armed ↔
      id ∈ g.armed ∧ ∀ r ∈ (g.withdraw selected).removed, r.id ≠ id := by
  simp only [withdraw, List.mem_filter, List.mem_append, Bool.not_eq_true', List.any_eq_false,
    beq_iff_eq]
  constructor
  · rintro ⟨⟨ha, hleft⟩, hcancelled⟩
    refine ⟨ha, ?_⟩
    rintro r (hr | hr)
    · exact hleft r hr
    · exact hcancelled r hr
  · rintro ⟨ha, hr⟩
    exact ⟨⟨ha, fun r h => hr r (.inl h)⟩, fun r h => hr r (.inr h)⟩

/-- What is removed is what is live or waits, and selected. -/
theorem mem_removed_withdraw (h : Orderly g due) {selected : Registration → Bool}
    {r : Registration} :
    r ∈ (g.withdraw selected).removed ↔ (r ∈ g.live ∨ r ∈ g.waiting) ∧ selected r = true := by
  have hwaiting : r ∈ g.waiting → r.id ∈ g.armed ∧ ∀ s ∈ g.live, s.id ≠ r.id := fun hr =>
    have hdue := h.mem_waiting.mp hr
    ⟨hdue.2.2, fun s hs => h.ne_of_due hdue.1 hdue.2.1 hs⟩
  simp only [withdraw, List.mem_append, List.mem_filter, Bool.and_eq_true,
    List.contains_eq_mem, decide_eq_true_eq, Bool.not_eq_true', List.any_eq_false, beq_iff_eq]
  constructor
  · rintro (⟨hr, hs⟩ | ⟨hr, hs, -⟩)
    · exact ⟨.inl hr, hs⟩
    · exact ⟨.inr hr, hs⟩
  · rintro ⟨hr | hr, hs⟩
    · exact .inl ⟨hr, hs⟩
    · exact .inr ⟨hr, hs, (hwaiting hr).1, fun s hs' => (hwaiting hr).2 s hs'.1⟩

/-- Only live and waiting registrations are removed, and those that wait are due. -/
theorem knows_of_mem_removed (h : Orderly g due) {selected : Registration → Bool}
    {r : Registration} (hr : r ∈ (g.withdraw selected).removed) : g.Knows due r := by
  rcases (h.mem_removed_withdraw.mp hr).1 with hr | hr
  · exact .inl hr
  · exact .inr (h.mem_waiting.mp hr).1

/-- A live or waiting registration is not removed unless it is selected. -/
theorem ne_of_mem_removed (h : Orderly g due) {selected : Registration → Bool}
    {r s : Registration} (hr : r ∈ g.live ∨ r ∈ g.waiting) (hsel : selected r = false)
    (hs : s ∈ (g.withdraw selected).removed) : s.id ≠ r.id := by
  obtain ⟨hs, hsel'⟩ := h.mem_removed_withdraw.mp hs
  rintro hid
  have heq : s = r := by
    rcases hr with hr | hr
    · rcases hs with hs | hs
      · exact h.eq_of_live hs hr hid
      · obtain ⟨hdue, hmode, -⟩ := h.mem_waiting.mp hs
        exact absurd hid.symm (h.ne_of_due hdue hmode hr)
    · obtain ⟨hdue, hmode, -⟩ := h.mem_waiting.mp hr
      rcases hs with hs | hs
      · exact absurd hid (h.ne_of_due hdue hmode hs)
      · obtain ⟨hdue', hmode', -⟩ := h.mem_waiting.mp hs
        exact h.eq_of_due hdue' hmode' hdue hmode hid
  rw [heq, hsel] at hsel'
  contradiction

/-- A removal disarms exactly whom it removes, so the order of the rest is kept. -/
theorem withdraw (h : Orderly g due) (selected : Registration → Bool) :
    Orderly (g.withdraw selected).rest due := by
  constructor
  case nodup_live => exact h.nodup_live.sublist (List.filter_sublist.map _)
  case lt_nextId => exact fun hr => h.lt_nextId (knows_of_knows_withdraw hr)
  case terms_eq =>
      exact fun hr hs => h.terms_eq (knows_of_knows_withdraw hr) (knows_of_knows_withdraw hs)
  case armed_of_live =>
      intro r hr
      obtain ⟨hr, hsel⟩ := mem_live_withdraw.mp hr
      refine (mem_armed_withdraw g selected r.id).mpr ⟨h.armed_of_live hr, fun s hs => ?_⟩
      exact h.ne_of_mem_removed (.inl hr) hsel hs
  case ne_of_due => exact fun hr hmode hs => h.ne_of_due hr hmode (mem_live_withdraw.mp hs).1
  case nodup_due => exact h.nodup_due
  case mem_waiting =>
      intro r
      have hwaiting : r ∈ (g.withdraw selected).rest.waiting ↔
          r ∈ g.waiting ∧ selected r = false := by
        simp [Registry.withdraw]
      rw [hwaiting, mem_armed_withdraw]
      constructor
      · rintro ⟨hr, hsel⟩
        obtain ⟨hdue, hmode, ha⟩ := h.mem_waiting.mp hr
        exact ⟨hdue, hmode, ha, fun s hs => h.ne_of_mem_removed (.inr hr) hsel hs⟩
      · rintro ⟨hdue, hmode, ha, hkept⟩
        have hr := h.mem_waiting.mpr ⟨hdue, hmode, ha⟩
        refine ⟨hr, ?_⟩
        by_contra hsel
        rw [Bool.not_eq_false] at hsel
        exact hkept r (h.mem_removed_withdraw.mpr ⟨.inr hr, hsel⟩) rfl
  case nodup_waiting => exact h.nodup_waiting.sublist List.filter_sublist
  case live_of_armed =>
      intro r hr hmode ha
      obtain ⟨ha, hkept⟩ := (mem_armed_withdraw g selected r.id).mp ha
      obtain ⟨s, hs, hid⟩ := h.live_of_armed hr hmode ha
      refine ⟨s, mem_live_withdraw.mpr ⟨hs, ?_⟩, hid⟩
      by_contra hsel
      rw [Bool.not_eq_false] at hsel
      exact hkept s (h.mem_removed_withdraw.mpr ⟨.inl hs, hsel⟩) hid
  case of_armed =>
      intro id ha
      obtain ⟨ha, hkept⟩ := (mem_armed_withdraw g selected id).mp ha
      obtain ⟨r, hr, hid⟩ := h.of_armed ha
      have hsel : selected r = false := by
        by_contra hsel
        rw [Bool.not_eq_false] at hsel
        exact hkept r (h.mem_removed_withdraw.mpr ⟨hr, hsel⟩) hid
      refine ⟨r, hr.imp (fun hr => mem_live_withdraw.mpr ⟨hr, hsel⟩) fun hr => ?_, hid⟩
      exact List.mem_filter.mpr ⟨hr, by simp [hsel]⟩

/-! ## the default slot -/

/-- The order is in the ids, which do not move. -/
theorem moveDefault (h : Orderly g due) (slot : Slot) :
    Orderly (g.moveDefault slot).1 due := by
  have hlive : ∀ {r}, r ∈ (g.moveDefault slot).1.live → ∃ s ∈ g.live, s.moved slot = r :=
    fun hr => List.mem_map.mp hr
  constructor
  case nodup_live =>
      have hids : (g.moveDefault slot).1.live.map (·.id) = g.live.map (·.id) := by
        simp [Registry.moveDefault]
      rw [hids]
      exact h.nodup_live
  case lt_nextId =>
      intro r hr
      obtain ⟨s, hs, hid, -⟩ := knows_of_knows_moveDefault hr
      exact hid ▸ h.lt_nextId hs
  case terms_eq =>
      intro r s hr hs hid
      obtain ⟨r', hr', hrid, hrterms⟩ := knows_of_knows_moveDefault hr
      obtain ⟨s', hs', hsid, hsterms⟩ := knows_of_knows_moveDefault hs
      rw [← hrterms, ← hsterms]
      exact h.terms_eq hr' hs' (by rw [hrid, hsid, hid])
  case armed_of_live =>
      intro r hr
      obtain ⟨s, hs, rfl⟩ := hlive hr
      rw [Registration.moved_id]
      exact h.armed_of_live hs
  case ne_of_due =>
      intro r s hr hmode hs
      obtain ⟨t, ht, rfl⟩ := hlive hs
      rw [Registration.moved_id]
      exact h.ne_of_due hr hmode ht
  case nodup_due => exact h.nodup_due
  case mem_waiting => exact h.mem_waiting
  case nodup_waiting => exact h.nodup_waiting
  case live_of_armed =>
      intro r hr hmode ha
      obtain ⟨s, hs, hid⟩ := h.live_of_armed hr hmode ha
      exact ⟨s.moved slot, List.mem_map_of_mem hs, by rw [Registration.moved_id, hid]⟩
  case of_armed =>
      intro id ha
      obtain ⟨r, hr | hr, hid⟩ := h.of_armed ha
      · exact ⟨r.moved slot, .inl (List.mem_map_of_mem hr), by rw [Registration.moved_id, hid]⟩
      · exact ⟨r, .inr hr, hid⟩

/-! ## collecting -/

/-- Collecting makes its deliveries due, and its one-shots wait armed until then. -/
theorem collect (h : Orderly g due) (kind : Kind) (slot : Slot) :
    Orderly (g.collect kind slot).rest ((g.collect kind slot).deliveries ++ due) := by
  have hlive : ∀ {r}, r ∈ (g.collect kind slot).deliveries → r ∈ g.live :=
    fun hr => (List.mem_filter.mp hr).1
  constructor
  case nodup_live => exact h.nodup_live.sublist (List.filter_sublist.map _)
  case lt_nextId => exact fun hr => h.lt_nextId (knows_of_knows_collect hr)
  case terms_eq =>
      exact fun hr hs => h.terms_eq (knows_of_knows_collect hr) (knows_of_knows_collect hs)
  case armed_of_live => exact fun hr => h.armed_of_live (mem_live_collect.mp hr).1
  case ne_of_due =>
      intro r s hr hmode hs
      obtain ⟨hs, hstays⟩ := mem_live_collect.mp hs
      rcases List.mem_append.mp hr with hr | hr
      · intro hid
        rw [h.eq_of_live hs (hlive hr) hid, fires_of_mem_deliveries hr hmode] at hstays
        contradiction
      · exact h.ne_of_due hr hmode hs
  case nodup_due =>
      rw [List.filter_append, List.map_append, List.nodup_append]
      refine ⟨?_, h.nodup_due, ?_⟩
      · exact h.nodup_live.sublist ((List.filter_sublist.trans List.filter_sublist).map _)
      · intro a ha c hc hid
        obtain ⟨r, hr, rfl⟩ := List.mem_map.mp ha
        obtain ⟨s, hs, rfl⟩ := List.mem_map.mp hc
        obtain ⟨hr, -⟩ := List.mem_filter.mp hr
        obtain ⟨hs, hmode⟩ := List.mem_filter.mp hs
        exact h.ne_of_due hs (beq_iff_eq.mp hmode) (hlive hr) hid
  case mem_waiting =>
      intro r
      have harmed : (g.collect kind slot).rest.armed = g.armed := rfl
      rw [mem_waiting_collect, h.mem_waiting, List.mem_append, harmed]
      constructor
      · rintro (⟨hdue, hrest⟩ | ⟨hr, hf⟩)
        · exact ⟨.inr hdue, hrest⟩
        · exact ⟨.inl (mem_deliveries_of_fires hr hf), mode_of_fires hf, h.armed_of_live hr⟩
      · rintro ⟨hr | hdue, hmode, ha⟩
        · exact .inr ⟨hlive hr, fires_of_mem_deliveries hr hmode⟩
        · exact .inl ⟨hdue, hmode, ha⟩
  case nodup_waiting =>
      refine List.nodup_append.mpr ⟨h.nodup_waiting, ?_, ?_⟩
      · exact (List.Nodup.of_map _ h.nodup_live).sublist List.filter_sublist
      · intro r hr s hs heq
        obtain ⟨hdue, hmode, -⟩ := h.mem_waiting.mp hr
        exact h.ne_of_due hdue hmode (List.mem_filter.mp hs).1 (congrArg (·.id) heq.symm)
  case live_of_armed =>
      intro r hr hmode ha
      rcases List.mem_append.mp hr with hr | hr
      · exact ⟨r, mem_live_collect_of_repeating (hlive hr) hmode, rfl⟩
      · obtain ⟨s, hs, hid⟩ := h.live_of_armed hr hmode ha
        have hsame := Registration.mode_eq_of_terms_eq (h.terms_eq (.inl hs) (.inr hr) hid)
        exact ⟨s, mem_live_collect_of_repeating hs (hsame.trans hmode), hid⟩
  case of_armed =>
      intro id ha
      obtain ⟨r, hr | hr, hid⟩ := h.of_armed ha
      · cases hf : g.fires kind slot r with
        | true => exact ⟨r, .inr (mem_waiting_collect.mpr (.inr ⟨hr, hf⟩)), hid⟩
        | false => exact ⟨r, .inl (mem_live_collect.mpr ⟨hr, hf⟩), hid⟩
      · exact ⟨r, .inr (mem_waiting_collect.mpr (.inl hr)), hid⟩

/-! ## claiming -/

/-- Coming to what is due next. -/
theorem claim {r : Registration} (h : Orderly g (r :: due)) : Orderly (g.claim r).2 due := by
  have hlive : (g.claim r).2.live = g.live := claim_live g r
  have hwaiting : ∀ {s}, s ∈ (g.claim r).2.waiting ↔
      s ∈ g.waiting ∧ (r.mode = .oneShot → s.id ≠ r.id) := by
    intro s
    unfold Registry.claim
    cases hmode : r.mode <;> simp
  have hdue : ∀ {s}, s ∈ due → s ∈ r :: due := fun hs => List.mem_cons_of_mem r hs
  constructor
  case nodup_live =>
      rw [hlive]
      exact h.nodup_live
  case lt_nextId =>
      intro s hs
      rw [claim_nextId]
      exact h.lt_nextId (knows_of_knows_claim hs)
  case terms_eq => exact fun hr hs => h.terms_eq (knows_of_knows_claim hr) (knows_of_knows_claim hs)
  case armed_of_live =>
      intro s hs
      rw [hlive] at hs
      refine (mem_armed_claim g r s.id).mpr ⟨h.armed_of_live hs, fun hmode => ?_⟩
      exact h.ne_of_due List.mem_cons_self hmode hs
  case ne_of_due =>
      intro s t hs hmode ht
      rw [hlive] at ht
      exact h.ne_of_due (hdue hs) hmode ht
  case nodup_due => exact h.nodup_due.sublist (((List.sublist_cons_self r due).filter _).map _)
  case mem_waiting =>
      intro s
      rw [hwaiting, h.mem_waiting, mem_armed_claim]
      constructor
      · rintro ⟨⟨hs, hmode, ha⟩, hne⟩
        refine ⟨(List.mem_cons.mp hs).resolve_left ?_, hmode, ha, hne⟩
        rintro rfl
        exact hne hmode rfl
      · rintro ⟨hs, hmode, ha, hne⟩
        exact ⟨⟨hdue hs, hmode, ha⟩, hne⟩
  case nodup_waiting =>
      refine h.nodup_waiting.sublist ?_
      unfold Registry.claim
      split
      · exact List.Sublist.refl _
      · exact List.filter_sublist
  case live_of_armed =>
      intro s hs hmode ha
      obtain ⟨t, ht, hid⟩ := h.live_of_armed (hdue hs) hmode ((mem_armed_claim g r s.id).mp ha).1
      exact ⟨t, by rwa [hlive], hid⟩
  case of_armed =>
      intro id ha
      obtain ⟨ha, hne⟩ := (mem_armed_claim g r id).mp ha
      obtain ⟨s, hs, hid⟩ := h.of_armed ha
      refine ⟨s, hs.imp (fun hs => ?_) fun hs => ?_, hid⟩
      · rwa [hlive]
      · exact hwaiting.mpr ⟨hs, fun hmode => hid ▸ hne hmode⟩

/-- What has been come to is not a one-shot that is still live or due. -/
theorem ne_of_claimed {r s : Registration} (h : Orderly g (r :: due))
    (hs : (g.claim r).2.Knows due s) (hmode : s.mode = .oneShot) : r.id ≠ s.id := by
  intro hid
  have hr : g.Knows (r :: due) r := .inr List.mem_cons_self
  have hrmode : r.mode = .oneShot := by
    rw [Registration.mode_eq_of_terms_eq (h.terms_eq hr (knows_of_knows_claim hs) hid), hmode]
  rcases hs with hs | hs
  · rw [claim_live] at hs
    exact h.ne_of_due List.mem_cons_self hrmode hs hid.symm
  · have hnodup := h.nodup_due
    rw [List.filter_cons_of_pos (by simp [hrmode]), List.map_cons, List.nodup_cons] at hnodup
    refine hnodup.1 (List.mem_map.mpr ⟨s, ?_, hid.symm⟩)
    simpa using ⟨hs, hmode⟩

end Orderly

end Registry

end SlotWatch

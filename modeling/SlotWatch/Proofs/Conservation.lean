import Mathlib.Data.List.Dedup
import SlotWatch.Proofs.Answers

/-!
# SlotWatch.Proofs.Conservation

Registrations are conserved.

Every registration that was ever made is in one place: it is live, or it is a one-shot
that waits or has been called, or it has been removed.  The ids in these places (`places`)
are those that were given out, each once (`Balanced`).

1. Adding puts the next id at the end of the live list.
2. Removing and collecting split a list in two and move one part (`List.filter_append_perm`).
3. Coming to a one-shot that is still armed moves it from those that wait to those that
   have been called; one that is not armed does not wait any more.
-/

namespace SlotWatch

variable {σ ε : Type}

/-- The one-shots that were called. -/
def fired (trace : List (Event σ ε)) : List Registration :=
  (calls trace).filter (·.mode == .oneShot)

@[simp] theorem fired_story (trace : List (Event σ ε)) : fired (story trace) = fired trace := by
  rw [fired, calls_story, fired]

theorem fired_cons_of_isIdle {e : Event σ ε} (h : e.isIdle) (es : List (Event σ ε)) :
    fired (e :: es) = fired es := by
  rw [fired, calls_cons_of_isIdle h, fired]

/-- The call of a repeating registration fires nobody. -/
theorem fired_handed_of_repeating {r : Registration} (hr : r.mode = .repeating) (p : Payload)
    (es : List (Event σ ε)) : fired (r.handed p :: es) = fired es := by
  rw [fired, calls_handed, List.filter_cons_of_neg (by simp [hr]), fired]

/-- The call of a one-shot fires it. -/
theorem fired_handed_of_oneShot {r : Registration} (hr : r.mode = .oneShot) (p : Payload)
    (es : List (Event σ ε)) : fired (r.handed p :: es) = r :: fired es := by
  rw [fired, calls_handed, List.filter_cons_of_pos (by simp [hr]), fired]

/-! ## coming to a one-shot -/

namespace Registry.Orderly

variable {g : Registry} {due : List Registration} {r : Registration}

/-- What is not armed does not wait. -/
theorem waiting_claim_of_not_armed (h : Orderly g (r :: due)) (ha : r.id ∉ g.armed) :
    (g.claim r).2.waiting = g.waiting := by
  unfold Registry.claim
  cases r.mode with
  | repeating => rfl
  | oneShot =>
      refine List.filter_eq_self.mpr fun s hs => ?_
      have harmed : s.id ∈ g.armed := (h.mem_waiting.mp hs).2.2
      have hne : s.id ≠ r.id := fun hid => ha (hid ▸ harmed)
      simpa using hne

/-- A repeating registration does not wait, so claiming it takes nobody from those who do. -/
theorem waiting_claim_of_repeating (g : Registry) (hr : r.mode = .repeating) :
    (g.claim r).2.waiting = g.waiting := by
  unfold Registry.claim
  rw [hr]

/-- A one-shot that is armed and due next waits until then. -/
theorem waiting_perm_claim (h : Orderly g (r :: due)) (hr : r.mode = .oneShot)
    (ha : r.id ∈ g.armed) : g.waiting.Perm (r :: (g.claim r).2.waiting) := by
  have hwaits : r ∈ g.waiting := h.mem_waiting.mpr ⟨List.mem_cons_self, hr, ha⟩
  have hothers : (g.claim r).2.waiting = g.waiting.erase r := by
    rw [h.nodup_waiting.erase_eq_filter]
    unfold Registry.claim
    rw [hr]
    refine List.filter_congr fun s hs => ?_
    have hdue := h.mem_waiting.mp hs
    have hsame : s.id = r.id ↔ s = r :=
      ⟨h.eq_of_due hdue.1 hdue.2.1 List.mem_cons_self hr, congrArg Registration.id⟩
    simp [bne, hsame]
  rw [hothers]
  exact List.perm_cons_erase hwaits

end Registry.Orderly

namespace Switchboard

variable {S : Source σ ε}

/-! ## the balance -/

/-- Where registrations are: live, waiting, called as one-shots, removed. -/
def places (g : Registry) (trace : List (Event σ ε)) : List Registration :=
  (g.live ++ g.waiting) ++ (fired trace ++ removals trace)

/-- Every id below the next one is in one place. -/
def Balanced (g : Registry) (trace : List (Event σ ε)) : Prop :=
  ((places g trace).map (·.id)).Perm (List.range' 1 (g.nextId - 1))

/-- Registrations that only change places. -/
theorem Balanced.of_perm {g g' : Registry} {t t' : List (Event σ ε)} (h : Balanced g t)
    (hplaces : (places g' t').Perm (places g t)) (hn : g'.nextId = g.nextId) :
    Balanced g' t' := by
  rw [Balanced, hn]
  exact (hplaces.map _).trans h

/-- What neither calls nor removes changes no place. -/
theorem Balanced.idle {g : Registry} {t : List (Event σ ε)} (h : Balanced g t) {e : Event σ ε}
    (he : e.isIdle) : Balanced g (e :: t) := by
  refine h.of_perm ?_ rfl
  rw [places, fired_cons_of_isIdle he, removals_cons_of_isIdle he, ← places]

/-- The new registration is live, and the next id is one higher. -/
theorem Balanced.add {g : Registry} {t : List (Event σ ε)} (h : Balanced g t)
    (hpos : 0 < g.nextId) (kind : Kind) (selector : Option Slot) (callback : Callback)
    (mode : Mode) : Balanced (g.add kind selector callback mode) t := by
  have hnext : (g.add kind selector callback mode).nextId - 1 = (g.nextId - 1) + 1 := by
    simp only [Registry.add]
    omega
  have hlast : 1 + (g.nextId - 1) = g.nextId := by omega
  have hplaces : (places (g.add kind selector callback mode) t).Perm
      (places g t ++ [g.made kind selector callback mode]) := by
    refine List.perm_iff_count.mpr fun r => ?_
    simp only [places, Registry.add, Registry.made, List.count_append]
    omega
  rw [Balanced, hnext, List.range'_1_concat, hlast]
  refine (hplaces.map _).trans ?_
  rw [List.map_append]
  exact h.append_right _

/-- Whoever is removed was live or waiting before. -/
theorem Balanced.withdraw {g : Registry} {due : List Registration} {t : List (Event σ ε)}
    (h : Balanced g t) (ho : g.Orderly due) (selected : Registration → Bool) :
    Balanced (g.withdraw selected).rest (.withdrawn (g.withdraw selected).removed :: t) := by
  have hkept : (g.withdraw selected).rest.live ++ (g.withdraw selected).rest.waiting =
      (g.live ++ g.waiting).filter fun r => !selected r :=
    (List.filter_append ..).symm
  have hsplit : ((g.live ++ g.waiting).filter selected ++
      (g.live ++ g.waiting).filter fun r => !selected r).Perm (g.live ++ g.waiting) :=
    List.filter_append_perm selected _
  refine h.of_perm ?_ rfl
  rw [places, hkept, removals_withdrawn, ho.removed_withdraw, fired, calls_withdrawn, ← fired,
    places]
  -- both sides have the same parts in different orders: count each registration
  refine List.perm_iff_count.mpr fun r => ?_
  have hcount := hsplit.count_eq r
  simp only [List.count_append] at hcount ⊢
  omega

/-- Registrations keep their ids and stay live. -/
theorem Balanced.moveDefault {g : Registry} {t : List (Event σ ε)} (h : Balanced g t)
    (slot : Slot) : Balanced (g.moveDefault slot).1 t := by
  have hids : (places (g.moveDefault slot).1 t).map (·.id) = (places g t).map (·.id) := by
    simp [places, Registry.moveDefault]
  have hnext : (g.moveDefault slot).1.nextId = g.nextId := rfl
  rw [Balanced, hids, hnext]
  exact h

/-- Those that fire were live and are waiting. -/
theorem Balanced.collect {g : Registry} {t : List (Event σ ε)} (h : Balanced g t) (kind : Kind)
    (slot : Slot) : Balanced (g.collect kind slot).rest t := by
  have hlive : (g.collect kind slot).rest.live = g.live.filter fun r => !g.fires kind slot r := rfl
  have hwaiting : (g.collect kind slot).rest.waiting =
      g.waiting ++ g.live.filter (g.fires kind slot) := rfl
  have hsplit := List.filter_append_perm (g.fires kind slot) g.live
  refine h.of_perm ?_ rfl
  rw [places, hlive, hwaiting, places]
  refine List.perm_iff_count.mpr fun r => ?_
  have hcount := hsplit.count_eq r
  simp only [List.count_append] at hcount ⊢
  omega

/-- Whoever is passed over was removed, and does not wait any more. -/
theorem Balanced.skip {g : Registry} {r : Registration} {due : List Registration}
    {t : List (Event σ ε)} (h : Balanced g t) (ho : g.Orderly (r :: due)) (ha : r.id ∉ g.armed) :
    Balanced (g.claim r).2 t := by
  refine h.of_perm ?_ (Registry.claim_nextId g r)
  rw [places, Registry.claim_live, ho.waiting_claim_of_not_armed ha, ← places]

/-- A one-shot that is called was waiting and has fired. -/
theorem Balanced.call {g : Registry} {r : Registration} {due : List Registration}
    {t : List (Event σ ε)} (h : Balanced g t) (ho : g.Orderly (r :: due)) (ha : r.id ∈ g.armed)
    (p : Payload) : Balanced (g.claim r).2 (r.handed p :: t) := by
  refine h.of_perm ?_ (Registry.claim_nextId g r)
  rw [places, Registry.claim_live, removals_handed, places]
  cases hmode : r.mode with
  | repeating =>
      rw [Registry.Orderly.waiting_claim_of_repeating g hmode, fired_handed_of_repeating hmode]
  | oneShot =>
      have hclaimed := ho.waiting_perm_claim hmode ha
      rw [fired_handed_of_oneShot hmode]
      refine List.perm_iff_count.mpr fun s => ?_
      have hcount := hclaimed.count_eq s
      simp only [List.count_append, List.count_cons] at hcount ⊢
      omega

/-! ## at every moment -/

/-- The roster is orderly, and the registrations are balanced. -/
def InBalance (g : Registry) (due : List Registration) (story : List (Event σ ε)) : Prop :=
  InOrder g due story ∧ Balanced g story

/-- The places stay in balance, operation by operation. -/
theorem upheld_inBalance : Upheld (InBalance : _ → _ → List (Event σ ε) → Prop) where
  remark e he h := ⟨upheld_inOrder.remark e he h.1, h.2.idle (isIdle_of_isRemark he)⟩
  add hc hs hd h := ⟨upheld_inOrder.add hc hs hd h.1, h.2.add h.1.2.nextId_pos _ _ _ _⟩
  withdraw selected h :=
    ⟨upheld_inOrder.withdraw selected h.1, h.2.withdraw h.1.1 selected⟩
  moveDefault hslot h := ⟨upheld_inOrder.moveDefault hslot h.1, h.2.moveDefault _⟩
  collect slot hp h :=
    ⟨upheld_inOrder.collect slot hp h.1, (h.2.collect _ slot).idle ⟨rfl, rfl⟩⟩
  skip ha h := ⟨upheld_inOrder.skip ha h.1, h.2.skip h.1.1 ha⟩
  call ha hk h := ⟨upheld_inOrder.call ha hk h.1, h.2.call h.1.1 ha _⟩

section
variable {settings : SlotSettings} {source : σ} {b : Switchboard σ ε}

/-- The places are in balance on every board that a run reaches. -/
theorem Reaches.balanced (h : Reaches S (fresh settings source) b) :
    Balanced b.registry (story b.trace) := by
  have hstart : InBalance (.ofSettings settings) [] ([] : List (Event σ ε)) :=
    ⟨⟨.ofSettings settings, .ofSettings settings⟩, List.Perm.nil⟩
  exact (upheld_inBalance.reaches h hstart).2

/-- **No registration is lost, and none is in two places.**  The ids of those that there
are, of the one-shots that have been called and of what has been removed are the ids that
were given out, each once. -/
theorem Reaches.places_perm_issued (h : Reaches S (fresh settings source) b) :
    ((b.present ++ fired b.trace ++ removals b.trace).map (·.id)).Perm (issued b.trace).dedup := by
  have hplaces : (b.present ++ fired b.trace ++ removals b.trace).Perm
      (places b.registry (story b.trace)) := by
    rw [places, fired_story, removals_story, List.append_assoc]
    exact h.present_perm.append_right _
  have hissued : (List.range' 1 (b.registry.nextId - 1)).Perm (issued b.trace).dedup := by
    rw [List.perm_ext_iff_of_nodup List.nodup_range' (List.nodup_dedup _)]
    intro id
    have hpos := h.numbered.1
    rw [List.mem_range'_1, List.mem_dedup, h.mem_issued_iff]
    omega
  exact ((hplaces.map _).trans h.balanced).trans hissued

/-- The balance in numbers; while publishes are in progress it takes in what they owe. -/
theorem Reaches.length_issued (h : Reaches S (fresh settings source) b)
    (hg : StopsGranted b.trace) :
    (issued b.trace).dedup.length =
      b.present.length + (fired b.trace).length + (counts b.trace).sum +
        (cancels b.trace).length := by
  have hlength := h.places_perm_issued.length_eq
  have hremovals := h.answers_eq_length_removals hg
  simp only [List.length_map, List.length_append] at hlength
  omega

/-- Without a publish in progress nothing is owed. -/
theorem present_of_idle (hidle : b.running = []) : b.present = b.registry.live := by
  rw [present, owed, hidle, List.flatten_nil, List.filter_nil, List.append_nil]

end

/-- **Registrations are conserved** in a run in which the source stops whatever it is asked
to.  At every moment at which no publish is in progress, the ids that were given out are
as many as the live registrations, the calls of one-shots, the registrations that removals
were answered to have removed and the cancellations together; and no registration is in
two of these places, at any moment. -/
theorem registrations_conserved {react : React σ ε} {limit : Nat} {cs : List (Command ε)}
    {settings : SlotSettings} {source : σ} {m : Switchboard σ ε}
    (h : Moment S react limit cs (fresh settings source) m) (hg : StopsGranted m.trace) :
    (m.running = [] →
      (issued m.trace).dedup.length =
        m.registry.live.length + (fired m.trace).length + (counts m.trace).sum +
          (cancels m.trace).length) ∧
    ((m.present ++ fired m.trace ++ removals m.trace).map (·.id)).Perm (issued m.trace).dedup ∧
    (issued m.trace).dedup.length =
      m.present.length + (fired m.trace).length + (counts m.trace).sum +
        (cancels m.trace).length := by
  have hlength := h.reaches.length_issued hg
  refine ⟨fun hidle => ?_, h.reaches.places_perm_issued, hlength⟩
  rw [← present_of_idle hidle]
  exact hlength

/-! ### a sample balance

Of three registrations a one-shot is called, one is cancelled and one is removed with its
listener. -/

namespace Sample

def account : List (Command Bench.Control) :=
  crowd ++ [publication, ask (.cancel 1), ask (.off .voiceMail (some "late"))]

def settled : Switchboard Bench Bench.Control :=
  run Bench.source react 2 account (fresh settings bench)

end Sample

/-- Of the three registrations of the sample one has fired and two were removed. -/
theorem registrations_conserved_settled :
    Moment Bench.source Sample.react 2 Sample.account (fresh Sample.settings Sample.bench)
        Sample.settled ∧
      StopsGranted Sample.settled.trace ∧ Sample.settled.running = [] ∧
      fired Sample.settled.trace = [Sample.late] ∧ counts Sample.settled.trace = [1] ∧
      cancels Sample.settled.trace = [1] ∧
      (issued Sample.settled.trace).dedup.length =
        Sample.settled.registry.live.length + (fired Sample.settled.trace).length +
          (counts Sample.settled.trace).sum + (cancels Sample.settled.trace).length :=
  have h : Moment Bench.source Sample.react 2 Sample.account
      (fresh Sample.settings Sample.bench) Sample.settled := moment_run ..
  have hg : StopsGranted Sample.settled.trace := by decide
  ⟨h, hg, rfl, rfl, rfl, rfl, (registrations_conserved h hg).1 rfl⟩

end Switchboard

end SlotWatch

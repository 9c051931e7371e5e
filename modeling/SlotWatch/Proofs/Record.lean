import SlotWatch.Proofs.Reach
import SlotWatch.Proofs.Roster

/-!
# SlotWatch.Proofs.Record

What the trace says of registrations: which have been called, and which removed.
`Recorded` ties it to the registry.

1. A registration is armed if it has been made, has not been removed and, if it is a
   one-shot, has not been called.
2. A one-shot that is live or due has not been called.
3. After the call of a one-shot there is no other call of it, and no removal.

With `Registry.Orderly` it holds at every moment of a run (`inOrder_moment`).  So an id,
once it is given, stands for the same registration for good (`Stands`).
-/

namespace SlotWatch

variable {σ ε : Type}

/-! ## calls and removals -/

/-- The registration that an event is a call of. -/
def Event.called? : Event σ ε → Option Registration
  | .delivered r _ | .mismatched r _ => some r
  | _ => none

/-- The registrations that an event is the removal of. -/
def Event.removed : Event σ ε → List Registration
  | .withdrawn removed => removed
  | _ => []

/-- The registrations that were called, latest first. -/
def calls (trace : List (Event σ ε)) : List Registration :=
  trace.filterMap Event.called?

/-- The registrations that were removed. -/
def removals (trace : List (Event σ ε)) : List Registration :=
  trace.flatMap Event.removed

/-- Whether an event neither calls nor removes anything. -/
def Event.isIdle (e : Event σ ε) : Prop :=
  e.called? = none ∧ e.removed = []

theorem isIdle_of_isRemark {e : Event σ ε} (h : e.isRemark = true) : e.isIdle := by
  cases e <;> first | exact ⟨rfl, rfl⟩ | contradiction

theorem isIdle_of_isRequest {e : Event σ ε} (h : e.isRequest = true) : e.isIdle := by
  cases e <;> first | exact ⟨rfl, rfl⟩ | contradiction

theorem calls_cons_of_isIdle {e : Event σ ε} (h : e.isIdle) (es : List (Event σ ε)) :
    calls (e :: es) = calls es :=
  List.filterMap_cons_none h.1

theorem removals_cons_of_isIdle {e : Event σ ε} (h : e.isIdle) (es : List (Event σ ε)) :
    removals (e :: es) = removals es := by
  rw [removals, List.flatMap_cons, h.2]
  rfl

/-- Calls are part of the story. -/
@[simp] theorem calls_story (trace : List (Event σ ε)) : calls (story trace) = calls trace :=
  filterMap_story (fun _ he => (isIdle_of_isRequest he).1) trace

@[simp] theorem removals_story (trace : List (Event σ ε)) :
    removals (story trace) = removals trace := by
  induction trace with
  | nil => rfl
  | cons e es ih =>
      cases hr : e.isRequest with
      | true =>
          rw [story_cons_of_isRequest hr, removals_cons_of_isIdle (isIdle_of_isRequest hr), ih]
      | false =>
          unfold removals at ih ⊢
          rw [story_cons hr, List.flatMap_cons, List.flatMap_cons, ih]

@[simp] theorem called?_handed (r : Registration) (p : Payload) :
    (r.handed p : Event σ ε).called? = some r := by
  unfold Registration.handed
  split <;> rfl

@[simp] theorem removed_handed (r : Registration) (p : Payload) :
    (r.handed p : Event σ ε).removed = [] := by
  unfold Registration.handed
  split <;> rfl

theorem calls_handed (r : Registration) (p : Payload) (es : List (Event σ ε)) :
    calls (r.handed p :: es) = r :: calls es :=
  List.filterMap_cons_some (called?_handed r p)

theorem removals_handed (r : Registration) (p : Payload) (es : List (Event σ ε)) :
    removals (r.handed p :: es) = removals es := by
  rw [removals, List.flatMap_cons, removed_handed]
  rfl

theorem calls_withdrawn (removed : List Registration) (es : List (Event σ ε)) :
    calls (.withdrawn removed :: es) = calls es := rfl

theorem removals_withdrawn (removed : List Registration) (es : List (Event σ ε)) :
    removals (.withdrawn removed :: es) = removed ++ removals es := rfl

/-- Whether, after the call of a one-shot, an event has nothing to do with it. -/
def Apart (later earlier : Event σ ε) : Prop :=
  ∀ c, earlier.called? = some c → c.mode = .oneShot →
    (∀ r, later.called? = some r → r.id ≠ c.id) ∧ ∀ r ∈ later.removed, r.id ≠ c.id

/-- What neither calls nor removes has nothing to do with any call. -/
theorem apart_of_isIdle {e : Event σ ε} (h : e.isIdle) (earlier : Event σ ε) :
    Apart e earlier := by
  intro c _ _
  rw [h.1, h.2]
  simp

/-! ## the record and the roster -/

/-- How a trace fits to a registry and what is due. -/
structure Recorded (g : Registry) (due : List Registration) (trace : List (Event σ ε)) :
    Prop where
  nextId_pos : 0 < g.nextId
  mem_armed {id} : id ∈ g.armed ↔ 0 < id ∧ id < g.nextId ∧
    (∀ r ∈ removals trace, r.id ≠ id) ∧ ∀ c ∈ calls trace, c.mode = .oneShot → c.id ≠ id
  call_lt {c} : c ∈ calls trace → c.id < g.nextId
  removal_lt {r} : r ∈ removals trace → r.id < g.nextId
  known_call {r c} : g.Knows due r → c ∈ calls trace → c.id = r.id →
    c.terms = r.terms ∧ r.mode = .repeating
  apart : trace.Pairwise Apart

namespace Recorded

variable {g : Registry} {due : List Registration} {trace : List (Event σ ε)}

/-- Before any registration there is nothing to record. -/
theorem ofSettings (s : SlotSettings) : Recorded (.ofSettings s) [] ([] : List (Event σ ε)) where
  nextId_pos := Nat.one_pos
  mem_armed := by
    intro id
    simp only [Registry.ofSettings, List.not_mem_nil, false_iff, not_and]
    omega
  call_lt h := by simp [calls] at h
  removal_lt h := by simp [removals] at h
  known_call _ h := by simp [calls] at h
  apart := List.Pairwise.nil

/-- An event that neither calls nor removes anything. -/
theorem idle (h : Recorded g due trace) {e : Event σ ε} (he : e.isIdle) :
    Recorded g due (e :: trace) := by
  have hcalls := calls_cons_of_isIdle he trace
  have hremovals := removals_cons_of_isIdle he trace
  constructor
  case nextId_pos => exact h.nextId_pos
  case mem_armed =>
      rw [hcalls, hremovals]
      exact h.mem_armed
  case call_lt =>
      rw [hcalls]
      exact h.call_lt
  case removal_lt =>
      rw [hremovals]
      exact h.removal_lt
  case known_call =>
      rw [hcalls]
      exact h.known_call
  case apart => exact List.pairwise_cons.mpr ⟨fun e' _ => apart_of_isIdle he e', h.apart⟩

/-- A new id is on no record. -/
theorem add (h : Recorded g due trace) (kind : Kind) (selector : Option Slot)
    (callback : Callback) (mode : Mode) :
    Recorded (g.add kind selector callback mode) due trace := by
  have hnext : (g.add kind selector callback mode).nextId = g.nextId + 1 := rfl
  have hpos := h.nextId_pos
  constructor
  case nextId_pos => omega
  case mem_armed =>
      intro id
      have harmed : (g.add kind selector callback mode).armed = g.nextId :: g.armed := rfl
      rw [harmed, hnext, List.mem_cons, h.mem_armed]
      constructor
      · rintro (rfl | ⟨hid, hlt, hrest⟩)
        · refine ⟨hpos, by omega, fun r hr => ?_, fun c hc _ => ?_⟩
          · exact Nat.ne_of_lt (h.removal_lt hr)
          · exact Nat.ne_of_lt (h.call_lt hc)
        · exact ⟨hid, by omega, hrest⟩
      · rintro ⟨hid, hlt, hrest⟩
        rcases Nat.lt_succ_iff_lt_or_eq.mp hlt with hlt | heq
        · exact .inr ⟨hid, hlt, hrest⟩
        · exact .inl heq
  case call_lt =>
      intro c hc
      have := h.call_lt hc
      omega
  case removal_lt =>
      intro r hr
      have := h.removal_lt hr
      omega
  case known_call =>
      intro r c hr hc hid
      rcases Registry.knows_of_knows_add hr with hr | rfl
      · exact h.known_call hr hc hid
      · exact absurd hid (Nat.ne_of_lt (h.call_lt hc))
  case apart => exact h.apart

/-- Whoever is removed was there to be removed, and is not armed any more. -/
theorem withdraw (h : Recorded g due trace) (ho : g.Orderly due)
    (selected : Registration → Bool) :
    Recorded (g.withdraw selected).rest due
      (.withdrawn (g.withdraw selected).removed :: trace) := by
  have hknown {r} (hr : r ∈ (g.withdraw selected).removed) := ho.knows_of_mem_removed hr
  constructor
  case nextId_pos => exact h.nextId_pos
  case mem_armed =>
      intro id
      rw [Registry.Orderly.mem_armed_withdraw, h.mem_armed, removals_withdrawn, calls_withdrawn]
      simp only [List.mem_append]
      constructor
      · rintro ⟨⟨hid, hlt, hrem, hcall⟩, hnew⟩
        exact ⟨hid, hlt, fun r hr => hr.elim (hnew r) (hrem r), hcall⟩
      · rintro ⟨hid, hlt, hrem, hcall⟩
        exact ⟨⟨hid, hlt, fun r hr => hrem r (.inr hr), hcall⟩, fun r hr => hrem r (.inl hr)⟩
  case call_lt => exact h.call_lt
  case removal_lt =>
      intro r hr
      rw [removals_withdrawn] at hr
      rcases List.mem_append.mp hr with hr | hr
      · exact ho.lt_nextId (hknown hr)
      · exact h.removal_lt hr
  case known_call => exact fun hr => h.known_call (Registry.knows_of_knows_withdraw hr)
  case apart =>
      refine List.pairwise_cons.mpr ⟨fun e he c hc hmode => ⟨fun r hr => ?_, fun r hr hid => ?_⟩,
        h.apart⟩
      · contradiction
      · have hcall : c ∈ calls trace := List.mem_filterMap.mpr ⟨e, he, hc⟩
        obtain ⟨hterms, hrep⟩ := h.known_call (hknown hr) hcall hid.symm
        rw [Registration.mode_eq_of_terms_eq hterms, hrep] at hmode
        contradiction

/-- The record is about ids, which do not move. -/
theorem moveDefault (h : Recorded g due trace) (slot : Slot) :
    Recorded (g.moveDefault slot).1 due trace := by
  constructor
  case nextId_pos => exact h.nextId_pos
  case mem_armed => exact h.mem_armed
  case call_lt => exact h.call_lt
  case removal_lt => exact h.removal_lt
  case known_call =>
      intro r c hr hc hid
      obtain ⟨s, hs, hsid, hsterms⟩ := Registry.knows_of_knows_moveDefault hr
      obtain ⟨hterms, hmode⟩ := h.known_call hs hc (hid.trans hsid.symm)
      exact ⟨hterms.trans hsterms, Registration.mode_eq_of_terms_eq hsterms ▸ hmode⟩
  case apart => exact h.apart

/-- Collecting calls nobody and removes nobody. -/
theorem collect (h : Recorded g due trace) (kind : Kind) (slot : Slot) :
    Recorded (g.collect kind slot).rest ((g.collect kind slot).deliveries ++ due) trace := by
  constructor
  case nextId_pos => exact h.nextId_pos
  case mem_armed => exact h.mem_armed
  case call_lt => exact h.call_lt
  case removal_lt => exact h.removal_lt
  case known_call => exact fun hr => h.known_call (Registry.knows_of_knows_collect hr)
  case apart => exact h.apart

/-- Passing over what is due next: it has been removed. -/
theorem skip {r : Registration} (h : Recorded g (r :: due) trace) (ha : r.id ∉ g.armed) :
    Recorded (g.claim r).2 due trace := by
  constructor
  case nextId_pos =>
      rw [Registry.claim_nextId]
      exact h.nextId_pos
  case mem_armed =>
      intro id
      rw [Registry.claim_nextId, Registry.mem_armed_claim, ← h.mem_armed]
      exact and_iff_left_of_imp fun hid _ heq => ha (heq ▸ hid)
  case call_lt =>
      rw [Registry.claim_nextId]
      exact h.call_lt
  case removal_lt =>
      rw [Registry.claim_nextId]
      exact h.removal_lt
  case known_call => exact fun hr => h.known_call (Registry.knows_of_knows_claim hr)
  case apart => exact h.apart

/-- Calling what is due next. -/
theorem call {r : Registration} (h : Recorded g (r :: due) trace) (ho : g.Orderly (r :: due))
    (p : Payload) : Recorded (g.claim r).2 due (r.handed p :: trace) := by
  have hr : g.Knows (r :: due) r := .inr List.mem_cons_self
  constructor
  case nextId_pos =>
      rw [Registry.claim_nextId]
      exact h.nextId_pos
  case mem_armed =>
      intro id
      rw [Registry.claim_nextId, Registry.mem_armed_claim, h.mem_armed, calls_handed,
        removals_handed]
      simp only [List.forall_mem_cons, ne_comm (a := id), and_assoc]
      tauto
  case call_lt =>
      intro c hc
      rw [calls_handed] at hc
      rw [Registry.claim_nextId]
      rcases List.mem_cons.mp hc with rfl | hc
      · exact ho.lt_nextId hr
      · exact h.call_lt hc
  case removal_lt =>
      rw [Registry.claim_nextId, removals_handed]
      exact h.removal_lt
  case known_call =>
      intro s c hs hc hid
      rw [calls_handed] at hc
      have hs' := Registry.knows_of_knows_claim hs
      rcases List.mem_cons.mp hc with rfl | hc
      · refine ⟨ho.terms_eq hr hs' hid, ?_⟩
        cases hmode : s.mode with
        | repeating => rfl
        | oneShot => exact absurd hid (ho.ne_of_claimed hs hmode)
      · exact h.known_call hs' hc hid
  case apart =>
      refine List.pairwise_cons.mpr ⟨fun e he c hc hmode => ⟨fun s hs hid => ?_, fun s hs => ?_⟩,
        h.apart⟩
      · rw [called?_handed, Option.some.injEq] at hs
        subst hs
        have hcall : c ∈ calls trace := List.mem_filterMap.mpr ⟨e, he, hc⟩
        obtain ⟨hterms, hrep⟩ := h.known_call hr hcall hid.symm
        rw [Registration.mode_eq_of_terms_eq hterms, hrep] at hmode
        contradiction
      · rw [removed_handed] at hs
        contradiction

end Recorded

namespace Switchboard

variable {S : Source σ ε}

/-! ## at every moment -/

/-- The roster is orderly, and the story fits to it. -/
def InOrder (g : Registry) (due : List Registration) (story : List (Event σ ε)) : Prop :=
  g.Orderly due ∧ Recorded g due story

/-- Roster and record keep fitting together, operation by operation. -/
theorem upheld_inOrder : Upheld (InOrder : _ → _ → List (Event σ ε) → Prop) where
  remark _ he h := ⟨h.1, h.2.idle (isIdle_of_isRemark he)⟩
  add _ _ _ h := ⟨h.1.add _ _ _ _, h.2.add _ _ _ _⟩
  withdraw selected h := ⟨h.1.withdraw selected, h.2.withdraw h.1 selected⟩
  moveDefault _ h := ⟨h.1.moveDefault _, h.2.moveDefault _⟩
  collect slot _ h := ⟨h.1.collect _ slot, (h.2.collect _ slot).idle ⟨rfl, rfl⟩⟩
  skip ha h := ⟨h.1.claim, h.2.skip ha⟩
  call _ _ h := ⟨h.1.claim, h.2.call h.1 _⟩

/-- Roster and record fit together on every board that a run reaches. -/
theorem Reaches.inOrder {settings : SlotSettings} {source : σ} {b : Switchboard σ ε}
    (h : Reaches S (fresh settings source) b) :
    InOrder b.registry b.running.flatten (story b.trace) :=
  upheld_inOrder.reaches h ⟨.ofSettings settings, .ofSettings settings⟩

/-- Whether whatever goes by an id was made for the same. -/
structure Stands (id : Nat) (terms : Kind × Option Slot × Callback × Mode) (g : Registry)
    (due : List Registration) (story : List (Event σ ε)) : Prop where
  lt_nextId : id < g.nextId
  known {r} : g.Knows due r → r.id = id → r.terms = terms
  called {c} : c ∈ calls story → c.id = id → c.terms = terms

/-- A live or due registration has its id for itself. -/
theorem InOrder.stands {g : Registry} {due : List Registration} {story : List (Event σ ε)}
    (h : InOrder g due story) {r : Registration} (hr : g.Knows due r) :
    Stands r.id r.terms g due story where
  lt_nextId := h.1.lt_nextId hr
  known hs hid := h.1.terms_eq hs hr hid
  called hc hid := (h.2.known_call hr hc hid).1

/-- It keeps its id, live or due or gone. -/
theorem upheld_stands (id : Nat) (terms : Kind × Option Slot × Callback × Mode) :
    Upheld (Stands id terms : _ → _ → List (Event σ ε) → Prop) where
  remark e he h := by
    refine ⟨h.1, h.2, ?_⟩
    rw [calls_cons_of_isIdle (isIdle_of_isRemark he)]
    exact h.3
  add _ _ _ h := by
    refine ⟨Nat.lt_succ_of_lt h.1, fun hr hid => ?_, h.3⟩
    rcases Registry.knows_of_knows_add hr with hr | rfl
    · exact h.known hr hid
    · exact absurd hid (Nat.ne_of_gt h.1)
  withdraw _ h := ⟨h.1, fun hr => h.known (Registry.knows_of_knows_withdraw hr), h.3⟩
  moveDefault _ h := by
    refine ⟨h.1, fun hr hid => ?_, h.3⟩
    obtain ⟨s, hs, hsid, hterms⟩ := Registry.knows_of_knows_moveDefault hr
    rw [← hterms]
    exact h.known hs (hsid.trans hid)
  collect _ _ h := ⟨h.1, fun hr => h.known (Registry.knows_of_knows_collect hr), h.3⟩
  skip _ h := by
    refine ⟨?_, fun hs => h.known (Registry.knows_of_knows_claim hs), h.3⟩
    rw [Registry.claim_nextId]
    exact h.1
  call _ _ h := by
    refine ⟨?_, fun hs => h.known (Registry.knows_of_knows_claim hs), fun hc hid => ?_⟩
    · rw [Registry.claim_nextId]
      exact h.1
    · rw [calls_handed] at hc
      rcases List.mem_cons.mp hc with rfl | hc
      · exact h.known (.inr List.mem_cons_self) hid
      · exact h.called hc hid

/-- **At every moment of a run the roster is orderly, and the story fits to it.** -/
theorem inOrder_moment {react : React σ ε} {limit : Nat} {cs : List (Command ε)}
    {settings : SlotSettings} {source : σ} {m : Switchboard σ ε}
    (h : Moment S react limit cs (fresh settings source) m) :
    InOrder m.registry m.running.flatten (story m.trace) :=
  h.reaches.inOrder

end Switchboard

end SlotWatch

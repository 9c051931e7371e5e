import SlotWatch.Proofs.Phone
import SlotWatch.Proofs.RollBoard

/-!
# SlotWatch.Proofs.RollCall

Simulations do what their rolls say: every step of a script has the outcome that it has on
the roll, as long as no connection is lost.
-/

namespace SlotWatch

namespace Roll

open Switchboard Simulation

section
variable {pr : Premises} {roll : Roll} {b : Switchboard Phone Phone.Control} {s : Simulation}

/-! ## steps -/

/-- What is put on record in the end tells of no delivery. -/
theorem Answers.did {onBoard : Outcome Phone × Switchboard Phone Phone.Control}
    {result : Except Failure (List Delivery × Roll)} (h : Answers pr roll b onBoard result)
    (c : Command Phone.Control) :
    Answers pr roll b (onBoard.1, onBoard.2.note (.did none c onBoard.1)) result := by
  cases result with
  | error e =>
      obtain ⟨hfailure, hheard, hboard⟩ := h
      exact ⟨hfailure, hheard, hboard.congr rfl hboard.phone⟩
  | ok result =>
      obtain ⟨hfailure, hheard, hmentioned, hboard⟩ := h
      exact ⟨hfailure, hheard, hmentioned, hboard.congr rfl hboard.phone⟩

/-- To mention a listener changes no entry. -/
theorem Describes.mention (h : roll.Describes pr b) (step : Step) :
    (roll.mention step).Describes pr b := by
  cases step with
  | subscribe => exact ⟨h.terms_eq, h.defaultSlot_eq, h.slotCount_eq, h.phone.congr rfl rfl⟩
  | _ => exact h

/-- Whether a roll describes a simulation. -/
structure Guides (pr : Premises) (roll : Roll) (s : Simulation) : Prop where
  reaches : ∃ settings phone, Reaches Phone.source (Switchboard.fresh settings phone) s.board
  board : roll.Describes pr s.board
  known_iff (listener) : s.known.contains listener = true ↔ listener ∈ roll.mentioned

/-- A listener that was mentioned is struck for the kind, and all are if none is named. -/
theorem answers_unsubscribe (h : roll.Guides pr s) (event : String) (listener : Option String) :
    Answers pr roll s.board
      (s.board.attempt Phone.source call
        ⟨Step.action (.unsubscribe event listener), s.request (.unsubscribe event listener)⟩)
      (roll.respond pr (.unsubscribe event listener)) := by
  have hkind : Answers pr roll s.board
      (answered .count (s.board.unsubscribe Phone.source event listener))
      (do
        let kind ← kindOf event
        return ([], roll.strike kind listener)) := by
    simp only [Switchboard.unsubscribe, kindOf]
    cases Named.ofName? Kind event with
    | none => exact ⟨rfl, rfl, h.board⟩
    | some kind => exact answers_remove h.board kind listener
  cases listener with
  | none => exact hkind
  | some listener =>
      simp only [attempt, request, respond, checkMentioned]
      by_cases hknown : listener ∈ roll.mentioned
      · rw [if_pos ((h.known_iff listener).mpr hknown), if_pos hknown]
        exact hkind
      · rw [if_neg (mt (h.known_iff listener).mp hknown), if_neg hknown]
        exact ⟨rfl, rfl, h.board⟩

/-- Each step is answered as on the roll. -/
theorem answers_carryOut (h : roll.Guides pr s) {step : Step}
    (hstep : ∀ connected, step ≠ .setConnected connected) :
    Answers pr (roll.mention step) s.board (s.carryOut step)
      ((roll.mention step).respond pr step) := by
  obtain ⟨settings, phone, hreach⟩ := h.reaches
  have hsound := hreach.sound
  have hboard := h.board.mention step
  have hattempt : Answers pr (roll.mention step) s.board
      (s.board.attempt Phone.source call ⟨step.action, s.request step⟩)
      ((roll.mention step).respond pr step) := by
    cases step with
    | subscribe event listener options once =>
        simp only [attempt, request, perform, subscribe, respond, kindOf]
        cases Named.ofName? Kind event with
        | none => exact ⟨rfl, rfl, hboard⟩
        | some kind => exact answers_place hboard hsound kind listener options once
    | unsubscribe event listener => exact answers_unsubscribe h event listener
    | publish slot q =>
        simp only [attempt, request, perform, h.board.defaultSlot_eq]
        exact answers_update hboard hreach slot q
    | setDefaultSlot slot => exact answers_setDefault hboard hsound slot
    | grant permission =>
        have hphone := hboard.phone.grant permission
        exact ⟨rfl, rfl, rfl, hboard.withPhone hphone rfl rfl⟩
    | revoke permission =>
        have hphone := hboard.phone.revoke permission
        exact ⟨rfl, rfl, rfl, hboard.withPhone hphone rfl rfl⟩
    | setConnected connected => exact absurd rfl (hstep connected)
  exact hattempt.did _

/-- A simulation knows the listeners that the roll has mentioned. -/
theorem mem_knownAfter (h : roll.Guides pr s) (step : Step) (listener : String) :
    (s.knownAfter step).contains listener = true ↔
      listener ∈ (roll.mention step).mentioned := by
  cases step with
  | subscribe event l options once =>
      simp only [knownAfter, mention, Finset.mem_insert, ← h.known_iff]
      by_cases hl : s.known.contains l = true
      · rw [if_pos hl]
        refine ⟨.inr, ?_⟩
        rintro (rfl | hlistener)
        · exact hl
        · exact hlistener
      · rw [if_neg hl, List.contains_cons, Bool.or_eq_true, beq_iff_eq]
  | _ => exact h.known_iff listener

/-- **A step is answered as on the roll.** -/
theorem Guides.take (h : roll.Guides pr s) {step : Step}
    (hstep : ∀ connected, step ≠ .setConnected connected) (index : Nat) :
    (s.take index step).1 = (roll.take pr index step).1 ∧
      (roll.take pr index step).2.Guides pr (s.take index step).2 := by
  have hanswers := answers_carryOut h hstep
  have hknown := mem_knownAfter h step
  have hsuffix := (reaches_carryOut s step).suffix
  have hreaches : ∃ settings phone,
      Reaches Phone.source (Switchboard.fresh settings phone) (s.carryOut step).2 := by
    obtain ⟨settings, phone, hreach⟩ := h.reaches
    exact ⟨settings, phone, hreach.trans (reaches_carryOut s step)⟩
  rw [take_eq, Roll.take]
  revert hanswers
  cases (roll.mention step).respond pr step with
  | error e =>
      rintro ⟨hfailure, hheard, hboard⟩
      have hnone : heard (s.carryOut step).2.trace =
          ([] : List Delivery).reverse ++ heard s.board.trace := hheard
      rw [hfailure, deliveries_since hsuffix hnone]
      exact ⟨rfl, hreaches, hboard, hknown⟩
  | ok result =>
      rintro ⟨hfailure, hheard, hmentioned, hboard⟩
      rw [hfailure, deliveries_since hsuffix hheard]
      refine ⟨rfl, hreaches, hboard, fun listener => ?_⟩
      rw [hmentioned]
      exact hknown listener

/-- As each step is answered as on the roll, all are. -/
theorem Guides.takeAll (h : roll.Guides pr s) {steps : List Step}
    (hsteps : ∀ connected, .setConnected connected ∉ steps) (index : Nat) :
    (s.takeAll index steps).1 = (roll.takeAll pr index steps).1 ∧
      (roll.takeAll pr index steps).2.Guides pr (s.takeAll index steps).2 := by
  induction steps generalizing s roll index with
  | nil => exact ⟨rfl, h⟩
  | cons step steps ih =>
      have hstep : ∀ connected, step ≠ .setConnected connected := by
        rintro connected rfl
        exact hsteps connected List.mem_cons_self
      obtain ⟨houtcome, hafter⟩ := h.take hstep index
      obtain ⟨houtcomes, hend⟩ := ih hafter
        (fun connected hmem => hsteps connected (List.mem_cons_of_mem _ hmem)) (index + 1)
      simp only [Simulation.takeAll, Roll.takeAll, houtcome, houtcomes]
      exact ⟨trivial, hend⟩

/-- What a report says of the registrations: what they are made for, and which slots are
observed on their behalf. -/
theorem Guides.registrations_eq (h : roll.Guides pr s) :
    s.board.registry.live.map (fun r => (r.terms, r.observed)) =
      roll.entries.map fun e => (e.terms, e.slot roll.defaultSlot) := by
  obtain ⟨settings, phone, hreach⟩ := h.reaches
  let complete : Kind × Option Slot × Callback × Mode → _ × Slot := fun t =>
    (t, t.2.1.getD roll.defaultSlot)
  have hlive : s.board.registry.live.map (fun r => (r.terms, r.observed)) =
      s.board.registry.live.map (complete ∘ Registration.terms) := by
    refine List.map_congr_left fun r hr => Prod.ext rfl ?_
    have hobserved := hreach.sound.observed_eq hr
    rwa [h.board.defaultSlot_eq] at hobserved
  rw [hlive, ← List.map_map, h.board.terms_eq, List.map_map]
  rfl

end

/-! ## scripts -/

/-- A phone begins with the permissions of the roll. -/
theorem backs_withGrants (settings : SlotSettings) (clock : String) (systemApp : Bool)
    (grants : List String) :
    (Phone.withGrants clock systemApp grants).Backs ⟨settings.slotCount, systemApp⟩
      (blank settings grants) := by
  have hholds := Phone.holds_withGrants clock systemApp grants
  obtain ⟨granted, hphone⟩ := Phone.withGrants_eq clock systemApp grants
  rw [hphone] at hholds ⊢
  refine ⟨rfl, rfl, fun permission => ?_, Cache.sorted_nil, fun slot => rfl⟩
  rw [hholds, List.contains_iff_mem]
  simp [blank]

/-- A blank roll describes a simulation at its beginning. -/
theorem guides_fresh (settings : SlotSettings) (clock : String) (systemApp : Bool)
    (grants : List String) :
    (blank settings grants).Guides ⟨settings.slotCount, systemApp⟩
      (Simulation.fresh settings (.withGrants clock systemApp grants)) where
  reaches := ⟨settings, .withGrants clock systemApp grants, .refl⟩
  board := ⟨rfl, rfl, rfl, backs_withGrants settings clock systemApp grants⟩
  known_iff listener := by simp [Simulation.fresh, blank]

/-- **A replay goes as on a roll**, whatever the settings, the permissions and the script, as
long as no connection is lost.

* Every step has the outcome that it has on the roll: the same failure or none, and the same
  deliveries.
* In the end the live registrations are made for the entries of the roll, in their order,
  and each observes the slot that its entry stands for.
* The default slot, the permissions, the listeners that have been mentioned and the last
  data connections are those of the roll. -/
theorem replay_by_roll (settings : SlotSettings) (clock : String) (systemApp : Bool)
    (grants : List String) {script : Script}
    (h : ∀ connected, .setConnected connected ∉ script.steps) :
    let replayed := (Simulation.fresh settings (.withGrants clock systemApp grants)).replay script
    let called := (blank settings grants).takeAll ⟨settings.slotCount, systemApp⟩ 0 script.steps
    replayed.1.steps = called.1 ∧
      replayed.1.registrations.map (fun r => (r.terms, r.observed)) =
        called.2.entries.map (fun e => (e.terms, e.slot called.2.defaultSlot)) ∧
      replayed.2.board.registry.defaultSlot = called.2.defaultSlot ∧
      (∀ permission, replayed.2.board.source.holds permission = true ↔
        permission ∈ called.2.granted) ∧
      (∀ listener, replayed.2.known.contains listener = true ↔
        listener ∈ called.2.mentioned) ∧
      ∀ slot, (replayed.2.board.source.state slot).dataConnection = called.2.connections slot := by
  obtain ⟨houtcomes, hend⟩ := (guides_fresh settings clock systemApp grants).takeAll h 0
  exact ⟨houtcomes, hend.registrations_eq, hend.board.defaultSlot_eq, hend.board.phone.holds_iff,
    hend.known_iff, hend.board.phone.connection_eq⟩

/-! ### a sample script

A display hears of one call, and a log of all calls on the default slot, which moves.  The
log may not hear of voice mail, and a desk has never been mentioned. -/

namespace Sample

def ringing (slot : Option Slot) : Step := .publish slot (.callState ⟨.ringing, "100"⟩)

def script : Script :=
  ⟨[.subscribe "callStateChange" "display" none true,
    .subscribe "callStateChange" "log" none false,
    ringing none, .setDefaultSlot 1, ringing (some 0), ringing (some 1),
    .subscribe "voiceMailMsgIndicatorChange" "log" none false,
    .unsubscribe "callStateChange" (some "desk")]⟩

def called : List StepOutcome × Roll := (blank {} []).takeAll ⟨2, false⟩ 0 script.steps

end Sample

/-- The display is told once, and the log of both calls on the default slot. -/
theorem replay_by_roll_sample :
    (∀ connected, .setConnected connected ∉ Sample.script.steps) ∧
      Sample.called.1.map (·.deliveries.map (·.listener)) =
        [[], [], ["display", "log"], [], [], ["log"], [], []] ∧
      Sample.called.1.map (·.failure) =
        [none, none, none, none, none, none, some (.reservedForSystem .voiceMail),
          some (.unknownListener "desk")] ∧
      ((Simulation.fresh {} (.withGrants "now" false [])).replay Sample.script).1.steps =
        Sample.called.1 :=
  have h : ∀ connected, .setConnected connected ∉ Sample.script.steps := by decide
  ⟨h, by decide, by decide, (replay_by_roll {} "now" false [] h).1⟩

end Roll

end SlotWatch

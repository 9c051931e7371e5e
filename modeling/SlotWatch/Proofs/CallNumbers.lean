import SlotWatch.Proofs.Phone
import SlotWatch.Proofs.Replaying

/-!
# SlotWatch.Proofs.CallNumbers

Call numbers are for those who may read the call log.

A phone remembers the numbers of calls, whether or not its application may read the call
log.  What becomes of a replay does not depend on those that it may not read:

1. what the phone answers to requests and what it tells of reports can be worked out
   without them (`Phone.veiled`);
2. so two simulations that differ in them only still do after a step that gives the phone
   two different numbers while the application may not read the call log
   (`Simulation.Twin.take`);
3. so two scripts that are the same to whom knows a number only if the application may read
   it (`Script.conceal`) have the same report, but for the numbers that are remembered.
-/

namespace SlotWatch

/-! ## what there is without numbers -/

namespace Payload

/-- The payload for those who may not read the call log. -/
def masked : Payload → Payload
  | .callState c => .callState c.masked
  | p => p

theorem kind_masked (p : Payload) : p.masked.kind = p.kind := by
  cases p <;> rfl

end Payload

namespace SlotState

/-- What is known of a slot, without the number of the call and the time of the last
report, of which is only told whether there is one. -/
def veiled (s : SlotState) : SlotState :=
  { s with call := s.call.map State.Call.masked, updatedAt := s.updatedAt.map fun _ => "" }

/-- A report is remembered without the number as it would be masked. -/
theorem veiled_put (s : SlotState) (p : Payload) (time : String) :
    veiled { s.put p with updatedAt := some time } =
      { s.veiled.put p.masked with updatedAt := some "" } := by
  cases p <;> rfl

end SlotState

namespace Cache

/-- What is known of the slots without numbers and times. -/
def veiled (c : Cache) : Cache := c.map fun (slot, s) => (slot, s.veiled)

/-- Slots are altered alike, with a veil or without. -/
theorem veiled_alter {f g : SlotState → SlotState} (h : ∀ s, (f s).veiled = g s.veiled)
    (slot : Slot) (c : Cache) : veiled (c.alter slot f) = alter slot g c.veiled := by
  have hnew : (f {}).veiled = g {} := h {}
  induction c with
  | nil => simp [alter, veiled, hnew]
  | cons entry rest ih =>
      obtain ⟨t, s⟩ := entry
      simp only [veiled, List.map_cons, alter] at ih ⊢
      split
      · simp [h]
      · split
        · simp [hnew]
        · simp [ih]

theorem lookup_veiled (c : Cache) (slot : Slot) :
    c.veiled.lookup slot = (c.lookup slot).map SlotState.veiled := by
  induction c with
  | nil => rfl
  | cons entry rest ih =>
      obtain ⟨t, s⟩ := entry
      simp only [veiled, List.map_cons, List.lookup_cons] at ih ⊢
      cases slot == t <;> simp [ih]

end Cache

namespace Phone

/-- A phone without numbers and times. -/
def veiled (p : Phone) : Phone := { p with cache := p.cache.veiled, clock := "" }

@[simp] theorem veiled_holds (p : Phone) (permission : String) :
    p.veiled.holds permission = p.holds permission := rfl

/-- A phone answers requests without looking at numbers and times. -/
theorem veiled_answer (request : Request) (feed : Feed) (p : Phone) :
    Phone.source.answer request feed p.veiled =
      ((Phone.source.answer request feed p).1, (Phone.source.answer request feed p).2.veiled) := by
  have haccess : p.veiled.access feed.2 = p.access feed.2 := rfl
  have hconnected : p.veiled.connected = p.connected := rfl
  cases request with
  | start =>
      simp only [Source.answer, source, start, hconnected, haccess]
      cases p.connected with
      | false => rfl
      | true =>
          cases p.access feed.2 with
          | error e => rfl
          | ok => rfl
  | stop =>
      simp only [Source.answer, source, stop, hconnected]
      cases p.connected with
      | false => rfl
      | true => rfl

/-- A request changes no permission. -/
theorem holds_answer (request : Request) (feed : Feed) (p : Phone) (permission : String) :
    (Phone.source.answer request feed p).2.holds permission = p.holds permission := by
  cases request with
  | start =>
      simp only [Source.answer, source, start]
      split
      · rfl
      · split <;> rfl
  | stop =>
      simp only [Source.answer, source, stop]
      split <;> rfl

theorem veiled_grant (p : Phone) (permission : String) :
    (p.grant permission).veiled = p.veiled.grant permission := by
  unfold grant
  rw [veiled_holds]
  split <;> rfl

/-- Phones with the same permissions are the same without their clocks. -/
theorem veiled_withGrants (clock : String) (systemApp : Bool) (grants : List String) :
    (withGrants clock systemApp grants).veiled = withGrants "" systemApp grants := by
  have hfold (p : Phone) : (grants.foldl (fun p permission => p.grant permission) p).veiled =
      grants.foldl (fun p permission => p.grant permission) p.veiled := by
    induction grants generalizing p with
    | nil => rfl
    | cons permission grants ih => rw [List.foldl_cons, List.foldl_cons, ih, veiled_grant]
  exact hfold { clock, systemApp }

/-! ## reports -/

theorem veiled_state (p : Phone) (slot : Slot) : p.veiled.state slot = (p.state slot).veiled := by
  have hlookup := p.cache.lookup_veiled slot
  unfold state
  change (p.cache.veiled.lookup slot).getD {} = _
  rw [hlookup]
  cases p.cache.lookup slot <;> rfl

/-- Whether a report says nothing new does not depend on a number. -/
theorem veiled_repeats (p : Phone) (slot : Slot) (q : Payload) :
    p.veiled.repeats slot q.masked = p.repeats slot q := by
  have hdata : (p.veiled.state slot).dataConnection = (p.state slot).dataConnection := by
    rw [veiled_state]
    rfl
  cases q <;> first | rfl | simp [repeats, Payload.masked, hdata]

/-- A report without its number is remembered without it. -/
theorem veiled_remember (p : Phone) (slot : Slot) (q : Payload) :
    (p.remember slot q).veiled = p.veiled.remember slot q.masked := by
  have halter := Cache.veiled_alter
    (f := fun s => { s.put q with updatedAt := some p.clock })
    (g := fun s => { s.put q.masked with updatedAt := some "" })
    (fun s => s.veiled_put q p.clock) slot p.cache
  simp only [veiled, remember, halter]

/-- What is the same to those who may read the call log, or may not. -/
def Same (may : Bool) (q q' : Payload) : Prop :=
  if may then q' = q else q'.masked = q.masked

/-- Payloads that are the same to someone differ in a number at most. -/
theorem Same.masked_eq {may : Bool} {q q' : Payload} (h : Same may q q') :
    q'.masked = q.masked := by
  unfold Same at h
  split at h
  · rw [h]
  · exact h

theorem Same.refl (may : Bool) (q : Payload) : Same may q q := by
  unfold Same
  split <;> rfl

/-- Phones that are the same without numbers and times, whose applications may read the
call log, or may not. -/
structure Veiled (may : Bool) (p p' : Phone) : Prop where
  veiled_eq : p'.veiled = p.veiled
  holds_eq : p.holds Permission.readCallLog = may

/-- Whoever may not read the call log is told no number. -/
theorem disclose_of_same {p : Phone} {q q' : Payload}
    (h : Same (p.holds Permission.readCallLog) q q') : p.disclose q' = p.disclose q := by
  cases hmay : p.holds Permission.readCallLog with
  | true =>
      simp only [Same, hmay, if_true] at h
      rw [h]
  | false =>
      have hmasked (q : Payload) : p.disclose q = q.masked := by
        cases q <;> simp [disclose, Payload.masked, hmay]
      rw [hmasked, hmasked, h.masked_eq]

/-- A phone answers requests alike if it is the same without numbers and times. -/
theorem respects_veiled (may : Bool) : Phone.source.Respects (Veiled may) := by
  intro request feed p p' h
  have hanswer := veiled_answer request feed p'
  rw [h.veiled_eq, veiled_answer] at hanswer
  obtain ⟨hsame, hveiled⟩ := Prod.mk.inj hanswer
  exact ⟨hsame.symm, hveiled.symm, by rw [holds_answer, h.holds_eq]⟩

/-- With the permission for the call log it may be read from then on. -/
theorem Veiled.grant {may : Bool} {p p' : Phone} (h : Veiled may p p') (permission : String) :
    Veiled (may || permission == Permission.readCallLog) (p.grant permission)
      (p'.grant permission) where
  veiled_eq := by rw [veiled_grant, veiled_grant, h.veiled_eq]
  holds_eq := by rw [holds_grant, h.holds_eq]

/-- Without the permission for the call log it may not be read from then on. -/
theorem Veiled.revoke {may : Bool} {p p' : Phone} (h : Veiled may p p') (permission : String) :
    Veiled (may && permission != Permission.readCallLog) (p.revoke permission)
      (p'.revoke permission) where
  veiled_eq := congrArg (Phone.revoke permission) h.veiled_eq
  holds_eq := by rw [holds_revoke, h.holds_eq]

theorem Veiled.setConnected {may : Bool} {p p' : Phone} (h : Veiled may p p')
    (connected : Bool) : Veiled may { p with connected } { p' with connected } where
  veiled_eq := congrArg (fun p => { p with connected }) h.veiled_eq
  holds_eq := h.holds_eq

/-- Reports that are the same to the application are told alike. -/
theorem Veiled.report {may : Bool} {p p' : Phone} (h : Veiled may p p') {q q' : Payload}
    (hq : Same may q q') (slot : Slot) :
    (p'.report slot q').1 = (p.report slot q).1 ∧
      Veiled may (p.report slot q).2 (p'.report slot q').2 := by
  have hrepeats : p'.repeats slot q' = p.repeats slot q := by
    rw [← veiled_repeats, ← veiled_repeats p, h.veiled_eq, hq.masked_eq]
  have hdisclose : p'.disclose q' = p.disclose q := by
    have hveiled : p'.veiled.disclose q' = p.veiled.disclose q' := by rw [h.veiled_eq]
    rw [← h.holds_eq] at hq
    exact hveiled.trans (disclose_of_same hq)
  have hremember : (p'.remember slot q').veiled = (p.remember slot q).veiled := by
    rw [veiled_remember, veiled_remember, h.veiled_eq, hq.masked_eq]
  unfold Phone.report
  rw [hrepeats, hdisclose]
  split
  · exact ⟨rfl, h⟩
  · exact ⟨rfl, hremember, h.holds_eq⟩

end Phone

/-! ## steps -/

namespace Step

/-- A step for those who may not read the call log. -/
def masked : Step → Step
  | .publish slot p => .publish slot p.masked
  | step => step

/-- Whether the call log may be read after a step. -/
def mayRead (may : Bool) : Step → Bool
  | .grant permission => may || permission == Permission.readCallLog
  | .revoke permission => may && permission != Permission.readCallLog
  | _ => may

/-- A step for those who may read the call log, or may not. -/
def conceal (may : Bool) (step : Step) : Step :=
  if may then step else step.masked

/-- Steps that are the same to the application are the same, but for the payload of a
publish. -/
theorem conceal_eq {may : Bool} {step step' : Step}
    (h : step'.conceal may = step.conceal may) :
    step' = step ∨ ∃ slot q q', step = .publish slot q ∧ step' = .publish slot q' ∧
      Phone.Same may q q' := by
  cases may with
  | true => exact .inl h
  | false =>
      have hmasked : step'.masked = step.masked := h
      cases step <;> cases step' <;> simp only [masked, reduceCtorEq] at hmasked <;>
        first | exact .inl hmasked | skip
      next slot q slot' q' =>
        obtain ⟨rfl, hq⟩ := Step.publish.inj hmasked
        exact .inr ⟨slot', q, q', rfl, rfl, hq⟩

/-- Who may read the call log after a step is told by the step without numbers. -/
theorem mayRead_eq {may : Bool} {step step' : Step}
    (h : step'.conceal may = step.conceal may) : step'.mayRead may = step.mayRead may := by
  rcases conceal_eq h with rfl | ⟨slot, q, q', rfl, rfl, -⟩ <;> rfl

end Step

namespace Script

/-- The steps of a script as they are to whom knows the number of a call only if the
application may read the call log when it is reported. -/
def conceal (may : Bool) : List Step → List Step
  | [] => []
  | step :: steps => step.conceal may :: conceal (step.mayRead may) steps

end Script

namespace Simulation

open Switchboard

/-- Simulations that differ in nothing but the numbers and times that are remembered. -/
structure Twin (may : Bool) (s s' : Simulation) : Prop where
  board : Matched (Phone.Veiled may) s.board s'.board
  known_eq : s'.known = s.known

/-- Updates that are the same to the application. -/
theorem matched_update {may : Bool} {b b' : Switchboard Phone Phone.Control}
    (h : Matched (Phone.Veiled may) b b') {q q' : Payload} (hq : Phone.Same may q q')
    (slot : Slot) :
    Agree (Phone.Veiled may) (b.update Phone.source call slot q)
      (b'.update Phone.source call slot q') := by
  have hkind : q'.kind = q.kind := by
    rw [← q'.kind_masked, hq.masked_eq, q.kind_masked]
  unfold update
  rw [hkind, h.registry_eq]
  by_cases hicc : q.kind = .iccAccount
  · have hsame : q' = q := by
      cases q <;> simp only [Payload.kind, reduceCtorEq] at hicc
      cases q' <;> simp_all [Payload.kind]
    rw [if_pos hicc, if_pos hicc, hsame]
    exact h.publish matched_call (Phone.respects_veiled may) _ _ _
  rw [if_neg hicc, if_neg hicc]
  cases b.registry.validateSlot q.kind slot with
  | error e => exact ⟨rfl, h⟩
  | ok =>
      obtain ⟨hnews, hsource⟩ := h.source.report hq slot
      have hreport : Agree (Phone.Veiled may) (b.report Phone.source slot q)
          (b'.report Phone.source slot q') :=
        ⟨hnews, (h.withSource hsource).note rfl⟩
      simp only
      revert hreport
      rcases b.report Phone.source slot q with ⟨news, c⟩
      rcases b'.report Phone.source slot q' with ⟨news', c'⟩
      rintro ⟨hnews, hc⟩
      cases hnews
      cases news with
      | none => exact ⟨rfl, hc⟩
      | some q => exact hc.publish matched_call (Phone.respects_veiled may) _ _ _

/-- What is asked of the phones themselves. -/
theorem agree_control {may may' : Bool} {b b' : Switchboard Phone Phone.Control}
    (h : Matched (Phone.Veiled may) b b') {control : Phone.Control} {p p' : Phone}
    (hp : b.source.control (σ := Phone) control = (.ok .done, p))
    (hp' : b'.source.control (σ := Phone) control = (.ok .done, p'))
    (hv : Phone.Veiled may' p p') :
    Agree (Phone.Veiled may')
      (b.perform Phone.source call (.source control))
      (b'.perform Phone.source call (.source control)) := by
  have hact (p : Phone) : Phone.source.act control p = p.control control := rfl
  simp only [perform, hact, hp, hp']
  exact ⟨rfl, h.withSource hv⟩

/-- What the two simulations are asked for. -/
theorem agree_attempt {may : Bool} {s s' : Simulation} (h : Twin may s s') {step step' : Step}
    (hstep : step'.conceal may = step.conceal may) :
    Agree (Phone.Veiled (step.mayRead may))
      (s.board.attempt Phone.source call ⟨step.action, s.request step⟩)
      (s'.board.attempt Phone.source call
        ⟨step'.action, s'.request step'⟩) := by
  have hS := Phone.respects_veiled may
  have hdefault : s'.board.registry.defaultSlot = s.board.registry.defaultSlot := by
    rw [h.board.registry_eq]
  rcases Step.conceal_eq hstep with rfl | ⟨slot, q, q', rfl, rfl, hq⟩
  · cases step' with
    | subscribe event listener options once =>
        exact (h.board.subscribe hS event listener options _).answered
    | unsubscribe event listener =>
        cases listener with
        | none => exact (h.board.unsubscribe hS event none).answered
        | some listener =>
            simp only [attempt, request, h.known_eq]
            by_cases hknown : s.known.contains listener = true
            · simp only [if_pos hknown]
              exact (h.board.unsubscribe hS event (some listener)).answered
            · simp only [if_neg hknown]
              exact ⟨rfl, h.board⟩
    | publish slot q =>
        simp only [attempt, request, perform, hdefault]
        exact (matched_update h.board (Phone.Same.refl may q) _).answered
    | setDefaultSlot slot => exact (h.board.setDefault hS slot).answered
    | grant permission => exact agree_control h.board rfl rfl (h.board.source.grant permission)
    | revoke permission => exact agree_control h.board rfl rfl (h.board.source.revoke permission)
    | setConnected connected =>
        exact agree_control h.board rfl rfl (h.board.source.setConnected connected)
  · simp only [attempt, request, perform, hdefault]
    exact (matched_update h.board hq _).answered

/-- Deliveries are read off the deeds. -/
theorem deliveries_eq_deeds (events : List (Event Phone Phone.Control)) :
    deliveries events =
      (events.map Event.deed?).filterMap fun deed => deed.bind Event.delivery? := by
  rw [deliveries_eq, List.filterMap_map]
  refine List.filterMap_congr fun e _ => ?_
  cases e <;> rfl

/-- **A step tells no number that the application may not read.** -/
theorem Twin.take {may : Bool} {s s' : Simulation} (h : Twin may s s') {step step' : Step}
    (hstep : step'.conceal may = step.conceal may) (index : Nat) :
    (s'.take index step').1 = (s.take index step).1 ∧
      Twin (step.mayRead may) (s.take index step).2 (s'.take index step').2 := by
  obtain ⟨houtcome, hafter⟩ := agree_attempt h hstep
  have hsame : (s'.carryOut step').1 = (s.carryOut step).1 := houtcome
  have hboard : Matched (Phone.Veiled (step.mayRead may)) (s.carryOut step).2
      (s'.carryOut step').2 := hafter.note rfl
  have haction : step'.action = step.action := by
    rcases Step.conceal_eq hstep with rfl | ⟨slot, q, q', rfl, rfl, -⟩ <;> rfl
  have hknown : s'.knownAfter step' = s.knownAfter step := by
    rcases Step.conceal_eq hstep with rfl | ⟨slot, q, q', rfl, rfl, -⟩
    · simp only [knownAfter, h.known_eq]
    · exact h.known_eq
  have hdeliveries : deliveries (s'.board.since (s'.carryOut step').2) =
      deliveries (s.board.since (s.carryOut step).2) := by
    rw [deliveries_eq_deeds, deliveries_eq_deeds, h.board.since_eq hboard]
  rw [take_eq, take_eq, haction, hsame, hdeliveries]
  exact ⟨rfl, hboard, hknown⟩

/-- All steps of two scripts that are the same to the application. -/
theorem Twin.takeAll {may : Bool} {s s' : Simulation} (h : Twin may s s')
    {steps steps' : List Step} (hsteps : Script.conceal may steps' = Script.conceal may steps)
    (index : Nat) :
    (s'.takeAll index steps').1 = (s.takeAll index steps).1 ∧
      ∃ may', Twin may' (s.takeAll index steps).2 (s'.takeAll index steps').2 := by
  induction steps generalizing may s s' steps' index with
  | nil =>
      cases steps' with
      | nil => exact ⟨rfl, may, h⟩
      | cons step' steps' => contradiction
  | cons step steps ih =>
      cases steps' with
      | nil => contradiction
      | cons step' steps' =>
          obtain ⟨hstep, hrest⟩ := List.cons.inj hsteps
          rw [Step.mayRead_eq hstep] at hrest
          obtain ⟨houtcome, hafter⟩ := h.take hstep index
          obtain ⟨houtcomes, hend⟩ := ih hafter hrest (index + 1)
          simp only [Simulation.takeAll, houtcome, houtcomes]
          exact ⟨trivial, hend⟩

/-! ## scripts -/

/-- Simulations in which nothing has happened yet differ in the time at most. -/
theorem twin_fresh (settings : SlotSettings) (clock clock' : String) (systemApp : Bool)
    (grants : List String) :
    Twin ((Phone.withGrants clock systemApp grants).holds Permission.readCallLog)
      (fresh settings (.withGrants clock systemApp grants))
      (fresh settings (.withGrants clock' systemApp grants)) where
  board := {
    registry_eq := rfl
    running_eq := rfl
    inboxes_eq := rfl
    nextChannel_eq := rfl
    source := ⟨(Phone.veiled_withGrants clock' systemApp grants).trans
      (Phone.veiled_withGrants clock systemApp grants).symm, rfl⟩
    deeds_eq := rfl }
  known_eq := rfl

/-- A script is followed with the permission that the phone holds. -/
theorem holds_take (s : Simulation) (index : Nat) (step : Step) :
    (s.take index step).2.board.source.holds Permission.readCallLog =
      step.mayRead (s.board.source.holds Permission.readCallLog) := by
  have hself : Twin (s.board.source.holds Permission.readCallLog) s s :=
    ⟨⟨rfl, rfl, rfl, rfl, ⟨rfl, rfl⟩, rfl⟩, rfl⟩
  exact (hself.take rfl index).2.board.source.holds_eq

/-- **Numbers of calls are not told to an application that may not read the call log.**
Two scripts are replayed for the same application, on phones with the same slots.  If they
are the same but for the numbers of calls that are reported while the application may not
read the call log, then

* every step has the same outcome: the same failure or none, and the same deliveries;
* the same registrations are left;
* the same is remembered of every slot, but for the number of the call and the time. -/
theorem call_numbers_not_told (settings : SlotSettings) (clock clock' : String)
    (systemApp : Bool) (grants : List String) {script script' : Script}
    (h : Script.conceal (grants.contains Permission.readCallLog) script'.steps =
      Script.conceal (grants.contains Permission.readCallLog) script.steps) :
    let report := ((fresh settings (.withGrants clock systemApp grants)).replay script).1
    let report' := ((fresh settings (.withGrants clock' systemApp grants)).replay script').1
    report'.steps = report.steps ∧ report'.registrations = report.registrations ∧
      report'.slots.veiled = report.slots.veiled := by
  have hfresh := twin_fresh settings clock clock' systemApp grants
  rw [Phone.holds_withGrants] at hfresh
  obtain ⟨houtcomes, may, hend⟩ := hfresh.takeAll h 0
  have hcache := congrArg Phone.cache hend.board.source.veiled_eq
  refine ⟨houtcomes, ?_, hcache⟩
  exact congrArg Registry.live hend.board.registry_eq

/-! ### a sample script

The application hears of a call, may not read the call log any more, hears of a second
call, and may read it again when a third call comes. -/

namespace Sample

def ringing (number : String) : Step := .publish none (.callState ⟨.ringing, number⟩)

/-- The second call has this number. -/
def calls (number : String) : Script :=
  ⟨[.subscribe "callStateChange" "screen" none false, ringing "100",
    .revoke Permission.readCallLog, ringing number,
    .grant Permission.readCallLog, ringing "300"]⟩

def replayed (number : String) : Report :=
  ((fresh {} (.withGrants "now" false [Permission.readCallLog])).replay (calls number)).1

end Sample

/-- The number of the second call was concealed, and the reports do not show it. -/
theorem call_numbers_not_told_second :
    Script.conceal true (Sample.calls "201").steps = Script.conceal true (Sample.calls "202").steps ∧
      (Sample.replayed "201").steps = (Sample.replayed "202").steps ∧
      (Sample.replayed "201").slots.veiled = (Sample.replayed "202").slots.veiled :=
  have h : Script.conceal ([Permission.readCallLog].contains Permission.readCallLog)
      (Sample.calls "201").steps =
        Script.conceal ([Permission.readCallLog].contains Permission.readCallLog)
          (Sample.calls "202").steps := by decide
  have hsame := call_numbers_not_told {} "now" "now" false [Permission.readCallLog] h
  ⟨by decide, hsame.1, hsame.2.2⟩

end Simulation

end SlotWatch

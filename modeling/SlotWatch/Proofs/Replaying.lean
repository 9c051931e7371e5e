import SlotWatch.Proofs.Delivery
import SlotWatch.Proofs.Matched
import SlotWatch.Replay.Simulation

/-!
# SlotWatch.Proofs.Replaying

How a step of a script is replayed.

1. A step is a command from outside (`Simulation.carryOut`), so a replay goes through
   boards that a run can reach.
2. What a step delivers is what it adds to what has been heard (`deliveries_since`).
3. The listeners of a simulation take payloads and do nothing else.  So a publish hands the
   payload to everyone it is for, and of the registry it changes nothing but that one-shots
   have left (`publish_call`).
-/

namespace SlotWatch

/-! ## what has been heard -/

/-- What a listener is handed when a registration is called. -/
def Registration.delivery? (r : Registration) (p : Payload) : Option Delivery :=
  r.callback.listener?.map fun listener => ⟨listener, p⟩

/-- What an event says a listener was handed. -/
def Event.delivery? : Event Phone Phone.Control → Option Delivery
  | .delivered r p => r.delivery? p
  | _ => none

/-- What listeners have been handed, latest first. -/
def heard (trace : List (Event Phone Phone.Control)) : List Delivery :=
  trace.filterMap Event.delivery?

theorem heard_story (trace : List (Event Phone Phone.Control)) :
    heard (story trace) = heard trace :=
  filterMap_story (fun e he => by cases e <;> first | rfl | contradiction) trace

namespace Simulation

open Switchboard

/-- The deliveries of a report are read off its events. -/
theorem deliveries_eq (events : List (Event Phone Phone.Control)) :
    deliveries events = events.filterMap Event.delivery? := by
  refine List.filterMap_congr fun e _ => ?_
  cases e <;> rfl

/-- What is delivered on the way from one board to a later one. -/
theorem deliveries_since {b m : Switchboard Phone Phone.Control} (h : b.trace <:+ m.trace)
    {ds : List Delivery} (hheard : heard m.trace = ds.reverse ++ heard b.trace) :
    deliveries (b.since m) = ds := by
  obtain ⟨events, hevents⟩ := h
  have hnew : m.trace.take (m.trace.length - b.trace.length) = events := by
    simp [← hevents]
  have hsame : heard events ++ heard b.trace = ds.reverse ++ heard b.trace := by
    rw [← hheard, ← hevents, heard, heard, heard, List.filterMap_append]
  have hds : events.filterMap Event.delivery? = ds.reverse := List.append_cancel_right hsame
  rw [deliveries_eq, since, hnew, List.filterMap_reverse, hds, List.reverse_reverse]

/-! ## steps -/

/-- The outcome of what a step asks for, and the board afterwards. -/
def carryOut (s : Simulation) (step : Step) :
    Outcome Phone × Switchboard Phone Phone.Control :=
  s.board.step Phone.source silent 0 ⟨step.action, s.request step⟩

theorem take_eq (s : Simulation) (index : Nat) (step : Step) :
    s.take index step =
      (⟨index, step.action, failure? (s.carryOut step).1,
          deliveries (s.board.since (s.carryOut step).2)⟩,
        ⟨(s.carryOut step).2, s.knownAfter step⟩) := rfl

/-- A step is a command from outside, whatever it asks for. -/
theorem reaches_carryOut (s : Simulation) (step : Step) :
    Reaches Phone.source s.board (s.carryOut step).2 :=
  (settles_obey (proper_hear Phone.source silent 0) none _ s.board).1

/-! ## listeners that do nothing -/

/-- Calling a listener that does nothing. -/
abbrev call : Invoke Phone Phone.Control := hear Phone.source silent 0

/-- To call a listener that does nothing is to hand it the payload. -/
theorem call_eq (r : Registration) (p : Payload) (b : Switchboard Phone Phone.Control) :
    (call r p b).2 = (b.hand r p).2 := by
  unfold call hear handOver
  simp only
  split <;> rfl

/-- A listener that does nothing does so on matched boards alike. -/
theorem matched_call {R : Phone → Phone → Prop} (r : Registration) (p : Payload)
    (b b' : Switchboard Phone Phone.Control) (h : Matched R b b') :
    Matched R (call r p b).2 (call r p b').2 := by
  rw [call_eq, call_eq]
  exact (h.hand r p).2

/-- The turn of a registration that may be called. -/
theorem turn_call {b : Switchboard Phone Phone.Control} {r : Registration} {p : Payload}
    (ha : r.id ∈ b.registry.armed) (hp : r.callback.accepts p = true)
    (rs : List Registration) :
    (b.turn call p r rs).2.registry = (b.registry.claim r).2 ∧
      heard (b.turn call p r rs).2.trace = (r.delivery? p).toList ++ heard b.trace := by
  have harmed := (comeTo_armed r rs b).mpr ha
  have halike := alike_hand r p (b.comeTo r rs).2
  rw [turn_of_armed call p harmed, call_eq, halike.registry, halike.trace]
  refine ⟨rfl, ?_⟩
  rw [note_trace, comeTo_trace, Registration.handed, if_pos hp, heard, heard,
    List.filterMap_cons]
  cases hd : r.delivery? p <;> simp [Event.delivery?, hd]

/-- Coming to registrations that may all be called. -/
theorem deliverAll_call {b : Switchboard Phone Phone.Control} {p : Payload}
    {rs : List Registration} (hnodup : (rs.map (·.id)).Nodup)
    (ha : ∀ r ∈ rs, r.id ∈ b.registry.armed)
    (hp : ∀ r ∈ rs, r.callback.accepts p = true) :
    (∃ waiting armed, (deliverAll call p rs b).2.registry =
        { b.registry with waiting, armed }) ∧
      heard (deliverAll call p rs b).2.trace =
        (rs.filterMap (·.delivery? p)).reverse ++ heard b.trace := by
  induction rs generalizing b with
  | nil => exact ⟨⟨b.registry.waiting, b.registry.armed, rfl⟩, rfl⟩
  | cons r rs ih =>
      obtain ⟨hnew, hrs⟩ := List.nodup_cons.mp hnodup
      obtain ⟨hregistry, hheard⟩ :=
        turn_call (ha r List.mem_cons_self) (hp r List.mem_cons_self) rs
      have harmed : ∀ s ∈ rs, s.id ∈ (b.turn call p r rs).2.registry.armed := by
        intro s hs
        have hne : s.id ≠ r.id := fun heq => hnew (List.mem_map.mpr ⟨s, hs, heq⟩)
        rw [hregistry, Registry.mem_armed_claim]
        exact ⟨ha s (List.mem_cons_of_mem r hs), fun _ => hne⟩
      obtain ⟨⟨waiting, armed, hothers⟩, hend⟩ :=
        ih hrs harmed fun s hs => hp s (List.mem_cons_of_mem r hs)
      unfold deliverAll
      constructor
      · refine ⟨waiting, armed, ?_⟩
        simp only [hothers, hregistry]
        unfold Registry.claim
        split <;> rfl
      · simp only [hend, hheard]
        cases hd : r.delivery? p <;> simp [hd]

/-- **Everyone is told.**  A publish that is in order hands the payload to every
registration that it is for, and takes the one-shots among them out of the live list. -/
theorem publish_call {settings : SlotSettings} {phone : Phone}
    {b : Switchboard Phone Phone.Control}
    (h : Reaches Phone.source (Switchboard.fresh settings phone) b)
    {kind : Kind} {slot : Option Slot} {p : Payload} (hp : Permitted b.registry kind slot p) :
    let place := slot.getD b.registry.defaultSlot
    let told := roster b.registry kind place
    (∃ n, (b.publish Phone.source call kind slot p).1 = .ok n) ∧
      heard (b.publish Phone.source call kind slot p).2.trace =
        (told.filterMap (·.delivery? p)).reverse ++ heard b.trace ∧
      ∃ waiting armed, (b.publish Phone.source call kind slot p).2.registry =
        { b.registry with
          live := b.registry.live.filter fun r => !b.registry.fires kind place r
          waiting, armed } := by
  intro place told
  have horderly := h.inOrder.1
  have hlive : told.Sublist b.registry.live := List.filter_sublist
  have hlaunched := launch_registry Phone.source kind place p b
  have hheard : heard (b.launch Phone.source kind place p).trace = heard b.trace := by
    rw [← heard_story, story_launch, ← heard_story b.trace]
    rfl
  obtain ⟨⟨waiting, armed, hregistry⟩, hend⟩ :=
    deliverAll_call (b := b.launch Phone.source kind place p) (p := p)
      (horderly.nodup_live.sublist (hlive.map _))
      (fun r hr => by
        rw [hlaunched]
        exact horderly.armed_of_live (hlive.subset hr))
      (fun r hr => by
        have hsuits := h.suited r (.inl (hlive.subset hr))
        have hkind := of_decide_eq_true (List.mem_filter.mp hr).2
        rw [hkind.1, ← hp.1] at hsuits
        exact Callback.accepts_of_suits hsuits)
  unfold publish
  rw [checkPublish_of_permitted hp]
  simp only [audience_eq]
  refine ⟨⟨_, rfl⟩, ?_, waiting, armed, ?_⟩
  · exact hend.trans (congrArg _ hheard)
  · exact hregistry.trans (by rw [hlaunched]; rfl)

end Simulation

end SlotWatch

import SlotWatch.Proofs.Registry
import SlotWatch.Proofs.Requests
import SlotWatch.Switchboard.Publishing

/-!
# SlotWatch.Proofs.Publishing

The parts of a publish, and what each does to the board: it begins (`launch`), comes to
what it has collected (`comeTo`, `turn`), hands over (`hand`) and ends (`land`).
-/

namespace SlotWatch

variable {σ ε : Type}

/-- What is put on the trace when a registration is called. -/
def Registration.handed (r : Registration) (p : Payload) : Event σ ε :=
  if r.callback.accepts p then .delivered r p else .mismatched r p

theorem isRequest_handed (r : Registration) (p : Payload) :
    (r.handed p : Event σ ε).isRequest = false := by
  unfold Registration.handed
  split <;> rfl

theorem grant?_handed (r : Registration) (p : Payload) (feed : Feed) :
    (r.handed p : Event σ ε).grant? feed = none := by
  unfold Registration.handed
  split <;> rfl

namespace Switchboard

variable (S : Source σ ε)

@[simp] theorem note_registry (b : Switchboard σ ε) (e : Event σ ε) :
    (b.note e).registry = b.registry := rfl

@[simp] theorem note_running (b : Switchboard σ ε) (e : Event σ ε) :
    (b.note e).running = b.running := rfl

@[simp] theorem note_trace (b : Switchboard σ ε) (e : Event σ ε) :
    (b.note e).trace = e :: b.trace := rfl

/-! ## beginning -/

/-- A publish has collected what it is for, and the source has not been told yet. -/
def gathered (kind : Kind) (slot : Slot) (p : Payload) (b : Switchboard σ ε) :
    Switchboard σ ε :=
  note
    { b with
      registry := (b.registry.collect kind slot).rest
      running := b.audience kind slot :: b.running }
    (.published kind slot p (b.audience kind slot))

@[simp] theorem gathered_registry (kind : Kind) (slot : Slot) (p : Payload)
    (b : Switchboard σ ε) :
    (b.gathered kind slot p).registry = (b.registry.collect kind slot).rest := rfl

@[simp] theorem gathered_running (kind : Kind) (slot : Slot) (p : Payload)
    (b : Switchboard σ ε) :
    (b.gathered kind slot p).running = b.audience kind slot :: b.running := rfl

@[simp] theorem gathered_trace (kind : Kind) (slot : Slot) (p : Payload)
    (b : Switchboard σ ε) :
    (b.gathered kind slot p).trace =
      .published kind slot p (b.audience kind slot) :: b.trace := rfl

/-- A publish begins by collecting, and then the source is told what was released. -/
theorem launch_eq (kind : Kind) (slot : Slot) (p : Payload) (b : Switchboard σ ε) :
    b.launch S kind slot p =
      ((b.gathered kind slot p).stopAll S (b.registry.collect kind slot).released).2 := rfl

/-- What the source answers at the beginning of a publish has no effect on it. -/
@[simp] theorem launch_registry (kind : Kind) (slot : Slot) (p : Payload)
    (b : Switchboard σ ε) :
    (b.launch S kind slot p).registry = (b.registry.collect kind slot).rest := by
  rw [launch_eq, stopAll_registry, gathered_registry]

/-- A publish that has begun is the innermost one. -/
@[simp] theorem launch_running (kind : Kind) (slot : Slot) (p : Payload)
    (b : Switchboard σ ε) :
    (b.launch S kind slot p).running = b.audience kind slot :: b.running := by
  rw [launch_eq, stopAll_running, gathered_running]

/-- The beginning of a publish is one event, apart from requests to the source. -/
theorem story_launch (kind : Kind) (slot : Slot) (p : Payload) (b : Switchboard σ ε) :
    story (b.launch S kind slot p).trace =
      .published kind slot p (b.audience kind slot) :: story b.trace := by
  rw [launch_eq, story_stopAll, gathered_trace, story_cons rfl]

theorem suffix_launch (kind : Kind) (slot : Slot) (p : Payload) (b : Switchboard σ ε) :
    b.trace <:+ (b.launch S kind slot p).trace := by
  rw [launch_eq]
  exact (List.suffix_cons _ _).trans (suffix_stopAll S _ (b.gathered kind slot p))

/-- An event is for registrations of its kind only. -/
theorem kind_of_mem_audience {b : Switchboard σ ε} {kind : Kind} {slot : Slot}
    {r : Registration} (h : r ∈ b.audience kind slot) : r.kind = kind := by
  have hears := (List.mem_filter.mp h).2
  simp only [Registration.hears, Bool.and_eq_true, beq_iff_eq] at hears
  exact hears.1

/-- A payload of another kind does not pass the check. -/
theorem kind_of_checkPublish {b : Switchboard σ ε} {kind : Kind} {slot : Option Slot}
    {p : Payload} (h : b.checkPublish kind slot p = .ok ()) : p.kind = kind := by
  by_contra hne
  unfold checkPublish at h
  rw [if_pos hne] at h
  contradiction

/-! ## coming to a registration -/

@[simp] theorem comeTo_registry (r : Registration) (rs : List Registration)
    (b : Switchboard σ ε) : (b.comeTo r rs).2.registry = (b.registry.claim r).2 := rfl

@[simp] theorem comeTo_trace (r : Registration) (rs : List Registration)
    (b : Switchboard σ ε) : (b.comeTo r rs).2.trace = b.trace := rfl

/-- Whoever a publish comes to is taken off what it has still to come to. -/
theorem comeTo_running {b : Switchboard σ ε} {r : Registration} {rs : List Registration}
    {rest : List (List Registration)} (hr : b.running = (r :: rs) :: rest) :
    (b.comeTo r rs).2.running = rs :: rest := by
  simp [comeTo, hr]

/-- An armed registration is called when its turn comes. -/
theorem turn_of_armed (invoke : Invoke σ ε) (p : Payload) {r : Registration}
    {rs : List Registration} {b : Switchboard σ ε} (ha : (b.comeTo r rs).1 = true) :
    b.turn invoke p r rs = (true, (invoke r p (b.comeTo r rs).2).2) := by
  simp [turn, ha]

/-- A registration that has been disarmed is passed over. -/
theorem turn_of_not_armed (invoke : Invoke σ ε) (p : Payload) {r : Registration}
    {rs : List Registration} {b : Switchboard σ ε} (ha : (b.comeTo r rs).1 = false) :
    b.turn invoke p r rs = (false, (b.comeTo r rs).2) := by
  simp [turn, ha]

end Switchboard

end SlotWatch

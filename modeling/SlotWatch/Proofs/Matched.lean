import SlotWatch.Proofs.Advance

/-!
# SlotWatch.Proofs.Matched

Two switchboards side by side.

A switchboard learns nothing of its source but the answers to requests and the news in
reports.  So if a relation `R` between the states of two sources is one that their answers
do not break (`Source.Respects`), two boards that agree in all but the sources, and have
sources that are so related (`Matched`), still do after either has been asked for the same:
the results are the same (`Agree`), and so is what happened, up to remarks.
-/

namespace SlotWatch

variable {σ ε : Type}

/-- An event, unless it is a remark. -/
def Event.deed? (e : Event σ ε) : Option (Event σ ε) :=
  if e.isRemark then none else some e

namespace Source

/-- Whether related states of a source answer alike, and stay related. -/
def Respects (S : Source σ ε) (R : σ → σ → Prop) : Prop :=
  ∀ request feed s s', R s s' →
    (S.answer request feed s').1 = (S.answer request feed s).1 ∧
      R (S.answer request feed s).2 (S.answer request feed s').2

end Source

namespace Switchboard

variable {S : Source σ ε} {R : σ → σ → Prop} {b b' : Switchboard σ ε}

/-- Boards that agree in all but their sources, which are related, and in remarks. -/
structure Matched (R : σ → σ → Prop) (b b' : Switchboard σ ε) : Prop where
  registry_eq : b'.registry = b.registry
  running_eq : b'.running = b.running
  inboxes_eq : b'.inboxes = b.inboxes
  nextChannel_eq : b'.nextChannel = b.nextChannel
  source : R b.source b'.source
  deeds_eq : b'.trace.map Event.deed? = b.trace.map Event.deed?

/-- The same result on matched boards. -/
def Agree {α : Type} (R : σ → σ → Prop) (x x' : α × Switchboard σ ε) : Prop :=
  x'.1 = x.1 ∧ Matched R x.2 x'.2

/-- The same result is put in the same words. -/
theorem Agree.answered {α : Type} {reply : α → Reply σ}
    {x x' : Except Failure α × Switchboard σ ε} (h : Agree R x x') :
    Agree R (answered reply x) (answered reply x') :=
  ⟨congrArg (Except.map reply) h.1, h.2⟩

namespace Matched

/-- Boards stay matched if the same is noted on both, or any remarks. -/
theorem note (h : Matched R b b') {e e' : Event σ ε} (he : e'.deed? = e.deed?) :
    Matched R (b.note e) (b'.note e') where
  registry_eq := h.registry_eq
  running_eq := h.running_eq
  inboxes_eq := h.inboxes_eq
  nextChannel_eq := h.nextChannel_eq
  source := h.source
  deeds_eq := by
    simp only [Switchboard.note, List.map_cons, he, h.deeds_eq]

/-- The sources change, and are related again. -/
theorem withSource (h : Matched R b b') {R' : σ → σ → Prop} {s s' : σ} (hs : R' s s') :
    Matched R' { b with source := s } { b' with source := s' } :=
  { h with source := hs }

/-- The registries become the same. -/
theorem withRegistry (h : Matched R b b') (g : Registry) :
    Matched R { b with registry := g } { b' with registry := g } :=
  { h with registry_eq := rfl }

/-! ## requests -/

section
variable (hS : S.Respects R)
include hS

/-- Related sources answer alike, so the request on the trace is the same. -/
theorem ask (h : Matched R b b') (request : Request) (feed : Feed) :
    Agree R (b.ask S request feed) (b'.ask S request feed) := by
  have hanswers := hS request feed b.source b'.source h.source
  unfold Switchboard.ask
  revert hanswers
  rcases S.answer request feed b.source with ⟨answer, s⟩
  rcases S.answer request feed b'.source with ⟨answer', s'⟩
  rintro ⟨hanswer, hs⟩
  cases hanswer
  exact ⟨rfl, (h.withSource hs).note rfl⟩

/-- As the answers agree, the first refusal is at the same feed. -/
theorem stopAll (h : Matched R b b') (feeds : List Feed) :
    Agree R (b.stopAll S feeds) (b'.stopAll S feeds) := by
  induction feeds generalizing b b' with
  | nil => exact ⟨rfl, h⟩
  | cons feed feeds ih =>
      have hask := h.ask hS .stop feed
      unfold Switchboard.stopAll
      revert hask
      rcases b.ask S .stop feed with ⟨o, c⟩
      rcases b'.ask S .stop feed with ⟨o', c'⟩
      rintro ⟨ho, hc⟩
      cases ho
      cases o with
      | ok => exact ih hc
      | error e => exact ⟨rfl, hc⟩

/-- The same starts are taken back on both boards. -/
theorem takeBack (h : Matched R b b') (feeds : List Feed) :
    Matched R (b.takeBack S feeds) (b'.takeBack S feeds) := by
  induction feeds generalizing b b' with
  | nil => exact h
  | cons feed feeds ih => exact ih (h.ask hS .stop feed).2

/-- As the answers agree, the same feeds are started, or the same starts are taken back. -/
theorem startAll (h : Matched R b b') (started feeds : List Feed) :
    Agree R (b.startAll S started feeds) (b'.startAll S started feeds) := by
  induction feeds generalizing b b' started with
  | nil => exact ⟨rfl, h⟩
  | cons feed feeds ih =>
      have hask := h.ask hS .start feed
      unfold Switchboard.startAll
      revert hask
      rcases b.ask S .start feed with ⟨o, c⟩
      rcases b'.ask S .start feed with ⟨o', c'⟩
      rintro ⟨ho, hc⟩
      cases ho
      cases o with
      | ok => exact ih hc _
      | error e => exact ⟨rfl, hc.takeBack hS started⟩

/-- The same feeds are observed, so both sources are asked or none. -/
theorem ensure (h : Matched R b b') (feed : Feed) :
    Agree R (b.ensure S feed) (b'.ensure S feed) := by
  unfold Switchboard.ensure
  rw [h.registry_eq]
  split
  · exact ⟨rfl, h⟩
  · exact h.ask hS .start feed

/-! ## registrations and the default slot -/

/-- A registration that is refused, repeated or made on one board is so on the other. -/
theorem register (h : Matched R b b') (callback : Callback) (kind : Kind)
    (options : Option Options) (mode : Mode) :
    Agree R (b.register S callback kind options mode)
      (b'.register S callback kind options mode) := by
  unfold Switchboard.register
  rw [h.registry_eq]
  cases b.registry.selector kind options with
  | error e => exact ⟨rfl, h⟩
  | ok selector =>
      simp only
      cases b.registry.duplicate? kind selector callback mode with
      | some r => exact ⟨rfl, h⟩
      | none =>
          have hensure := h.ensure hS (selector.getD b.registry.defaultSlot, kind)
          simp only
          revert hensure
          rcases b.ensure S (selector.getD b.registry.defaultSlot, kind) with ⟨o, c⟩
          rcases b'.ensure S (selector.getD b.registry.defaultSlot, kind) with ⟨o', c'⟩
          rintro ⟨ho, hc⟩
          cases ho
          cases o with
          | error e => exact ⟨rfl, hc⟩
          | ok =>
              have hregistry : c'.registry = c.registry := hc.registry_eq
              simp only [hregistry]
              exact ⟨rfl, hc.withRegistry _⟩

/-- A name stands for the same kind on both boards. -/
theorem subscribe (h : Matched R b b') (event listener : String) (options : Option Options)
    (mode : Mode) :
    Agree R (b.subscribe S event listener options mode)
      (b'.subscribe S event listener options mode) := by
  unfold Switchboard.subscribe
  cases Named.ofName? Kind event with
  | none => exact ⟨rfl, h⟩
  | some kind => exact h.register hS _ kind options mode

/-- The same registrations are removed and the same feeds released. -/
theorem withdraw (h : Matched R b b') (selected : Registration → Bool) :
    Agree R (b.withdraw S selected) (b'.withdraw S selected) := by
  have hstruck : Matched R (b.struck selected) (b'.struck selected) := by
    unfold struck
    rw [h.registry_eq]
    exact (h.withRegistry _).note rfl
  have hstop := hstruck.stopAll hS (b.registry.withdraw selected).released
  rw [withdraw_eq, withdraw_eq, h.registry_eq]
  exact ⟨by rw [hstop.1], hstop.2⟩

/-- A name that is unknown on one board is so on the other. -/
theorem unsubscribe (h : Matched R b b') (event : String) (listener : Option String) :
    Agree R (b.unsubscribe S event listener) (b'.unsubscribe S event listener) := by
  unfold Switchboard.unsubscribe
  cases Named.ofName? Kind event with
  | none => exact ⟨rfl, h⟩
  | some kind =>
      obtain ⟨hremoved, hafter⟩ := h.withdraw hS fun r =>
        r.kind == kind && (listener.map Callback.whole).all (r.callback == ·)
      exact ⟨congrArg (Except.map List.length) hremoved, hafter⟩

/-- The default slot moves on both boards or on none. -/
theorem setDefault (h : Matched R b b') (slot : Slot) :
    Agree R (b.setDefault S slot) (b'.setDefault S slot) := by
  unfold Switchboard.setDefault
  rw [h.registry_eq]
  split
  · exact ⟨rfl, h⟩
  split
  · exact ⟨rfl, h⟩
  have hstart := h.startAll hS [] (b.registry.arrivals slot)
  revert hstart
  rcases b.startAll S [] (b.registry.arrivals slot) with ⟨o, c⟩
  rcases b'.startAll S [] (b.registry.arrivals slot) with ⟨o', c'⟩
  rintro ⟨ho, hc⟩
  cases ho
  cases o with
  | error e => exact ⟨rfl, hc⟩
  | ok =>
      have hregistry : c'.registry = c.registry := hc.registry_eq
      simp only [hregistry]
      exact ⟨rfl, ((hc.withRegistry _).stopAll hS _).2⟩

/-! ## publishing -/

/-- A publish begins with the same registrations on both boards. -/
theorem launch (h : Matched R b b') (kind : Kind) (slot : Slot) (p : Payload) :
    Matched R (b.launch S kind slot p) (b'.launch S kind slot p) := by
  have hgathered : Matched R (b.gathered kind slot p) (b'.gathered kind slot p) := by
    unfold gathered audience
    rw [h.registry_eq, h.running_eq]
    refine Matched.note (R := R) ?_ rfl
    exact { h with registry_eq := rfl, running_eq := rfl }
  rw [launch_eq, launch_eq, h.registry_eq]
  exact (hgathered.stopAll hS _).2

end

/-- Whoever may be called on one board may be called on the other. -/
theorem comeTo (h : Matched R b b') (r : Registration) (rs : List Registration) :
    Agree R (b.comeTo r rs) (b'.comeTo r rs) := by
  unfold Switchboard.comeTo
  rw [h.registry_eq, h.running_eq]
  exact ⟨rfl, { h with registry_eq := rfl, running_eq := rfl }⟩

/-- A callback takes the payload on both boards or on none. -/
theorem hand (h : Matched R b b') (r : Registration) (p : Payload) :
    Agree R (b.hand r p) (b'.hand r p) := by
  unfold Switchboard.hand
  split
  · have hnote : Matched R (b.note (.delivered r p)) (b'.note (.delivered r p)) := h.note rfl
    split
    · refine ⟨rfl, { hnote with inboxes_eq := ?_ }⟩
      simp only [enqueue, hnote.inboxes_eq]
    · exact ⟨rfl, hnote⟩
  · exact ⟨rfl, h.note rfl⟩

section
variable {invoke invoke' : Invoke σ ε}
  (hi : ∀ r p c c', Matched R c c' → Matched R (invoke r p c).2 (invoke' r p c').2)
include hi

/-- If listeners act alike on matched boards, a turn is the same on both. -/
theorem turn (h : Matched R b b') (p : Payload) (r : Registration) (rs : List Registration) :
    Agree R (b.turn invoke p r rs) (b'.turn invoke' p r rs) := by
  have hcome := h.comeTo r rs
  unfold Switchboard.turn
  revert hcome
  rcases b.comeTo r rs with ⟨armed, c⟩
  rcases b'.comeTo r rs with ⟨armed', c'⟩
  rintro ⟨harmed, hc⟩
  cases harmed
  cases armed with
  | true => exact ⟨rfl, hi r p c c' hc⟩
  | false => exact ⟨rfl, hc⟩

/-- The same registrations are called one after the other. -/
theorem deliverAll (h : Matched R b b') (p : Payload) (rs : List Registration) :
    Agree R (deliverAll invoke p rs b) (deliverAll invoke' p rs b') := by
  induction rs generalizing b b' with
  | nil => exact ⟨rfl, h⟩
  | cons r rs ih =>
      obtain ⟨hcalled, hturn⟩ := h.turn hi p r rs
      obtain ⟨hothers, hend⟩ := ih hturn
      unfold Switchboard.deliverAll
      exact ⟨by simp only [hcalled, hothers], hend⟩

/-- A publish calls the same registrations on both boards, or is refused on both. -/
theorem publish (hS : S.Respects R) (h : Matched R b b') (kind : Kind) (slot : Option Slot)
    (p : Payload) :
    Agree R (b.publish S invoke kind slot p) (b'.publish S invoke' kind slot p) := by
  have hcheck : b'.checkPublish kind slot p = b.checkPublish kind slot p := by
    simp only [checkPublish, h.registry_eq]
  unfold Switchboard.publish
  rw [hcheck]
  cases b.checkPublish kind slot p with
  | error e => exact ⟨rfl, h⟩
  | ok =>
      have haudience (slot : Slot) : b'.audience kind slot = b.audience kind slot := by
        simp only [audience, h.registry_eq]
      have hlaunch := h.launch hS kind (slot.getD b.registry.defaultSlot) p
      obtain ⟨hcalled, hend⟩ := hlaunch.deliverAll hi p
        (b.audience kind (slot.getD b.registry.defaultSlot))
      simp only [h.registry_eq, haudience, hcalled]
      exact ⟨rfl, { hend with running_eq := by simp only [land, hend.running_eq] }⟩

end

/-! ## what happened -/

/-- What happened meanwhile is the same, up to remarks. -/
theorem since_eq (h : Matched R b b') {R' : σ → σ → Prop} {m m' : Switchboard σ ε}
    (hm : Matched R' m m') :
    (b'.since m').map Event.deed? = (b.since m).map Event.deed? := by
  have hbefore : b'.trace.length = b.trace.length := by
    simpa using congrArg List.length h.deeds_eq
  have hafter : m'.trace.length = m.trace.length := by
    simpa using congrArg List.length hm.deeds_eq
  simp only [since, List.map_reverse, List.map_take, hm.deeds_eq, hbefore, hafter]

end Matched

end Switchboard

end SlotWatch

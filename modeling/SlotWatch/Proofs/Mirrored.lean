import SlotWatch.Proofs.Naming
import SlotWatch.Proofs.Shape

/-!
# SlotWatch.Proofs.Mirrored

Two switchboards side by side, one used by kind and one by name.

1. Every action by kind has one by name that takes its place (`Action.renamed`); all other
   actions stay what they are.
2. On mirrored boards (`Mirrored`) the two have the same outcome and leave mirrored boards
   (`Echoes`).  There is one lemma for each operation, up to `Mirrored.perform`.
3. A callback for values is called with payloads of its kind only, so its substitute is called
   with the same, and neither refuses it (`Mirrored.hand`).
4. So if listeners that are called by name make the same moves (`Mirrors`), whole runs keep the
   boards mirrored (`mirrored_hear`, `mirrored_run`).
-/

namespace SlotWatch

variable {σ ε : Type}

/-! ## actions and events -/

section

variable (n : Naming)

/-- The action by name that takes the place of an action by kind. -/
def Action.renamed : Action ε → Action ε
  | .on kind l options mode => .subscribe kind.name (n.of (some kind) l) options mode
  | .off kind l => .unsubscribe kind.name (l.map (n.of (some kind)))
  | .subscribe event l options mode => .subscribe event (n.of none l) options mode
  | .unsubscribe event l => .unsubscribe event (l.map (n.of none))
  | .compare x y => .compare (n.of none x) (n.of none y)
  | a => a

/-- Whether an action names its kind by the kind itself. -/
def Action.byKind : Action ε → Bool
  | .on .. => true
  | .off .. => true
  | _ => false

def Command.byKind (c : Command ε) : Bool :=
  match c.action with
  | .ok a => a.byKind
  | .error _ => false

/-- The command by name.  Its word tells whether it takes the place of one by kind. -/
def Command.renamed (c : Command ε) : Command ε :=
  ⟨n.word c.byKind c.word, c.action.map (Action.renamed n)⟩

def Move.renamed : Move ε → Move ε
  | .command c => .command (c.renamed n)
  | .panic => .panic

def Reply.renamed : Reply σ → Reply σ
  | .state g s => .state (g.renamed n) s
  | r => r

/-- The outcome of the action by name.  The names show only where the registry is looked at. -/
def Action.told : Action ε → Outcome σ → Outcome σ
  | .inspect, o => o.map (Reply.renamed n)
  | _, o => o

def Command.told (c : Command ε) (o : Outcome σ) : Outcome σ :=
  match c.action with
  | .ok a => a.told n o
  | .error _ => o

/-- `e.Renamed n e'`: `e'` is what happens by name where `e` happens by kind. -/
inductive Event.Renamed : Event σ ε → Event σ ε → Prop where
  | asked : Renamed (.asked request feed answer) (.asked request feed answer)
  | updated : Renamed (.updated slot p news) (.updated slot p news)
  | published :
      Renamed (.published kind slot p called)
        (.published kind slot p (called.map (Registration.renamed n)))
  /-- A callback for values gets a value and its substitute the payload of the value. -/
  | delivered (h : r.Takes p) : Renamed (.delivered r p) (.delivered (r.renamed n) p)
  | withdrawn (left : List Registration) :
      Renamed (.withdrawn left) (.withdrawn (left.map (Registration.renamed n)))
  /-- A listener goes by the name of the callback that was called. -/
  | did (k : Option Kind) :
      Renamed (.did l c outcome) (.did (l.map (n.of k)) (c.renamed n) (c.told n outcome))

end

/-- Whoever takes a payload takes it as a whole. -/
theorem Callback.accepts_renamed {callback : Callback} {p : Payload} (n : Naming)
    (h : callback.accepts p = true) : (callback.renamed n).accepts p = true := by
  cases callback with
  | channel => exact h
  | _ => rfl

namespace Switchboard

variable {S : Source σ ε} {n : Naming} {b b' : Switchboard σ ε}

/-- Boards of which one has been used by kind, the other by name. -/
structure Mirrored (n : Naming) (b b' : Switchboard σ ε) : Prop where
  registry_eq : b'.registry = b.registry.renamed n
  running_eq : b'.running = b.running.map (List.map (Registration.renamed n))
  inboxes_eq : b'.inboxes = b.inboxes
  nextChannel_eq : b'.nextChannel = b.nextChannel
  source_eq : b'.source = b.source
  trace : List.Forall₂ (Event.Renamed n) b.trace b'.trace
  suits {r} : r ∈ b.registry.live → r.callback.suits r.kind

/-- The results on mirrored boards, one being `f` of the other. -/
def Echoes {α : Type} (n : Naming) (f : α → α) (x x' : α × Switchboard σ ε) : Prop :=
  x'.1 = f x.1 ∧ Mirrored n x.2 x'.2

theorem Echoes.answered {α : Type} {reply : α → Reply σ}
    {x x' : Except Failure α × Switchboard σ ε} (h : Echoes n id x x') :
    Echoes n id (answered reply x) (answered reply x') :=
  ⟨congrArg (Except.map reply) h.1, h.2⟩

/-- What can be told of removed registrations whatever they go by. -/
theorem Echoes.tally {α : Type} {g : List Registration → α}
    (hg : ∀ rs, g (rs.map (Registration.renamed n)) = g rs)
    {x x' : Except Failure (List Registration) × Switchboard σ ε}
    (h : Echoes n (Except.map (List.map (Registration.renamed n))) x x') :
    Echoes n id (x.1.map g, x.2) (x'.1.map g, x'.2) := by
  obtain ⟨hresult, hafter⟩ := h
  refine ⟨?_, hafter⟩
  simp only [hresult, id]
  cases x.1 with
  | error e => rfl
  | ok rs => exact congrArg Except.ok (hg rs)

namespace Mirrored

/-- Boards stay mirrored if an event is noted on one and the same by name on the other. -/
theorem note (h : Mirrored n b b') {e e' : Event σ ε} (he : e.Renamed n e') :
    Mirrored n (b.note e) (b'.note e') :=
  { h with trace := .cons he h.trace }

/-- The source has no names. -/
theorem withSource (h : Mirrored n b b') (s : σ) :
    Mirrored n { b with source := s } { b' with source := s } :=
  { h with source_eq := rfl }

/-- Registries mirror each other if one is the other by name. -/
theorem withRegistry (h : Mirrored n b b') {g : Registry}
    (hg : ∀ r ∈ g.live, r.callback.suits r.kind) :
    Mirrored n { b with registry := g } { b' with registry := g.renamed n } :=
  { h with registry_eq := rfl, suits := hg _ }

/-! ## requests -/

/-- The source is the same on both boards, and answers alike. -/
theorem ask (h : Mirrored n b b') (request : Request) (feed : Feed) :
    Echoes n id (b.ask S request feed) (b'.ask S request feed) := by
  unfold Switchboard.ask
  rw [h.source_eq]
  exact ⟨rfl, (h.withSource _).note .asked⟩

/-- The first refusal is at the same feed by name. -/
theorem stopAll (h : Mirrored n b b') (feeds : List Feed) :
    Echoes n id (b.stopAll S feeds) (b'.stopAll S feeds) := by
  induction feeds generalizing b b' with
  | nil => exact ⟨rfl, h⟩
  | cons feed feeds ih =>
      have hask := h.ask (S := S) .stop feed
      unfold Switchboard.stopAll
      revert hask
      rcases b.ask S .stop feed with ⟨o, c⟩
      rcases b'.ask S .stop feed with ⟨o', c'⟩
      rintro ⟨ho, hc⟩
      cases ho
      cases o with
      | ok => exact ih hc
      | error e => exact ⟨rfl, hc⟩

/-- The same starts are taken back by name. -/
theorem takeBack (h : Mirrored n b b') (feeds : List Feed) :
    Mirrored n (b.takeBack S feeds) (b'.takeBack S feeds) := by
  induction feeds generalizing b b' with
  | nil => exact h
  | cons feed feeds ih => exact ih (h.ask .stop feed).2

/-- The same feeds are started by name, or the same starts are taken back. -/
theorem startAll (h : Mirrored n b b') (started feeds : List Feed) :
    Echoes n id (b.startAll S started feeds) (b'.startAll S started feeds) := by
  induction feeds generalizing b b' started with
  | nil => exact ⟨rfl, h⟩
  | cons feed feeds ih =>
      have hask := h.ask (S := S) .start feed
      unfold Switchboard.startAll
      revert hask
      rcases b.ask S .start feed with ⟨o, c⟩
      rcases b'.ask S .start feed with ⟨o', c'⟩
      rintro ⟨ho, hc⟩
      cases ho
      cases o with
      | ok => exact ih hc _
      | error e => exact ⟨rfl, hc.takeBack started⟩

/-- The same feeds are observed by name, so the source is asked on both boards or on none. -/
theorem ensure (h : Mirrored n b b') (feed : Feed) :
    Echoes n id (b.ensure S feed) (b'.ensure S feed) := by
  unfold Switchboard.ensure
  rw [h.registry_eq, Registry.observes_renamed]
  split
  · exact ⟨rfl, h⟩
  · exact h.ask .start feed

/-! ## registrations and the default slot -/

/-- A registration is refused, repeated or made by name as it is without. -/
theorem register (h : Mirrored n b b') (callback : Callback) {kind : Kind}
    (hc : callback.suits kind) (options : Option Options) (mode : Mode) :
    Echoes n id (b.register S callback kind options mode)
      (b'.register S (callback.renamed n) kind options mode) := by
  unfold Switchboard.register
  simp only [h.registry_eq, Registry.selector_renamed, Registry.duplicate?_renamed,
    Registry.defaultSlot_renamed]
  cases b.registry.selector kind options with
  | error e => exact ⟨rfl, h⟩
  | ok selector =>
      simp only
      cases b.registry.duplicate? kind selector callback mode with
      | some r => exact ⟨rfl, h⟩
      | none =>
          have hensure := h.ensure (S := S) (selector.getD b.registry.defaultSlot, kind)
          simp only [Option.map_none]
          revert hensure
          rcases b.ensure S (selector.getD b.registry.defaultSlot, kind) with ⟨o, c⟩
          rcases b'.ensure S (selector.getD b.registry.defaultSlot, kind) with ⟨o', c'⟩
          rintro ⟨ho, hc'⟩
          cases ho
          cases o with
          | error e => exact ⟨rfl, hc'⟩
          | ok =>
              have hregistry : c'.registry = c.registry.renamed n := hc'.registry_eq
              simp only [hregistry, Registry.nextId_renamed, Registry.add_renamed]
              refine ⟨rfl, hc'.withRegistry fun r hr => ?_⟩
              rcases Registry.mem_live_add.mp hr with hr | rfl
              · exact hc'.suits hr
              · exact hc

/-- The same registrations are removed if they are selected by their names. -/
theorem withdraw (h : Mirrored n b b') {selected selected' : Registration → Bool}
    (hs : ∀ r, selected' (r.renamed n) = selected r) :
    Echoes n (Except.map (List.map (Registration.renamed n))) (b.withdraw S selected)
      (b'.withdraw S selected') := by
  obtain ⟨hremoved, hreleased, hrest⟩ := Registry.withdraw_renamed n b.registry hs
  have hstruck : Mirrored n (b.struck selected) (b'.struck selected') := by
    unfold struck
    rw [h.registry_eq, hremoved, hrest]
    refine (h.withRegistry fun r hr => ?_).note (.withdrawn _)
    exact h.suits (Registry.mem_live_withdraw.mp hr).1
  obtain ⟨hanswer, hstop⟩ := hstruck.stopAll (S := S) (b.registry.withdraw selected).released
  rw [withdraw_eq, withdraw_eq, h.registry_eq, hreleased, hremoved]
  refine ⟨?_, hstop⟩
  simp only [hanswer, id]
  generalize (b.struck selected).stopAll S _ = stopped
  cases stopped.1 <;> rfl

/-- A callback is removed by its name. -/
theorem remove (h : Mirrored n b b') (kind : Kind) (callback : Option Callback) :
    Echoes n id (b.remove S kind callback)
      (b'.remove S kind (callback.map (Callback.renamed n))) := by
  refine Echoes.tally (fun rs => List.length_map _) (h.withdraw fun r => ?_)
  cases callback <;> simp [Registration.renamed]

/-- Ids are the same by name. -/
theorem cancel (h : Mirrored n b b') (i : Nat) :
    Echoes n id (b.cancel S i) (b'.cancel S i) :=
  Echoes.tally (fun rs => by cases rs <;> rfl) (h.withdraw fun _ => rfl)

/-- The default slot moves on both boards or on none. -/
theorem setDefault (h : Mirrored n b b') (slot : Slot) :
    Echoes n id (b.setDefault S slot) (b'.setDefault S slot) := by
  unfold Switchboard.setDefault
  simp only [h.registry_eq, Registry.slotCount_renamed, Registry.defaultSlot_renamed,
    Registry.arrivals_renamed]
  split
  · exact ⟨rfl, h⟩
  split
  · exact ⟨rfl, h⟩
  have hstart := h.startAll (S := S) [] (b.registry.arrivals slot)
  revert hstart
  rcases b.startAll S [] (b.registry.arrivals slot) with ⟨o, c⟩
  rcases b'.startAll S [] (b.registry.arrivals slot) with ⟨o', c'⟩
  rintro ⟨ho, hc⟩
  cases ho
  cases o with
  | error e => exact ⟨rfl, hc⟩
  | ok =>
      have hregistry : c'.registry = c.registry.renamed n := hc.registry_eq
      simp only [hregistry, Registry.moveDefault_renamed]
      refine ⟨rfl, ((hc.withRegistry fun r hr => ?_).stopAll _).2⟩
      obtain ⟨s, hs, rfl⟩ := List.mem_map.mp hr
      have hterms := s.moved_terms slot
      rw [Registration.kind_eq_of_terms_eq hterms, Registration.callback_eq_of_terms_eq hterms]
      exact hc.suits hs

/-! ## channels -/

/-- A channel is opened by name where it is opened without, and has the same number. -/
theorem openChannel (h : Mirrored n b b') (name : String) (kind : Kind)
    (options : Option Options) :
    Echoes n id (b.openChannel S name kind options) (b'.openChannel S name kind options) := by
  have hsuits : (Callback.channel b.nextChannel kind).suits kind := rfl
  have hregister := h.register (S := S) _ hsuits options .repeating
  unfold Switchboard.openChannel
  simp only [h.nextChannel_eq]
  revert hregister
  show Echoes n id _ (b'.register S (.channel b.nextChannel kind) kind options .repeating) → _
  rcases b.register S (.channel b.nextChannel kind) kind options .repeating with ⟨o, c⟩
  rcases b'.register S (.channel b.nextChannel kind) kind options .repeating with ⟨o', c'⟩
  rintro ⟨ho, hc⟩
  cases ho
  cases o with
  | error e => exact ⟨rfl, hc⟩
  | ok id =>
      have hinboxes : c'.inboxes = c.inboxes := hc.inboxes_eq
      refine ⟨rfl, { hc with inboxes_eq := ?_, nextChannel_eq := rfl }⟩
      simp only [keep, hinboxes]

/-- A channel is fed by the same registrations, whatever the others go by. -/
theorem closed (h : Mirrored n b b') (inbox : Inbox) : b'.closed inbox = b.closed inbox := by
  have hfeeding (r : Registration) :
      ((r.renamed n).callback == .channel inbox.serial inbox.kind) =
        (r.callback == .channel inbox.serial inbox.kind) :=
    Callback.renamed_beq n r.callback (.channel inbox.serial inbox.kind)
  simp only [Switchboard.closed, h.registry_eq, h.running_eq, Registry.renamed, List.any_map,
    Function.comp_def, hfeeding]

/-- The same waits in the inboxes. -/
theorem receive (h : Mirrored n b b') (name : String) :
    Echoes n id (b.receive name) (b'.receive name) := by
  unfold Switchboard.receive inbox?
  rw [h.inboxes_eq]
  cases b.inboxes.lookup name with
  | none => exact ⟨rfl, h⟩
  | some inbox =>
      refine ⟨by simp only [h.closed, id], { h with inboxes_eq := ?_ }⟩
      simp only [keep, h.inboxes_eq]

/-- An inbox is given up on both boards. -/
theorem dropInbox (h : Mirrored n b b') (name : String) :
    Echoes n id (b.dropInbox name) (b'.dropInbox name) := by
  unfold Switchboard.dropInbox inbox?
  rw [h.inboxes_eq]
  exact ⟨rfl, { h with inboxes_eq := rfl }⟩

/-! ## publishing -/

/-- An event is for the same registrations by name. -/
theorem audience (h : Mirrored n b b') (kind : Kind) (slot : Slot) :
    b'.audience kind slot = (b.audience kind slot).map (Registration.renamed n) := by
  unfold Switchboard.audience
  rw [h.registry_eq]
  exact (Registry.collect_renamed n b.registry kind slot).1

/-- A publish begins with the same registrations by name. -/
theorem launch (h : Mirrored n b b') (kind : Kind) (slot : Slot) (p : Payload) :
    Mirrored n (b.launch S kind slot p) (b'.launch S kind slot p) := by
  obtain ⟨-, hreleased, hrest⟩ := Registry.collect_renamed n b.registry kind slot
  have hgathered : Mirrored n (b.gathered kind slot p) (b'.gathered kind slot p) := by
    unfold gathered
    rw [h.audience, h.registry_eq, h.running_eq, hrest]
    refine Mirrored.note (n := n) ?_ .published
    exact { h with
      registry_eq := rfl
      running_eq := rfl
      suits := fun hr => h.suits (Registry.mem_live_collect.mp hr).1 }
  rw [launch_eq, launch_eq, h.registry_eq, hreleased]
  exact (hgathered.stopAll _).2

/-- Whoever may be called may be called by name. -/
theorem comeTo (h : Mirrored n b b') (r : Registration) (rs : List Registration) :
    Echoes n id (b.comeTo r rs)
      (b'.comeTo (r.renamed n) (rs.map (Registration.renamed n))) := by
  unfold Switchboard.comeTo
  rw [h.registry_eq, h.running_eq, Registry.claim_renamed]
  refine ⟨rfl, { h with registry_eq := rfl, running_eq := ?_, suits := fun hr => ?_ }⟩
  · cases b.running <;> rfl
  · rw [Registry.claim_live] at hr
    exact h.suits hr

/-- Inboxes are filled alike. -/
theorem enqueue (h : Mirrored n b b') (serial : Nat) (p : Payload) :
    Mirrored n (b.enqueue serial p) (b'.enqueue serial p) :=
  { h with inboxes_eq := by simp only [Switchboard.enqueue, h.inboxes_eq] }

/-- Both are handed the payload. -/
theorem hand (h : Mirrored n b b') {r : Registration} {p : Payload} (hr : r.Takes p) :
    Echoes n id (b.hand r p) (b'.hand (r.renamed n) p) := by
  have haccepts : (r.renamed n).callback.accepts p = true :=
    Callback.accepts_renamed n hr.accepts
  have hnote : Mirrored n (b.note (.delivered r p)) (b'.note (.delivered (r.renamed n) p)) :=
    h.note (.delivered hr)
  have hcallback : (r.renamed n).callback = r.callback.renamed n := rfl
  unfold Switchboard.hand
  rw [if_pos hr.accepts, if_pos haccepts, hcallback]
  cases r.callback with
  | channel serial k => exact ⟨rfl, hnote.enqueue serial p⟩
  | _ => exact ⟨rfl, hnote⟩

/-- The source finds the same news on both boards. -/
theorem report (h : Mirrored n b b') (slot : Slot) (p : Payload) :
    Echoes n id (b.report S slot p) (b'.report S slot p) := by
  unfold Switchboard.report
  rw [h.source_eq]
  exact ⟨rfl, (h.withSource _).note .updated⟩

section

variable {invoke invoke' : Invoke σ ε}
  (hi : ∀ {r p c c'}, Mirrored n c c' → r.Takes p →
    Mirrored n (invoke r p c).2 (invoke' (r.renamed n) p c').2)
include hi

/-- If listeners act alike on mirrored boards, a turn is the same by name. -/
theorem turn (h : Mirrored n b b') {p : Payload} {r : Registration} (hr : r.Takes p)
    (rs : List Registration) :
    Echoes n id (b.turn invoke p r rs)
      (b'.turn invoke' p (r.renamed n) (rs.map (Registration.renamed n))) := by
  have hcome := h.comeTo r rs
  unfold Switchboard.turn
  revert hcome
  rcases b.comeTo r rs with ⟨armed, c⟩
  rcases b'.comeTo (r.renamed n) (rs.map (Registration.renamed n)) with ⟨armed', c'⟩
  rintro ⟨harmed, hc⟩
  cases harmed
  cases armed with
  | true => exact ⟨rfl, hi hc hr⟩
  | false => exact ⟨rfl, hc⟩

/-- The same registrations are called by name one after the other. -/
theorem deliverAll (h : Mirrored n b b') {p : Payload} {rs : List Registration}
    (hrs : ∀ r ∈ rs, r.Takes p) :
    Echoes n (List.map (Registration.renamed n)) (deliverAll invoke p rs b)
      (deliverAll invoke' p (rs.map (Registration.renamed n)) b') := by
  induction rs generalizing b b' with
  | nil => exact ⟨rfl, h⟩
  | cons r rs ih =>
      obtain ⟨hr, hrs⟩ := List.forall_mem_cons.mp hrs
      obtain ⟨hcalled, hturn⟩ := h.turn hi hr rs
      obtain ⟨hothers, hend⟩ := ih hturn hrs
      rw [List.map_cons]
      unfold Switchboard.deliverAll
      refine ⟨?_, hend⟩
      simp only [hcalled, hothers, id]
      split <;> rfl

/-- A publish is refused on both boards, or calls the same registrations by name. -/
theorem publish (h : Mirrored n b b') (kind : Kind) (slot : Option Slot) (p : Payload) :
    Echoes n id (b.publish S invoke kind slot p) (b'.publish S invoke' kind slot p) := by
  have hcheck : b'.checkPublish kind slot p = b.checkPublish kind slot p := by
    simp only [checkPublish, h.registry_eq, Registry.validateSlot_renamed]
  unfold Switchboard.publish
  rw [hcheck]
  cases hp : b.checkPublish kind slot p with
  | error e => exact ⟨rfl, h⟩
  | ok =>
      have htakes : ∀ r ∈ b.audience kind (slot.getD b.registry.defaultSlot), r.Takes p := by
        intro r hr
        have hkind := (kind_of_mem_audience hr).trans (kind_of_checkPublish hp).symm
        exact Registration.takes_of_suits hkind (h.suits (List.mem_filter.mp hr).1)
      have hlaunch := h.launch (S := S) kind (slot.getD b.registry.defaultSlot) p
      obtain ⟨hcalled, hend⟩ := hlaunch.deliverAll hi htakes
      simp only [h.registry_eq, Registry.defaultSlot_renamed, h.audience, hcalled]
      refine ⟨by simp, { hend with running_eq := ?_ }⟩
      simp only [land, hend.running_eq, List.map_tail]

/-- An update is refused on both boards, or the same news is delivered. -/
theorem update (h : Mirrored n b b') (slot : Slot) (p : Payload) :
    Echoes n id (b.update S invoke slot p) (b'.update S invoke' slot p) := by
  have hreport := h.report (S := S) slot p
  unfold Switchboard.update
  simp only [h.registry_eq, Registry.validateSlot_renamed]
  split
  · exact h.publish hi _ _ _
  split
  · exact ⟨rfl, h⟩
  revert hreport
  rcases b.report S slot p with ⟨news, c⟩
  rcases b'.report S slot p with ⟨news', c'⟩
  rintro ⟨hnews, hc⟩
  cases hnews
  cases news with
  | none => exact ⟨rfl, hc⟩
  | some q => exact hc.publish hi _ _ _

/-! ## commands -/

/-- An action by name has the outcome of the one without, as it is told by name. -/
theorem perform (h : Mirrored n b b') (a : Action ε) :
    Echoes n (a.told n) (b.perform S invoke a) (b'.perform S invoke' (a.renamed n)) := by
  cases a with
  | on kind l options mode =>
      have hname : Named.ofName? Kind kind.name = some kind := LawfulNamed.ofName?_name kind
      have hsuits : (Callback.typed l kind).suits kind := rfl
      have hregister := h.register (S := S) _ hsuits options mode
      simp only [Switchboard.perform, Action.renamed, subscribe, hname]
      exact hregister.answered
  | off kind l =>
      have hname : Named.ofName? Kind kind.name = some kind := LawfulNamed.ofName?_name kind
      have hremove := h.remove (S := S) kind (l.map (.typed · kind))
      simp only [Switchboard.perform, Action.renamed, unsubscribe, hname]
      rw [Option.map_map] at hremove ⊢
      exact hremove.answered
  | subscribe event l options mode =>
      simp only [Switchboard.perform, Action.renamed, Switchboard.subscribe]
      cases Named.ofName? Kind event with
      | none => exact ⟨rfl, h⟩
      | some kind =>
          have hsuits : (Callback.whole l).suits kind := trivial
          have hregister := h.register (S := S) _ hsuits options mode
          exact hregister.answered
  | unsubscribe event l =>
      simp only [Switchboard.perform, Action.renamed, Switchboard.unsubscribe]
      cases Named.ofName? Kind event with
      | none => exact ⟨rfl, h⟩
      | some kind =>
          have hremove := h.remove (S := S) kind (l.map .whole)
          rw [Option.map_map] at hremove ⊢
          exact hremove.answered
  | channel name kind options => exact (h.openChannel name kind options).answered
  | receive name =>
      have hreceive := h.receive name
      simp only [Switchboard.perform, Action.renamed]
      exact ⟨by rw [hreceive.1]; rfl, hreceive.2⟩
  | drop name =>
      have hdrop := h.dropInbox name
      simp only [Switchboard.perform, Action.renamed]
      exact ⟨by rw [hdrop.1]; rfl, hdrop.2⟩
  | cancel i => exact (h.cancel i).answered
  | publish kind slot p => exact (h.publish hi kind slot p).answered
  | update slot p => exact (h.update hi slot p).answered
  | setDefault slot => exact (h.setDefault slot).answered
  | validateSlot kind slot =>
      simp only [Switchboard.perform, Action.renamed, h.registry_eq]
      exact ⟨rfl, h⟩
  | listenerCount kind =>
      simp only [Switchboard.perform, Action.renamed, h.registry_eq]
      exact ⟨by simp [Action.told], h⟩
  | compare x y =>
      have hsame := Callback.renamed_beq n (.whole x) (.whole y)
      simp only [Switchboard.perform, Action.renamed]
      exact ⟨by simp only [Callback.renamed] at hsame; rw [hsame]; rfl, h⟩
  | inspect =>
      simp only [Switchboard.perform, Action.renamed, h.registry_eq, h.source_eq]
      exact ⟨rfl, h⟩
  | source request =>
      simp only [Switchboard.perform, Action.renamed, h.source_eq]
      exact ⟨rfl, h.withSource _⟩

/-- A command by name leaves boards mirrored, its own mark included. -/
theorem obey (h : Mirrored n b b') (k : Option Kind) (l : Option String) (c : Command ε) :
    Echoes n (c.told n) (b.obey S invoke l c)
      (b'.obey S invoke' (l.map (n.of k)) (c.renamed n)) := by
  have hattempt : Echoes n (c.told n) (b.attempt S invoke c)
      (b'.attempt S invoke' (c.renamed n)) := by
    obtain ⟨word, action⟩ := c
    cases action with
    | error e => exact ⟨rfl, h⟩
    | ok a => exact h.perform hi a
  obtain ⟨houtcome, hafter⟩ := hattempt
  refine ⟨houtcome, ?_⟩
  simp only [Switchboard.obey, houtcome]
  exact hafter.note (.did k)

/-- A listener that makes the same moves by name leaves boards mirrored. -/
theorem moveAll (h : Mirrored n b b') (k : Option Kind) (l : Option String)
    (ms : List (Move ε)) :
    Mirrored n (b.moveAll S invoke l ms).2
      (b'.moveAll S invoke' (l.map (n.of k)) (ms.map (Move.renamed n))).2 := by
  induction ms generalizing b b' with
  | nil => exact h
  | cons m ms ih =>
      cases m with
      | panic => exact h
      | command c => exact ih (h.obey hi k l c).2

end

end Mirrored

/-! ## listeners -/

/-- Whether listeners that are called by name make the same moves, by name. -/
def Mirrors (n : Naming) (react react' : React σ ε) : Prop :=
  ∀ r p b b', Mirrored n b b' →
    react' (r.renamed n) p b' = (react r p b).map (Move.renamed n)

/-- The listener goes by the name of its callback. -/
theorem listener?_renamed (n : Naming) (callback : Callback) :
    ∃ k, (callback.renamed n).listener? = callback.listener?.map (n.of k) := by
  cases callback with
  | whole => exact ⟨none, rfl⟩
  | typed l k => exact ⟨some k, rfl⟩
  | channel => exact ⟨none, rfl⟩

/-- Whoever takes the payload is handed it by name. -/
theorem mirrored_handOver {body body' : Invoke σ ε}
    (hbody : ∀ {r p b b'}, Mirrored n b b' →
      Mirrored n (body r p b).2 (body' (r.renamed n) p b').2)
    {r : Registration} {p : Payload} (h : Mirrored n b b') (hr : r.Takes p) :
    Mirrored n (handOver body r p b).2 (handOver body' (r.renamed n) p b').2 := by
  have hhand := h.hand hr
  unfold handOver
  revert hhand
  rcases b.hand r p with ⟨acts, c⟩
  rcases b'.hand (r.renamed n) p with ⟨acts', c'⟩
  rintro ⟨hacts, hc⟩
  cases hacts
  cases acts with
  | true => exact hbody hc
  | false => exact hc

/-- **Calls keep boards mirrored**, at every depth of nesting. -/
theorem mirrored_hear {react react' : React σ ε} (hreact : Mirrors n react react')
    (limit : Nat) {r : Registration} {p : Payload} {b b' : Switchboard σ ε}
    (h : Mirrored n b b') (hr : r.Takes p) :
    Mirrored n (hear S react limit r p b).2 (hear S react' limit (r.renamed n) p b').2 := by
  induction limit generalizing r p b b' with
  | zero => exact mirrored_handOver (fun h => h) h hr
  | succ limit ih =>
      refine mirrored_handOver (fun {r p b b'} h => ?_) h hr
      obtain ⟨k, hlistener⟩ := listener?_renamed n r.callback
      have hcallback : (r.renamed n).callback = r.callback.renamed n := rfl
      rw [hcallback, hlistener, hreact r p b b' h]
      exact h.moveAll ih k _ _

/-- Fresh boards mirror each other. -/
theorem mirrored_fresh (n : Naming) (settings : SlotSettings) (source : σ) :
    Mirrored n (fresh (ε := ε) settings source) (fresh settings source) where
  registry_eq := rfl
  running_eq := rfl
  inboxes_eq := rfl
  nextChannel_eq := rfl
  source_eq := rfl
  trace := .nil
  suits h := by contradiction

/-- A run by name ends on a board that mirrors the one without. -/
theorem mirrored_run {react react' : React σ ε} (hreact : Mirrors n react react')
    (limit : Nat) (cs : List (Command ε)) (h : Mirrored n b b') :
    Mirrored n (run S react limit cs b) (run S react' limit (cs.map (Command.renamed n)) b') := by
  induction cs generalizing b b' with
  | nil => exact h
  | cons c cs ih => exact ih (h.obey (mirrored_hear hreact limit) none none c).2

end Switchboard

end SlotWatch

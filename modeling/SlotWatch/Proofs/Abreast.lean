import Mathlib.Data.List.Forall2
import SlotWatch.Proofs.Advance

/-!
# SlotWatch.Proofs.Abreast

Two switchboards that go on in the same way, although they differ in what happened before,
and perhaps in an inbox that one of them has no longer.

1. Most operations look neither at the trace nor at the inboxes (`Framed`): one lemma for each
   that asks the source or changes the registry.
2. Boards that agree in everything else are `Abreast`.  What is framed has the same result on
   both, and leaves them abreast; so do the operations on inboxes, except that asking for the
   missing inbox has another result.
3. If listeners do not look at it either (`Indifferent`), everything that is done from then on
   keeps boards abreast (`SameFuture`).
-/

namespace SlotWatch

variable {σ ε : Type}

/-- Whether an action is about a channel that it names. -/
def Action.namesChannel : Action ε → Bool
  | .channel .. | .receive _ | .drop _ => true
  | _ => false

/-- Whether an action is to take from the missing inbox, or to give it up. -/
def Action.Seeks (missing : Option String) (a : Action ε) : Prop :=
  ∃ name ∈ missing, a = .receive name ∨ a = .drop name

def Command.Seeks (missing : Option String) (c : Command ε) : Prop :=
  ∃ a, c.action = .ok a ∧ a.Seeks missing

/-- Whether two events are the same, except for what comes of asking for the missing inbox. -/
inductive Event.Like (missing : Option String) : Event σ ε → Event σ ε → Prop where
  | same (e : Event σ ε) : Like missing e e
  | sought (l : Option String) (hc : c.Seeks missing) (o o' : Outcome σ) :
      Like missing (.did l c o) (.did l c o')

/-- The inbox once a payload has been put into a channel. -/
def Inbox.fed (serial : Nat) (p : Payload) (inbox : Inbox) : Inbox :=
  if inbox.serial = serial then { inbox with waiting := inbox.waiting ++ [p] } else inbox

namespace Switchboard

variable {S : Source σ ε}

/-! ## inboxes by name -/

/-- An inbox that is given up is not found, and the others are. -/
theorem lookup_filter_ne {α : Type} (name n : String) (entries : List (String × α)) :
    (entries.filter (·.1 != name)).lookup n = if n = name then none else entries.lookup n := by
  induction entries with
  | nil => simp
  | cons entry rest ih =>
      obtain ⟨m, x⟩ := entry
      by_cases hm : m = name
      · subst hm
        rw [List.filter_cons_of_neg (by simp), ih, List.lookup_cons]
        by_cases hn : n = m
        · rw [if_pos hn, if_pos hn]
        · rw [if_neg hn, if_neg hn, beq_eq_false_iff_ne.mpr hn]
      · rw [List.filter_cons_of_pos (by simp [hm]), List.lookup_cons, List.lookup_cons, ih]
        by_cases hn : n = name
        · subst hn
          rw [if_pos rfl, if_pos rfl, beq_eq_false_iff_ne.mpr (Ne.symm hm)]
        · rw [if_neg hn, if_neg hn]

/-- To give up an inbox concerns no other. -/
theorem inbox?_dropInbox (name n : String) (b : Switchboard σ ε) :
    (b.dropInbox name).2.inbox? n = if n = name then none else b.inbox? n :=
  lookup_filter_ne name n b.inboxes

/-- An inbox takes the place of any other of its name. -/
theorem inbox?_keep (name n : String) (inbox : Inbox) (b : Switchboard σ ε) :
    (b.keep name inbox).inbox? n = if n = name then some inbox else b.inbox? n := by
  have hothers := lookup_filter_ne name n b.inboxes
  by_cases hn : n = name
  · simp [inbox?, keep, hn]
  · simp only [inbox?, keep, List.lookup_cons, beq_eq_false_iff_ne.mpr hn, hothers, if_neg hn]

/-- A payload is put into the inboxes of its channel. -/
theorem inbox?_enqueue (serial : Nat) (p : Payload) (n : String) (b : Switchboard σ ε) :
    (b.enqueue serial p).inbox? n = (b.inbox? n).map (Inbox.fed serial p) := by
  unfold inbox? enqueue
  simp only
  induction b.inboxes with
  | nil => rfl
  | cons entry rest ih =>
      obtain ⟨m, inbox⟩ := entry
      have hfed : (if inbox.serial = serial then (m, { inbox with waiting := inbox.waiting ++ [p] })
          else (m, inbox)) = (m, inbox.fed serial p) := by
        unfold Inbox.fed
        split <;> rfl
      simp only [List.map_cons, hfed, List.lookup_cons, ih]
      cases n == m <;> rfl

/-! ## what is not looked at -/

/-- The board with what happened on another one before, and with the channels of that. -/
def onto (b base : Switchboard σ ε) : Switchboard σ ε :=
  { b with
    trace := b.trace ++ base.trace
    inboxes := base.inboxes
    nextChannel := base.nextChannel }

/-- Whether an operation looks neither at what happened before nor at channels. -/
def Framed {α : Type} (op : Switchboard σ ε → α × Switchboard σ ε) : Prop :=
  ∀ base b, op (b.onto base) = ((op b).1, (op b).2.onto base)

/-- A board without a past and without channels. -/
def bare (b : Switchboard σ ε) : Switchboard σ ε :=
  { b with trace := [], inboxes := [], nextChannel := 0 }

theorem bare_onto (b : Switchboard σ ε) : b.bare.onto b = b := rfl

/-- What does not look at channels leaves them alone. -/
theorem Framed.inboxes_eq {α : Type} {op : Switchboard σ ε → α × Switchboard σ ε}
    (h : Framed op) (b : Switchboard σ ε) : (op b).2.inboxes = b.inboxes :=
  congrArg (fun x => x.2.inboxes) (h b b.bare)

theorem Framed.nextChannel_eq {α : Type} {op : Switchboard σ ε → α × Switchboard σ ε}
    (h : Framed op) (b : Switchboard σ ε) : (op b).2.nextChannel = b.nextChannel :=
  congrArg (fun x => x.2.nextChannel) (h b b.bare)

section

variable (S)

theorem framed_ask (request : Request) (feed : Feed) : Framed (ask S request feed) :=
  fun _ _ => rfl

/-- Stopping feeds looks at the source only. -/
theorem framed_stopAll (feeds : List Feed) : Framed (stopAll S feeds) := by
  intro base b
  induction feeds generalizing b with
  | nil => rfl
  | cons feed feeds ih =>
      simp only [stopAll, framed_ask S .stop feed base b]
      rcases b.ask S .stop feed with ⟨_ | _, b'⟩
      · rfl
      · exact ih b'

theorem takeBack_onto (feeds : List Feed) (base b : Switchboard σ ε) :
    (b.onto base).takeBack S feeds = (b.takeBack S feeds).onto base := by
  induction feeds generalizing b with
  | nil => rfl
  | cons feed feeds ih => rw [takeBack_cons, takeBack_cons, framed_ask, ih]

theorem framed_startAll (started feeds : List Feed) : Framed (startAll S started feeds) := by
  intro base b
  induction feeds generalizing started b with
  | nil => rfl
  | cons feed feeds ih =>
      simp only [startAll, framed_ask S .start feed base b]
      rcases b.ask S .start feed with ⟨_ | _, b'⟩
      · exact Prod.ext rfl (takeBack_onto S started base b')
      · exact ih _ b'

/-- Whether a feed is observed is told by the registry. -/
theorem framed_ensure (feed : Feed) : Framed (ensure S feed) := by
  intro base b
  unfold ensure
  show (if b.registry.observes feed then _ else _) = _
  split <;> rfl

/-- A registration is made by what the registry and the source are like. -/
theorem framed_register (callback : Callback) (kind : Kind) (options : Option Options)
    (mode : Mode) : Framed (register S callback kind options mode) := by
  intro base b
  have hregistry : (b.onto base).registry = b.registry := rfl
  unfold register
  rw [hregistry]
  cases b.registry.selector kind options with
  | error e => rfl
  | ok selector =>
      simp only
      cases b.registry.duplicate? kind selector callback mode with
      | some r => rfl
      | none =>
          simp only [framed_ensure S _ base b]
          rcases b.ensure S (selector.getD b.registry.defaultSlot, kind) with ⟨_ | _, b'⟩ <;> rfl

theorem framed_withdraw (selected : Registration → Bool) : Framed (withdraw S selected) := by
  intro base b
  have hstruck : (b.onto base).struck selected = (b.struck selected).onto base :=
    rfl
  have hregistry : (b.onto base).registry = b.registry := rfl
  simp only [withdraw_eq, hstruck, hregistry, framed_stopAll S _ base (b.struck selected)]

/-- Moving the default slot looks at the registry and the source only. -/
theorem framed_setDefault (slot : Slot) : Framed (setDefault S slot) := by
  intro base b
  have hregistry : (b.onto base).registry = b.registry := rfl
  unfold setDefault
  rw [hregistry]
  split
  · rfl
  split
  · rfl
  rw [framed_startAll]
  rcases b.startAll S [] (b.registry.arrivals slot) with ⟨_ | _, b'⟩
  · rfl
  · let moved := b'.registry.moveDefault slot
    have hstop := congrArg Prod.snd
      (framed_stopAll S moved.2 base { b' with registry := moved.1 })
    exact Prod.ext rfl hstop

theorem framed_remove (kind : Kind) (callback : Option Callback) :
    Framed (remove S kind callback) := by
  intro base b
  simp only [remove, framed_withdraw S _ base b]

theorem framed_cancel (id : Nat) : Framed (cancel S id) := by
  intro base b
  simp only [cancel, framed_withdraw S _ base b]

theorem framed_subscribe (event listener : String) (options : Option Options) (mode : Mode) :
    Framed (subscribe S event listener options mode) := by
  intro base b
  unfold subscribe
  split
  · rfl
  · exact framed_register S _ _ options mode base b

theorem framed_unsubscribe (event : String) (listener : Option String) :
    Framed (unsubscribe S event listener) := by
  intro base b
  unfold unsubscribe
  split
  · rfl
  · exact framed_remove S _ _ base b

theorem framed_answered {α : Type} {op : Switchboard σ ε → Except Failure α × Switchboard σ ε}
    (h : Framed op) (reply : α → Reply σ) : Framed fun b => answered reply (op b) := by
  intro base b
  simp only [answered, h base b]

/-- What calls nobody and names no channel. -/
theorem framed_perform (invoke : Invoke σ ε) {a : Action ε} (hq : a.quiet = true)
    (hn : a.namesChannel = false) : Framed fun b => b.perform S invoke a := by
  cases a with
  | on kind listener options mode =>
      exact framed_answered (framed_register S _ kind options mode) _
  | off kind listener => exact framed_answered (framed_remove S kind _) _
  | subscribe event listener options mode =>
      exact framed_answered (framed_subscribe S event listener options mode) _
  | unsubscribe event listener => exact framed_answered (framed_unsubscribe S event listener) _
  | cancel id => exact framed_answered (framed_cancel S id) _
  | setDefault slot => exact framed_answered (framed_setDefault S slot) _
  | validateSlot | listenerCount | compare | inspect | source => exact fun _ _ => rfl
  | channel | receive | drop | publish | update => contradiction

/-- A publish begins without looking at what has happened. -/
theorem launch_onto (kind : Kind) (slot : Slot) (p : Payload) (base b : Switchboard σ ε) :
    (b.onto base).launch S kind slot p = (b.launch S kind slot p).onto base :=
  congrArg Prod.snd (framed_stopAll S _ base (b.gathered kind slot p))

end

/-! ## boards abreast -/

/-- Boards that agree in everything but what happened before, `past` and `past'`, and the
inbox that is missing on the second board if one is. -/
structure Abreast (missing : Option String) (past past' : List (Event σ ε))
    (b b' : Switchboard σ ε) : Prop where
  registry_eq : b'.registry = b.registry
  source_eq : b'.source = b.source
  running_eq : b'.running = b.running
  nextChannel_eq : b'.nextChannel = b.nextChannel
  inbox? (name : String) : b'.inbox? name = b.inbox? name ∨
    name ∈ missing ∧ b'.inbox? name = none
  trace : ∃ new new', b.trace = new ++ past ∧ b'.trace = new' ++ past' ∧
    List.Forall₂ (Event.Like missing) new new'

/-- Whether an inbox that may be missing is. -/
def Lacks (missing : Option String) (b : Switchboard σ ε) : Prop :=
  ∀ name ∈ missing, b.inbox? name = none

/-- The same result on boards abreast. -/
def Concur {α : Type} (missing : Option String) (past past' : List (Event σ ε))
    (x x' : α × Switchboard σ ε) : Prop :=
  x'.1 = x.1 ∧ Abreast missing past past' x.2 x'.2

/-- Calls that go the same way on boards abreast. -/
def Respected (missing : Option String) (past past' : List (Event σ ε)) (invoke : Invoke σ ε) :
    Prop :=
  ∀ r p b b', Abreast missing past past' b b' →
    Concur missing past past' (invoke r p b) (invoke r p b')

/-- Listeners that make the same moves on boards abreast. -/
def Indifferent (missing : Option String) (past past' : List (Event σ ε)) (react : React σ ε) :
    Prop :=
  ∀ r p b b', Abreast missing past past' b b' → react r p b' = react r p b

namespace Abreast

variable {missing : Option String} {past past' : List (Event σ ε)} {b b' : Switchboard σ ε}

/-- Boards stay abreast if events are noted that are like each other. -/
theorem note (h : Abreast missing past past' b b') {e e' : Event σ ε} (he : e.Like missing e') :
    Abreast missing past past' (b.note e) (b'.note e') := by
  obtain ⟨new, new', htrace, htrace', hlike⟩ := h.trace
  refine { h with trace := ⟨e :: new, e' :: new', ?_, ?_, .cons he hlike⟩ }
  · exact congrArg (e :: ·) htrace
  · exact congrArg (e' :: ·) htrace'

/-- What is put onto boards abreast leaves them so. -/
theorem onto (h : Abreast missing past past' b b') (core : Switchboard σ ε) :
    Abreast missing past past' (core.onto b) (core.onto b') where
  registry_eq := rfl
  source_eq := rfl
  running_eq := rfl
  nextChannel_eq := h.nextChannel_eq
  inbox? := h.inbox?
  trace := by
    obtain ⟨new, new', htrace, htrace', hlike⟩ := h.trace
    refine ⟨core.trace ++ new, core.trace ++ new', ?_, ?_, ?_⟩
    · rw [List.append_assoc, ← htrace]
      rfl
    · rw [List.append_assoc, ← htrace']
      rfl
    · exact List.rel_append (List.forall₂_same.mpr fun e _ => .same e) hlike

/-- Without what differs, boards abreast are the same. -/
theorem bare_eq (h : Abreast missing past past' b b') : b'.bare = b.bare := by
  obtain ⟨hregistry, hsource, hrunning, -, -, -⟩ := h
  unfold bare
  rw [hregistry, hsource, hrunning]

/-- **What looks at nothing that differs** has the same result, and leaves boards abreast. -/
theorem framed {α : Type} {op : Switchboard σ ε → α × Switchboard σ ε} (hop : Framed op)
    (h : Abreast missing past past' b b') : Concur missing past past' (op b) (op b') := by
  have hb := hop b b.bare
  have hb' := hop b' b'.bare
  rw [bare_onto] at hb hb'
  rw [hb, hb', h.bare_eq]
  exact ⟨rfl, h.onto (op b.bare).2⟩

/-! ### inboxes -/

/-- An inbox is kept on both boards, under a name that may be missing. -/
theorem keep (h : Abreast missing past past' b b') (name : String) (inbox : Inbox) :
    Abreast missing past past' (b.keep name inbox) (b'.keep name inbox) := by
  refine { h with inbox? := fun n => ?_ }
  rw [inbox?_keep, inbox?_keep]
  split
  · exact .inl rfl
  · exact h.inbox? n

/-- A payload is put into the inboxes that are on both boards. -/
theorem enqueue (h : Abreast missing past past' b b') (serial : Nat) (p : Payload) :
    Abreast missing past past' (b.enqueue serial p) (b'.enqueue serial p) := by
  refine { h with inbox? := fun n => ?_ }
  rw [inbox?_enqueue, inbox?_enqueue]
  rcases h.inbox? n with heq | ⟨hn, hnone⟩
  · exact .inl (congrArg _ heq)
  · exact .inr ⟨hn, by rw [hnone, Option.map_none]⟩

/-- A channel is opened on both boards, and its inbox is missing on neither. -/
theorem openChannel (h : Abreast missing past past' b b') (name : String) (kind : Kind)
    (options : Option Options) :
    Concur missing past past' (b.openChannel S name kind options)
      (b'.openChannel S name kind options) := by
  have hregister := h.framed (framed_register S (.channel b.nextChannel kind) kind options .repeating)
  unfold Switchboard.openChannel
  simp only [h.nextChannel_eq]
  revert hregister
  rcases b.register S (.channel b.nextChannel kind) kind options .repeating with ⟨o, c⟩
  rcases b'.register S (.channel b.nextChannel kind) kind options .repeating with ⟨o', c'⟩
  rintro ⟨ho, hc⟩
  cases ho
  cases o with
  | error e => exact ⟨rfl, hc⟩
  | ok id =>
      have hnext : Abreast missing past past' { c with nextChannel := b.nextChannel + 1 }
          { c' with nextChannel := b.nextChannel + 1 } :=
        { hc with nextChannel_eq := rfl, inbox? := hc.inbox? }
      exact ⟨rfl, hnext.keep name _⟩

/-- Whether anything can follow in an inbox is told by the registry and what is due. -/
theorem closed (h : Abreast missing past past' b b') (inbox : Inbox) :
    b'.closed inbox = b.closed inbox := by
  unfold Switchboard.closed
  rw [h.registry_eq, h.running_eq]

/-- Taking from the missing inbox has another result, and nothing else changes by it. -/
theorem receive (h : Abreast missing past past' b b') (name : String) :
    (name ∈ missing ∧ b'.inbox? name = none ∨ (b'.receive name).1 = (b.receive name).1) ∧
      Abreast missing past past' (b.receive name).2 (b'.receive name).2 := by
  unfold Switchboard.receive
  rcases h.inbox? name with heq | ⟨hname, hnone⟩
  · rw [heq]
    cases b.inbox? name with
    | none => exact ⟨.inr rfl, h⟩
    | some inbox => exact ⟨.inr (by simp only [h.closed]), h.keep name _⟩
  · refine ⟨.inl ⟨hname, hnone⟩, ?_⟩
    rw [hnone]
    cases b.inbox? name with
    | none => exact h
    | some inbox =>
        refine { h with inbox? := fun n => ?_ }
        rw [inbox?_keep]
        by_cases hn : n = name
        · subst hn
          exact .inr ⟨hname, hnone⟩
        · rw [if_neg hn]
          exact h.inbox? n

/-- An inbox is given up on both boards, or it was missing. -/
theorem dropInbox (h : Abreast missing past past' b b') (name : String) :
    (name ∈ missing ∧ b'.inbox? name = none ∨ (b'.dropInbox name).1 = (b.dropInbox name).1) ∧
      Abreast missing past past' (b.dropInbox name).2 (b'.dropInbox name).2 := by
  constructor
  · rcases h.inbox? name with heq | hmissing
    · exact .inr (congrArg Option.isSome heq)
    · exact .inl hmissing
  · refine { h with inbox? := fun n => ?_ }
    rw [inbox?_dropInbox, inbox?_dropInbox]
    split
    · exact .inl rfl
    · exact h.inbox? n

/-! ### publishing -/

/-- A payload is handed over alike, as inboxes are filled alike. -/
theorem hand (h : Abreast missing past past' b b') (r : Registration) (p : Payload) :
    Concur missing past past' (b.hand r p) (b'.hand r p) := by
  unfold Switchboard.hand
  split
  · have hnote := h.note (.same (.delivered r p))
    split
    · exact ⟨rfl, hnote.enqueue _ p⟩
    · exact ⟨rfl, hnote⟩
  · exact ⟨rfl, h.note (.same _)⟩

section

variable {invoke : Invoke σ ε} (hi : Respected missing past past' invoke)
include hi

/-- If calls go the same way on boards abreast, so does a turn. -/
theorem turn (h : Abreast missing past past' b b') (p : Payload) (r : Registration)
    (rs : List Registration) :
    Concur missing past past' (b.turn invoke p r rs) (b'.turn invoke p r rs) := by
  have hcome : Framed (comeTo r rs : Switchboard σ ε → _) := fun _ _ => rfl
  obtain ⟨harmed, hafter⟩ := h.framed hcome
  unfold Switchboard.turn
  simp only [harmed]
  split
  · exact ⟨rfl, (hi r p _ _ hafter).2⟩
  · exact ⟨rfl, hafter⟩

/-- The same registrations are called on boards abreast. -/
theorem deliverAll (h : Abreast missing past past' b b') (p : Payload) (rs : List Registration) :
    Concur missing past past' (deliverAll invoke p rs b) (deliverAll invoke p rs b') := by
  induction rs generalizing b b' with
  | nil => exact ⟨rfl, h⟩
  | cons r rs ih =>
      obtain ⟨hcalled, hturn⟩ := h.turn hi p r rs
      obtain ⟨hothers, hafter⟩ := ih hturn
      refine ⟨?_, hafter⟩
      simp only [Switchboard.deliverAll, hcalled, hothers]

/-- A publish goes the same way on boards abreast. -/
theorem publish (h : Abreast missing past past' b b') (kind : Kind) (slot : Option Slot)
    (p : Payload) :
    Concur missing past past' (b.publish S invoke kind slot p)
      (b'.publish S invoke kind slot p) := by
  have hcheck : b'.checkPublish kind slot p = b.checkPublish kind slot p := by
    unfold checkPublish
    rw [h.registry_eq]
  unfold Switchboard.publish
  rw [hcheck]
  cases b.checkPublish kind slot p with
  | error e => exact ⟨rfl, h⟩
  | ok =>
      simp only [h.registry_eq, audience]
      let place := slot.getD b.registry.defaultSlot
      have hlaunch : Framed fun b : Switchboard σ ε => ((), b.launch S kind place p) :=
        fun base b => Prod.ext rfl (launch_onto S kind place p base b)
      obtain ⟨hcalled, hafter⟩ := (h.framed hlaunch).2.deliverAll hi p
        (b.registry.collect kind place).deliveries
      have hland : Framed fun b : Switchboard σ ε => ((), b.land) := fun _ _ => rfl
      exact ⟨congrArg (fun rs => Except.ok (List.length rs)) hcalled, (hafter.framed hland).2⟩

/-- An update goes the same way on boards abreast, as the source is the same. -/
theorem update (h : Abreast missing past past' b b') (slot : Slot) (p : Payload) :
    Concur missing past past' (b.update S invoke slot p) (b'.update S invoke slot p) := by
  unfold Switchboard.update
  split
  · exact h.publish hi _ _ p
  rw [h.registry_eq]
  cases b.registry.validateSlot p.kind slot with
  | error e => exact ⟨rfl, h⟩
  | ok =>
      have hreport : Framed (report S slot p) := fun _ _ => rfl
      have hafter := h.framed hreport
      simp only
      revert hafter
      rcases b.report S slot p with ⟨news, c⟩
      rcases b'.report S slot p with ⟨news', c'⟩
      rintro ⟨hnews, hc⟩
      cases hnews
      cases news with
      | none => exact ⟨rfl, hc⟩
      | some q => exact hc.publish hi _ _ q

/-! ### commands and moves -/

/-- **An action has the same outcome on boards abreast**, unless it asks for an inbox that is
missing. -/
theorem perform (h : Abreast missing past past' b b') (a : Action ε) :
    (a.Seeks missing ∧ b'.Lacks missing ∨
        (b'.perform S invoke a).1 = (b.perform S invoke a).1) ∧
      Abreast missing past past' (b.perform S invoke a).2 (b'.perform S invoke a).2 := by
  have hframed (hop : Framed fun b => b.perform S invoke a) :
      (a.Seeks missing ∧ b'.Lacks missing ∨
          (b'.perform S invoke a).1 = (b.perform S invoke a).1) ∧
        Abreast missing past past' (b.perform S invoke a).2 (b'.perform S invoke a).2 :=
    ⟨.inr (h.framed hop).1, (h.framed hop).2⟩
  have hlacks {name : String} (hmissing : name ∈ missing ∧ b'.inbox? name = none) :
      b'.Lacks missing := fun n hn => Option.mem_unique hmissing.1 hn ▸ hmissing.2
  cases a with
  | channel name kind options =>
      obtain ⟨houtcome, hafter⟩ := h.openChannel (S := S) name kind options
      exact ⟨.inr (congrArg (Except.map Reply.id) houtcome), hafter⟩
  | receive name =>
      obtain ⟨htaken, hafter⟩ := h.receive name
      refine ⟨htaken.imp (fun hm => ⟨⟨name, hm.1, .inl rfl⟩, hlacks hm⟩) fun heq => ?_, hafter⟩
      simp only [Switchboard.perform, heq]
  | drop name =>
      obtain ⟨hexisted, hafter⟩ := h.dropInbox name
      refine ⟨hexisted.imp (fun hm => ⟨⟨name, hm.1, .inr rfl⟩, hlacks hm⟩) fun heq => ?_, hafter⟩
      simp only [Switchboard.perform, heq]
  | publish kind slot p =>
      obtain ⟨hcount, hafter⟩ := h.publish (S := S) hi kind slot p
      exact ⟨.inr (congrArg (Except.map Reply.count) hcount), hafter⟩
  | update slot p =>
      obtain ⟨hcount, hafter⟩ := h.update (S := S) hi slot p
      exact ⟨.inr (congrArg (Except.map Reply.count) hcount), hafter⟩
  | _ => exact hframed (framed_perform S invoke rfl rfl)

/-- A command has the same outcome on boards abreast, unless it asks for the missing inbox. -/
theorem obey (h : Abreast missing past past' b b') (l : Option String) (c : Command ε) :
    (c.Seeks missing ∧ b'.Lacks missing ∨ (b'.obey S invoke l c).1 = (b.obey S invoke l c).1) ∧
      Abreast missing past past' (b.obey S invoke l c).2 (b'.obey S invoke l c).2 := by
  have hattempt : (c.Seeks missing ∧ b'.Lacks missing ∨
        (b'.attempt S invoke c).1 = (b.attempt S invoke c).1) ∧
      Abreast missing past past' (b.attempt S invoke c).2 (b'.attempt S invoke c).2 := by
    unfold attempt
    cases hc : c.action with
    | error e => exact ⟨.inr rfl, h⟩
    | ok a =>
        obtain ⟨houtcome, hafter⟩ := h.perform (S := S) hi a
        exact ⟨houtcome.imp_left fun hmissing => ⟨⟨a, hc, hmissing.1⟩, hmissing.2⟩, hafter⟩
  obtain ⟨houtcome, hafter⟩ := hattempt
  have hdid : Event.Like missing (.did l c (b.attempt S invoke c).1)
      (.did l c (b'.attempt S invoke c).1) := by
    rcases houtcome with ⟨hseeks, -⟩ | heq
    · exact .sought l hseeks _ _
    · rw [heq]
      exact .same _
  exact ⟨houtcome, hafter.note hdid⟩

/-- A listener that makes the same moves leaves boards abreast. -/
theorem moveAll (h : Abreast missing past past' b b') (l : Option String) (ms : List (Move ε)) :
    Concur missing past past' (b.moveAll S invoke l ms) (b'.moveAll S invoke l ms) := by
  induction ms generalizing b b' with
  | nil => exact ⟨rfl, h⟩
  | cons m ms ih =>
      cases m with
      | panic => exact ⟨rfl, h⟩
      | command c => exact ih (h.obey hi l c).2

end

/-- To hand over a payload goes the same way on boards abreast. -/
theorem respected_handOver {body : Invoke σ ε} (hbody : Respected missing past past' body) :
    Respected missing past past' (handOver body) := by
  intro r p b b' h
  obtain ⟨hacts, hafter⟩ := h.hand r p
  unfold handOver
  simp only [hacts]
  split
  · exact hbody r p _ _ hafter
  · exact ⟨rfl, hafter⟩

/-- **Calls go the same way on boards abreast**, at every depth of nesting. -/
theorem respected_hear {react : React σ ε} (hreact : Indifferent missing past past' react)
    (limit : Nat) : Respected missing past past' (hear S react limit) := by
  induction limit with
  | zero => exact respected_handOver fun _ _ _ _ h => ⟨rfl, h⟩
  | succ limit ih =>
      refine respected_handOver fun r p b b' h => ?_
      rw [hreact r p b b' h]
      exact h.moveAll ih _ _

section

variable {react : React σ ε} (hreact : Indifferent missing past past' react) (limit : Nat)
include hreact

/-- A command from outside has the same outcome on boards abreast. -/
theorem step (h : Abreast missing past past' b b') (c : Command ε) :
    c.Seeks missing ∧ b'.Lacks missing ∨
      (b'.step S react limit c).1 = (b.step S react limit c).1 :=
  (h.obey (respected_hear hreact limit) none c).1

/-- **Whole runs keep boards abreast.** -/
theorem run (h : Abreast missing past past' b b') (cs : List (Command ε)) :
    Abreast missing past past' (run S react limit cs b) (run S react limit cs b') := by
  induction cs generalizing b b' with
  | nil => exact h
  | cons c cs ih => exact ih (h.obey (respected_hear hreact limit) none c).2

end

end Abreast

/-- Whether all that is done from now on goes the same way on two boards: the commands from
outside and, where publishes are in progress, what a listener still does and the calls that are
still due.  Only asking for an inbox that is missing may have another outcome. -/
structure SameFuture (missing : Option String) (S : Source σ ε) (react : React σ ε) (limit : Nat)
    (b b' : Switchboard σ ε) : Prop where
  runs (cs : List (Command ε)) :
    Abreast missing b.trace b'.trace (run S react limit cs b) (run S react limit cs b')
  outcomes (cs : List (Command ε)) (c : Command ε) :
    c.Seeks missing ∧ (run S react limit cs b').Lacks missing ∨
      ((run S react limit cs b').step S react limit c).1 =
        ((run S react limit cs b).step S react limit c).1
  moves (l : Option String) (ms : List (Move ε)) :
    Concur missing b.trace b'.trace (b.moveAll S (hear S react limit) l ms)
      (b'.moveAll S (hear S react limit) l ms)
  deliveries (p : Payload) (rs : List Registration) :
    Concur missing b.trace b'.trace (deliverAll (hear S react limit) p rs b)
      (deliverAll (hear S react limit) p rs b')

/-- **Boards abreast have the same future**, for listeners that do not look at what differs. -/
theorem Abreast.sameFuture {missing : Option String} {b b' : Switchboard σ ε}
    (h : Abreast missing b.trace b'.trace b b') {react : React σ ε}
    (hreact : Indifferent missing b.trace b'.trace react) (limit : Nat) :
    SameFuture missing S react limit b b' where
  runs := h.run hreact limit
  outcomes cs := (h.run hreact limit cs).step hreact limit
  moves := h.moveAll (respected_hear hreact limit)
  deliveries := h.deliverAll (respected_hear hreact limit)

/-- If no inbox is missing, every command has the same outcome. -/
theorem SameFuture.outcome_eq {react : React σ ε} {limit : Nat} {b b' : Switchboard σ ε}
    (h : SameFuture none S react limit b b') (cs : List (Command ε)) (c : Command ε) :
    ((run S react limit cs b').step S react limit c).1 =
      ((run S react limit cs b).step S react limit c).1 :=
  (h.outcomes cs c).resolve_left fun ⟨⟨_, _, _, hname, _⟩, _⟩ => nomatch hname

end Switchboard

end SlotWatch

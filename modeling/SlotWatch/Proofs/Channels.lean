import SlotWatch.Proofs.Counterpart
import SlotWatch.Proofs.Inboxes

/-!
# SlotWatch.Proofs.Channels

A channel is a lossless queue of the deliveries of its registration.

1. A channel has a number of its own, and so has its registration: a call of the one is a call of
   the other (`Serves`).
2. Hence the inbox gets what the registration is called with, and nothing else (`Carries`).
3. A command that closes the channel is final, and so is giving up the inbox; the latter makes no
   difference to anything else (`SameFuture`).
-/

namespace SlotWatch

variable {σ ε : Type}

namespace Switchboard

variable {S : Source σ ε} {name : String} {serial id : Nat}

/-! ## whose channel it is -/

/-- From `b` to `b'` the numbers of channels go on: what is live or due for a channel was so
before, or its channel has the next number. -/
structure GoesOn (b b' : Switchboard σ ε) : Prop where
  nextChannel_le : b.nextChannel ≤ b'.nextChannel
  of_known {r n k} : b'.registry.Knows b'.running.flatten r → r.callback = .channel n k →
    (∃ s, b.registry.Knows b.running.flatten s ∧ s.id = r.id ∧ s.callback = r.callback) ∨
      n = b.nextChannel ∧ n < b'.nextChannel

/-- Where nothing is registered. -/
theorem GoesOn.of_origin {b b' : Switchboard σ ε} (hnext : b'.nextChannel = b.nextChannel)
    (h : ∀ r, b'.registry.Knows b'.running.flatten r →
      ∃ s, b.registry.Knows b.running.flatten s ∧ s.id = r.id ∧ s.terms = r.terms) :
    GoesOn b b' := by
  refine ⟨hnext.ge, fun {r n k} hr _ => ?_⟩
  obtain ⟨s, hs, hid, hterms⟩ := h r hr
  exact .inl ⟨s, hs, hid, Registration.callback_eq_of_terms_eq hterms⟩

/-- Inboxes have no numbers to give out. -/
theorem goesOn_of_alike {b b' : Switchboard σ ε} (h : Alike b b')
    (hnext : b'.nextChannel = b.nextChannel) : GoesOn b b' := by
  refine .of_origin hnext fun r hr => ⟨r, ?_, rfl, rfl⟩
  rwa [h.registry, h.running] at hr

/-- A removal gives out no number. -/
theorem goesOn_withdraw (selected : Registration → Bool) (b : Switchboard σ ε) :
    GoesOn b (b.withdraw S selected).2 := by
  refine .of_origin ((framed_withdraw S selected).nextChannel_eq b) fun r hr => ⟨r, ?_, rfl, rfl⟩
  rw [withdraw_registry, withdraw_running] at hr
  exact Registry.knows_of_knows_withdraw hr

/-- Moving the default slot gives out no number. -/
theorem goesOn_setDefault (slot : Slot) (b : Switchboard σ ε) :
    GoesOn b (b.setDefault S slot).2 := by
  refine .of_origin ((framed_setDefault S slot).nextChannel_eq b) fun r hr => ?_
  rw [setDefault_running] at hr
  have hmoving := moving S slot b
  generalize (b.setDefault S slot).1 = o at hmoving
  generalize (b.setDefault S slot).2 = b' at hmoving hr
  cases hmoving with
  | outside | stayed => exact ⟨r, hr, rfl, rfl⟩
  | refused =>
      rw [startAll_registry] at hr
      exact ⟨r, hr, rfl, rfl⟩
  | moved =>
      rw [stopAll_registry, relocated_registry] at hr
      exact Registry.knows_of_knows_moveDefault hr

/-- Only a channel is registered for a channel, and it has the next number. -/
theorem serial_of_bid {a : Action ε} {channel n : Nat} {k : Kind} {bid : Bid}
    (ha : a.bid? channel = some bid) (hcallback : bid.callback = .channel n k) : n = channel := by
  cases a with
  | channel =>
      cases ha
      cases hcallback
      rfl
  | on =>
      cases ha
      contradiction
  | subscribe =>
      obtain ⟨kind, -, rfl⟩ := Option.map_eq_some_iff.mp ha
      contradiction
  | _ => contradiction

/-- A registration for a channel has the next number, which then goes on. -/
theorem goesOn_of_bid (invoke : Invoke σ ε) {a : Action ε} {bid : Bid} {b : Switchboard σ ε}
    (ha : a.bid? b.nextChannel = some bid) : GoesOn b (b.perform S invoke a).2 := by
  obtain ⟨-, halike, -, hle, hlt⟩ := perform_asking (S := S) invoke ha
  refine ⟨hle, fun {r n k} hr hcallback => ?_⟩
  rw [halike.registry, halike.running] at hr
  have hcases : Registering S bid.callback bid.kind bid.options bid.mode b (b.place S bid).1
    (b.place S bid).2 := registering S _ _ _ _ b
  generalize (b.place S bid).1 = o at hcases hlt
  generalize (b.place S bid).2 = b' at hcases hr
  rw [hcases.running_eq] at hr
  have hadded {selector : Option Slot} {id : Nat} (ho : o = .ok id)
      (hr : (b.registry.add bid.kind selector bid.callback bid.mode).Knows b.running.flatten r) :
      (∃ s, b.registry.Knows b.running.flatten s ∧ s.id = r.id ∧ s.callback = r.callback) ∨
        n = b.nextChannel ∧ n < (b.perform S invoke a).2.nextChannel := by
    rcases Registry.knows_of_knows_add hr with hr | rfl
    · exact .inl ⟨r, hr, rfl, rfl⟩
    · exact .inr ⟨serial_of_bid ha hcallback, hlt id ho n k hcallback⟩
  cases hcases with
  | unfit | repeated | refused => exact .inl ⟨r, hr, rfl, rfl⟩
  | joined => exact hadded rfl hr
  | started => exact hadded rfl hr

/-- Only to open a channel gives out a number. -/
theorem goesOn_perform (invoke : Invoke σ ε) {a : Action ε} (ha : a.quiet = true)
    (b : Switchboard σ ε) : GoesOn b (b.perform S invoke a).2 := by
  by_cases hremoval : a.isRemoval = true
  · rcases Action.removes_or_unknown hremoval with hremoves | ⟨event, listener, rfl, hevent⟩
    · rw [perform_removal S invoke hremoves]
      exact goesOn_withdraw _ b
    · rw [perform_unknown S invoke hevent]
      exact goesOn_of_alike (.refl b) rfl
  cases hbid : a.bid? b.nextChannel with
  | some bid => exact goesOn_of_bid invoke hbid
  | none =>
      cases a with
      | setDefault slot => exact goesOn_setDefault slot b
      | receive name =>
          refine goesOn_of_alike (alike_receive name b) ?_
          show (b.receive name).2.nextChannel = b.nextChannel
          unfold receive
          split <;> rfl
      | drop | validateSlot | listenerCount | compare | inspect | source =>
          exact goesOn_of_alike ⟨rfl, rfl, rfl⟩ rfl
      | subscribe event listener options mode =>
          have hevent : Named.ofName? Kind event = none := Option.map_eq_none_iff.mp hbid
          have hperform : (b.perform S invoke (.subscribe event listener options mode)).2 = b := by
            simp only [perform, answered, subscribe, hevent]
          rw [hperform]
          exact goesOn_of_alike (.refl b) rfl
      | off | unsubscribe | cancel => exact absurd rfl hremoval
      | on | channel | publish | update => contradiction

/-- The numbers of channels go on with every step. -/
theorem Advance.goesOn {b b' : Switchboard σ ε} (h : Advance S b b') : GoesOn b b' := by
  cases h with
  | obey invoke l c hc =>
      cases ha : c.action with
      | error e =>
          rw [obey_of_error ha]
          exact .of_origin rfl fun r hr => ⟨r, hr, rfl, rfl⟩
      | ok a =>
          rw [Command.quiet_of_action ha] at hc
          rw [obey_of_action ha]
          obtain ⟨hle, hknown⟩ := goesOn_perform (S := S) invoke hc b
          exact ⟨hle, hknown⟩
  | report => exact .of_origin rfl fun r hr => ⟨r, hr, rfl, rfl⟩
  | @launch kind p slot hp =>
      have hnext := (framed_stopAll S (b.registry.collect kind slot).released).nextChannel_eq
        (b.gathered kind slot p)
      refine .of_origin hnext fun r hr => ⟨r, ?_, rfl, rfl⟩
      rw [launch_registry, launch_running, List.flatten_cons] at hr
      exact Registry.knows_of_knows_collect hr
  | @skip r rs rest b hr ha =>
      refine .of_origin rfl fun s hs => ⟨s, ?_, rfl, rfl⟩
      rw [comeTo_registry, comeTo_running hr, List.flatten_cons] at hs
      rw [hr, List.flatten_cons, List.cons_append]
      exact Registry.knows_of_knows_claim hs
  | @call r rs rest b p hr ha hk =>
      have halike := alike_hand r p (b.comeTo r rs).2
      refine .of_origin (hand_nextChannel r p _) fun s hs => ⟨s, ?_, rfl, rfl⟩
      rw [halike.registry, halike.running, note_registry, note_running, comeTo_registry,
        comeTo_running hr, List.flatten_cons] at hs
      rw [hr, List.flatten_cons, List.cons_append]
      exact Registry.knows_of_knows_claim hs
  | land hr =>
      refine .of_origin rfl fun s hs => ⟨s, ?_, rfl, rfl⟩
      simp only [Switchboard.land, hr, List.tail_cons] at hs
      rwa [hr, List.flatten_cons, List.nil_append]
  | remark => exact .of_origin rfl fun r hr => ⟨r, hr, rfl, rfl⟩

/-- Whether every channel that something is live or due for has a number that was given out. -/
def SerialsGiven (b : Switchboard σ ε) : Prop :=
  ∀ r n k, b.registry.Knows b.running.flatten r → r.callback = .channel n k → n < b.nextChannel

/-- No channel has a number that is still to be given out. -/
theorem Reaches.serialsGiven {settings : SlotSettings} {source : σ} {b : Switchboard σ ε}
    (h : Reaches S (fresh settings source) b) : SerialsGiven b := by
  induction h with
  | refl =>
      intro r n k hr
      simp [Registry.Knows, fresh, Registry.ofSettings] at hr
  | tail _ hstep ih =>
      intro r n k hr hcallback
      rcases hstep.goesOn.of_known hr hcallback with ⟨s, hs, -, hsame⟩ | ⟨-, hlt⟩
      · exact Nat.lt_of_lt_of_le (ih s n k hs (hsame.trans hcallback)) hstep.goesOn.nextChannel_le
      · exact hlt

/-- A channel with a number and a kind is served by the registration of an id: whatever is live or
due for the channel has the id, and whatever has ever had the id was made for the channel. -/
structure Serves (serial id : Nat) (kind : Kind) (b : Switchboard σ ε) : Prop where
  pos : 0 < id
  serial_lt : serial < b.nextChannel
  alone {r k} : b.registry.Knows b.running.flatten r → r.callback = .channel serial k → r.id = id
  stands : ∃ selector, Stands id (kind, selector, .channel serial kind, .repeating) b.registry
    b.running.flatten (story b.trace)

namespace Serves

variable {kind : Kind} {b : Switchboard σ ε}

/-- A channel keeps its registration. -/
theorem reaches {b' : Switchboard σ ε} (h : Serves serial id kind b) (hreach : Reaches S b b') :
    Serves serial id kind b' := by
  induction hreach with
  | refl => exact h
  | tail _ hstep ih =>
      refine ⟨h.pos, Nat.lt_of_lt_of_le ih.serial_lt hstep.goesOn.nextChannel_le,
        fun {r k} hr hcallback => ?_, ?_⟩
      · rcases hstep.goesOn.of_known hr hcallback with ⟨s, hs, hid, hsame⟩ | ⟨hnext, -⟩
        · exact hid.symm.trans (ih.alone hs (hsame.trans hcallback))
        · exact absurd hnext (Nat.ne_of_lt ih.serial_lt)
      · obtain ⟨selector, hstands⟩ := ih.stands
        exact ⟨selector, (upheld_stands _ _).kept.advance hstep hstands⟩

/-- What goes by the id was made for the channel. -/
theorem of_id (h : Serves serial id kind b) {r : Registration}
    (hr : b.registry.Knows b.running.flatten r) (hid : r.id = id) :
    r.kind = kind ∧ r.callback = .channel serial kind ∧ r.mode = .repeating := by
  obtain ⟨selector, hstands⟩ := h.stands
  have hterms := hstands.known hr hid
  exact ⟨congrArg (fun t => t.1) hterms, congrArg (fun t => t.2.2.1) hterms,
    congrArg (fun t => t.2.2.2) hterms⟩

/-- What is live or due for a channel is its registration. -/
theorem id_iff (h : Serves serial id kind b) {r : Registration}
    (hr : b.registry.Knows b.running.flatten r) :
    r.id = id ↔ ∃ k, r.callback = .channel serial k :=
  ⟨fun hid => ⟨kind, (h.of_id hr hid).2.1⟩, fun ⟨_, hcallback⟩ => h.alone hr hcallback⟩

/-- The registration is live as long as it has not been removed. -/
theorem live_iff (h : Serves serial id kind b)
    (hb : InOrder b.registry b.running.flatten (story b.trace)) :
    (∃ r ∈ b.registry.live, r.id = id) ↔ ∀ s ∈ removals b.trace, s.id ≠ id := by
  have harmed : id ∈ b.registry.armed ↔ ∀ s ∈ removals b.trace, s.id ≠ id := by
    obtain ⟨selector, hstands⟩ := h.stands
    rw [hb.2.mem_armed, removals_story]
    refine ⟨fun ha => ha.2.2.1, fun hs => ⟨h.pos, hstands.lt_nextId, hs, fun c hc hmode hid => ?_⟩⟩
    have hrepeating : c.mode = .repeating := congrArg (fun t => t.2.2.2) (hstands.called hc hid)
    rw [hrepeating] at hmode
    contradiction
  rw [← harmed]
  constructor
  · rintro ⟨r, hr, rfl⟩
    exact hb.1.armed_of_live hr
  · intro ha
    obtain ⟨r, hr | hr, hid⟩ := hb.1.of_armed ha
    · exact ⟨r, hr, hid⟩
    · -- only a one-shot waits
      obtain ⟨hdue, hmode, -⟩ := hb.1.mem_waiting.mp hr
      rw [(h.of_id (.inr hdue) hid).2.2] at hmode
      contradiction

/-- With no publish in progress, the channel is closed if its registration has left. -/
theorem closed_iff (h : Serves serial id kind b) (hrunning : b.running = []) {inbox : Inbox}
    (hserial : inbox.serial = serial) (hkind : inbox.kind = kind) :
    b.closed inbox = true ↔ ∀ r ∈ b.registry.live, r.id ≠ id := by
  simp only [closed, hrunning, hserial, hkind, List.any_nil, Bool.not_false, Bool.and_true,
    Bool.not_eq_true', List.any_eq_false, beq_iff_eq]
  refine forall₂_congr fun r hr => not_congr ⟨h.alone (.inl hr), fun hid => ?_⟩
  exact (h.of_id (.inl hr) hid).2.1

end Serves

/-- **While it is kept, the inbox of a channel loses nothing**, and gets nothing but what the
registration is called with. -/
theorem Reaches.carries {settings : SlotSettings} {source : σ} {kind : Kind}
    {b m : Switchboard σ ε} (h : Reaches S (fresh settings source) b)
    (hserves : Serves serial id kind b) (hm : Reaches S b m) : Carries name serial id b m := by
  induction hm with
  | refl => exact .refl b
  | @tail c _ hreach hstep ih =>
      have hc : Serves serial id kind c := hserves.reaches hreach
      have hboard : Reaches S (fresh settings source) c := h.trans hreach
      have hcarries : Carries name serial id c _ :=
        hstep.carries hboard.suited fun r hr => hc.id_iff (.inr hr)
      exact ih.trans hcarries (Reaches.suffix hreach) (Reaches.suffix (.single hstep))

/-- The registration of a channel is a new one. -/
theorem registry_of_opened {b : Switchboard σ ε} (hserials : SerialsGiven b) {kind : Kind}
    {options : Option Options} (ho : (b.openChannel S name kind options).1 = .ok id) :
    id = b.registry.nextId ∧ ∃ selector, (b.openChannel S name kind options).2.registry =
      b.registry.add kind selector (.channel b.nextChannel kind) .repeating := by
  have hnumbered : ChannelsNumbered b := fun r hr n k => hserials r n k (.inl hr)
  rw [openChannel_outcome] at ho
  rw [(alike_openChannel name kind options b).registry]
  have hcases := registering S (.channel b.nextChannel kind) kind options .repeating b
  generalize (b.register S (.channel b.nextChannel kind) kind options .repeating).1 = o at hcases ho
  generalize (b.register S (.channel b.nextChannel kind) kind options .repeating).2 = b' at hcases
  cases hcases with
  | unfit | refused => contradiction
  | repeated _ hd =>
      rw [hnumbered.duplicate?_eq_none] at hd
      contradiction
  | joined | started =>
      cases ho
      exact ⟨rfl, _, rfl⟩

/-- **A channel that is opened** is served by the registration whose id is the answer, and has an
inbox in which nothing waits. -/
theorem serves_of_opened {settings : SlotSettings} {source : σ} {b : Switchboard σ ε}
    (h : Reaches S (fresh settings source) b) {invoke : Invoke σ ε} {l : Option String}
    {c : Command ε} {kind : Kind} {options : Option Options}
    (hc : c.action = .ok (.channel name kind options))
    (ho : (b.obey S invoke l c).1 = .ok (.id id)) :
    Serves b.nextChannel id kind (b.obey S invoke l c).2 ∧
      (b.obey S invoke l c).2.inbox? name = some { serial := b.nextChannel, kind } := by
  have hafter : Reaches S (fresh settings source) (b.obey S invoke l c).2 :=
    h.tail (.obey invoke l c (Command.quiet_of_action hc) b)
  rw [obey_of_action hc] at ho hafter ⊢
  rcases opened S name kind options b with ⟨e, herror, -⟩ | ⟨given, hok, hnext, hinbox⟩
  · rw [perform, answered, herror] at ho
    contradiction
  have hgiven : given = id := by
    rw [perform, answered, hok] at ho
    cases ho
    rfl
  subst hgiven
  obtain ⟨rfl, selector, hregistry⟩ := registry_of_opened h.serialsGiven hok
  have hrunning : (b.openChannel S name kind options).2.running = b.running := by
    rw [(alike_openChannel name kind options b).running, register_running]
  -- the registration that has been made
  let r := b.registry.made kind selector (.channel b.nextChannel kind) .repeating
  have hlive : r ∈ (b.openChannel S name kind options).2.registry.live := by
    rw [hregistry]
    exact Registry.mem_live_add.mpr (.inr rfl)
  refine ⟨⟨hafter.numbered.2 r (.inl hlive), ?_, fun {s k} hs hcallback => ?_, selector, ?_⟩, ?_⟩
  · exact hnext ▸ Nat.lt_succ_self _
  · have hs : (b.registry.add kind selector (.channel b.nextChannel kind) .repeating).Knows
        b.running.flatten s := by
      rw [← hregistry, ← hrunning]
      exact hs
    rcases Registry.knows_of_knows_add hs with hs | rfl
    · exact absurd (h.serialsGiven s _ k hs hcallback) (Nat.lt_irrefl _)
    · rfl
  · exact hafter.inOrder.stands (.inl hlive)
  · exact (hinbox name).trans (if_pos rfl)

/-! ## the command that opened it -/

/-- A command that calls nobody and is on the trace was carried out on a board on the way. -/
theorem Reaches.obeyed {b m : Switchboard σ ε} (h : Reaches S b m) {l : Option String}
    {c : Command ε} (hc : c.quiet = true) {o : Outcome σ} {t : List (Event σ ε)}
    (hs : (.did l c o :: t) <:+ m.trace) :
    (.did l c o :: t) <:+ b.trace ∨ ∃ invoke d, Reaches S b d ∧ (d.obey S invoke l c).1 = o ∧
      (d.obey S invoke l c).2.trace = .did l c o :: t ∧ Reaches S (d.obey S invoke l c).2 m := by
  induction h with
  | refl => exact .inl hs
  | @tail d m hreach hstep ih =>
      rcases hstep.obeyed hc hs with hs | ⟨invoke, rfl, ho, htrace⟩
      · refine (ih hs).imp_right ?_
        rintro ⟨invoke, d', hd', ho, htrace, hlater⟩
        exact ⟨invoke, d', hd', ho, htrace, hlater.tail hstep⟩
      · exact .inr ⟨invoke, d, hreach, ho, htrace, .refl⟩

end Switchboard

/-! ## closing a channel, and giving up its inbox -/

/-- Whether a command asks for the removal of the registration of a channel. -/
def Command.Closes (id : Nat) (kind : Kind) (c : Command ε) : Prop :=
  c.action = .ok (.cancel id) ∨ c.action = .ok (.off kind none) ∨
    ∃ event, Named.ofName? Kind event = some kind ∧ c.action = .ok (.unsubscribe event none)

/-- A command asks for the removal of a channel by its id or by removing all of its kind. -/
theorem Command.removes_iff_closes {r : Registration} {serial : Nat} {k : Kind}
    (hr : r.callback = .channel serial k) {c : Command ε} :
    c.removes r ↔ c.Closes r.id r.kind := by
  constructor
  · rintro ⟨a, hc, ha⟩
    cases a with
    | off kind listener =>
        obtain ⟨rfl, hlistener⟩ := ha
        cases listener with
        | none => exact .inr (.inl hc)
        | some l =>
            have hcallback := hlistener l rfl
            rw [hr] at hcallback
            contradiction
    | unsubscribe event listener =>
        obtain ⟨hevent, hlistener⟩ := ha
        cases listener with
        | none => exact .inr (.inr ⟨event, hevent, hc⟩)
        | some l =>
            have hcallback := hlistener l rfl
            rw [hr] at hcallback
            contradiction
    | cancel n =>
        cases (ha : r.id = n)
        exact .inl hc
    | _ => contradiction
  · rintro (hc | hc | ⟨event, hevent, hc⟩)
    · exact ⟨_, hc, rfl⟩
    · exact ⟨_, hc, rfl, nofun⟩
    · exact ⟨_, hc, hevent, nofun⟩

theorem Command.quiet_of_closes {id : Nat} {kind : Kind} {c : Command ε} (h : c.Closes id kind) :
    c.quiet = true := by
  rcases h with hc | hc | ⟨event, -, hc⟩ <;> exact Command.quiet_of_action hc

namespace Switchboard

variable {S : Source σ ε} {name : String} {serial id : Nat} {kind : Kind}

section

variable {settings : SlotSettings} {source : σ} {b : Switchboard σ ε} {c : Command ε}

/-- A command that closes a channel removes its registration. -/
theorem Serves.not_live_of_closes (h : Serves serial id kind b)
    (hb : Reaches S (fresh settings source) b) (hc : c.Closes id kind) (invoke : Invoke σ ε)
    (l : Option String) {r : Registration} (hr : r ∈ (b.obey S invoke l c).2.registry.live) :
    r.id ≠ id := by
  -- a registration that the command asks to be removed
  let like : Registration :=
    { id, kind, selector := none, observed := 0, callback := .channel serial kind
      mode := .repeating }
  obtain ⟨a, hok, ha⟩ : c.removes like := (Command.removes_iff_closes rfl).mpr hc
  rw [(without_obey hb invoke l hok ⟨like, ha⟩).live_eq] at hr
  obtain ⟨hlive, hkept⟩ := List.mem_filter.mp hr
  rintro rfl
  obtain ⟨rfl, hcallback, -⟩ := h.of_id (.inl hlive) rfl
  obtain ⟨a', hok', hremoves⟩ := (Command.removes_iff_closes hcallback).mpr hc
  cases hok.symm.trans hok'
  exact of_decide_eq_true hkept hremoves

/-- **What has been closed is not fed any more.** -/
theorem Serves.handed_of_closes (h : Serves serial id kind b)
    (hb : Reaches S (fresh settings source) b) (hc : c.Closes id kind) {invoke : Invoke σ ε}
    {l : Option String} {m : Switchboard σ ε} (hm : Reaches S (b.obey S invoke l c).2 m)
    {newest : List (Event σ ε)} (htrace : m.trace = newest ++ (b.obey S invoke l c).2.trace) :
    handed id newest.reverse = [] := by
  have hafter : Reaches S b (b.obey S invoke l c).2 :=
    .single (.obey invoke l c (Command.quiet_of_closes hc) b)
  have hclosed : Reaches S (fresh settings source) (b.obey S invoke l c).2 := hb.trans hafter
  have hlater : Reaches S (fresh settings source) m := hclosed.trans hm
  have hremoved : ∃ s ∈ removals (b.obey S invoke l c).2.trace, s.id = id := by
    by_contra hnone
    push Not at hnone
    obtain ⟨r, hr, hid⟩ := ((h.reaches hafter).live_iff hclosed.inOrder).mpr hnone
    exact h.not_live_of_closes hb hc invoke l hr hid
  obtain ⟨s, hs, rfl⟩ := hremoved
  refine List.filterMap_eq_nil_iff.mpr fun e he => ?_
  have hnot {r : Registration} (hcalled : e.called? = some r) : r.id ≠ s.id :=
    hlater.not_called_of_removed htrace hs
      (List.mem_filterMap.mpr ⟨e, List.mem_reverse.mp he, hcalled⟩)
  cases e with
  | delivered r p | mismatched r p => exact if_neg (hnot rfl)
  | _ => rfl

end

/-- What is handed over has been offered. -/
theorem offered_of_handed? {e : Event σ ε} {p : Payload} (h : e.handed? id = some p) :
    ∃ r, (r, p) ∈ e.offers ∧ r.id = id := by
  cases e with
  | delivered r q | mismatched r q =>
      by_cases hid : r.id = id
      · cases (if_pos hid).symm.trans h
        exact ⟨r, List.mem_singleton_self _, hid⟩
      · cases (if_neg hid).symm.trans h
  | _ => contradiction

/-- **Giving up an inbox** changes nothing else. -/
theorem abreast_of_drop {c : Command ε} (hc : c.action = .ok (.drop name)) (invoke : Invoke σ ε)
    (l : Option String) (b : Switchboard σ ε) :
    Abreast (some name) b.trace (b.obey S invoke l c).2.trace b (b.obey S invoke l c).2 := by
  rw [obey_of_action hc]
  refine ⟨rfl, rfl, rfl, rfl, fun n => ?_, [], [], rfl, rfl, .nil⟩
  have hinbox := inbox?_dropInbox name n b
  by_cases hn : n = name
  · rw [if_pos hn] at hinbox
    exact .inr ⟨by rw [hn]; rfl, hinbox⟩
  · rw [if_neg hn] at hinbox
    exact .inl hinbox

/-! ## a lossless queue -/

/-- **A channel is a lossless queue of the deliveries of its registration**, on every board that a
run can reach.  Once a command has opened a channel under a name and has been given an id,

* as long as the inbox is kept, what has been taken from it and what waits in it are, in order,
  what the registration of the id has been called with; and with no publish in progress the
  channel is closed just if no live registration has the id;
* these are values of the kind of the channel;
* after a command to cancel the id, or to remove all callbacks of the kind, nothing more is added;
* to give up the inbox changes no registration and, for listeners that do not look at it, the
  outcome of nothing that is done later, as long as nobody asks for the inbox. -/
theorem channel_lossless {settings : SlotSettings} {source : σ} {m : Switchboard σ ε}
    (h : Reaches S (fresh settings source) m) {l : Option String} {c : Command ε}
    {options : Option Options} (hc : c.action = .ok (.channel name kind options))
    {later earlier : List (Event σ ε)}
    (htrace : m.trace = later ++ .did l c (.ok (.id id)) :: earlier) :
    ((∀ e ∈ later, e.abandons name = false) → ∃ inbox, m.inbox? name = some inbox ∧
      fetched name later.reverse ++ inbox.waiting = handed id later.reverse ∧
      (m.running = [] → (m.closed inbox = true ↔ ∀ r ∈ m.registry.live, r.id ≠ id))) ∧
    (∀ p ∈ handed id later.reverse, p.Holds kind) ∧
    (∀ newest l' c' o' older, later = newest ++ .did l' c' o' :: older → c'.Closes id kind →
      handed id newest.reverse = []) ∧
    ∀ invoke l' c', c'.action = .ok (.drop name) →
      (m.obey S invoke l' c').2.registry = m.registry ∧
      ∀ react, Indifferent (some name) m.trace (m.obey S invoke l' c').2.trace react →
        ∀ limit, SameFuture (some name) S react limit m (m.obey S invoke l' c').2 := by
  have hquiet : c.quiet = true := Command.quiet_of_action hc
  -- the board on which the channel was opened
  obtain ⟨invoke, b, hb, ho, hopened, hm⟩ :=
    (h.obeyed hquiet ⟨later, htrace.symm⟩).resolve_left fun hs =>
      absurd (List.suffix_nil.mp hs) (List.cons_ne_nil _ _)
  obtain ⟨hserves, hinbox⟩ := serves_of_opened hb hc ho
  have hafter : Reaches S (fresh settings source) (b.obey S invoke l c).2 :=
    hb.tail (.obey invoke l c hquiet b)
  have hservesm := hserves.reaches hm
  rw [← hopened] at htrace
  have hsince : (b.obey S invoke l c).2.since m = later.reverse := since_eq_reverse htrace.symm
  refine ⟨fun hkept => ?_, fun p hp => ?_, fun newest l' c' o' older hlater hcloses => ?_,
    fun invoke' l' c' hdrop => ?_⟩
  · have hcarries : Carries name b.nextChannel id (b.obey S invoke l c).2 m :=
      hafter.carries hserves hm
    rw [Carries, hsince] at hcarries
    obtain ⟨inbox, hsome, hserial, hkind, hqueue⟩ :=
      hcarries _ hinbox rfl fun e he => hkept e (List.mem_reverse.mp he)
    exact ⟨inbox, hsome, hqueue.symm, fun hrest => hservesm.closed_iff hrest hserial hkind⟩
  · have hdid : .did l c (.ok (.id id)) ∈ m.trace := by
      rw [htrace, hopened]
      exact List.mem_append_right _ List.mem_cons_self
    obtain ⟨e, he, hp⟩ := List.mem_filterMap.mp hp
    obtain ⟨r, hr, hid⟩ := offered_of_handed? hp
    have he : e ∈ m.trace := by
      rw [htrace]
      exact List.mem_append_left _ (List.mem_reverse.mp he)
    have hwants : c.Wants p := h.wants hdid (List.mem_flatMap.mpr ⟨e, he, hr⟩) hid
    rwa [Command.Wants, hc] at hwants
  · have hsplit : m.trace =
        newest ++ .did l' c' o' :: (older ++ (b.obey S invoke l c).2.trace) := by
      rw [htrace, hlater, List.append_assoc, List.cons_append]
    rcases hm.obeyed (Command.quiet_of_closes hcloses) ⟨newest, hsplit.symm⟩ with
      hs | ⟨invoke', d, hd, -, hclosed, hm'⟩
    · have hlength := hs.length_le
      simp only [List.length_cons, List.length_append] at hlength
      omega
    · have hboard : Reaches S (fresh settings source) d := hafter.trans hd
      rw [← hclosed] at hsplit
      exact (hserves.reaches hd).handed_of_closes hboard hcloses hm' hsplit
  · have habreast := abreast_of_drop (S := S) hdrop invoke' l' m
    exact ⟨habreast.registry_eq, fun react hreact limit => habreast.sameFuture hreact limit⟩

/-! ### a sample channel -/

namespace Sample

/-- Two values arrive, of which the first is taken before the second; then the channel is closed,
and a third value is published. -/
def mailbox : List (Command Bench.Control) :=
  [ask (.channel "box" .voiceMail none), ask (.publish .voiceMail none (.voiceMail true)),
    ask (.receive "box"), ask (.publish .voiceMail none (.voiceMail false)), ask (.cancel 1),
    ask (.publish .voiceMail none (.voiceMail true))]

def mailed : Switchboard Bench Bench.Control :=
  run Bench.source react 1 mailbox (fresh settings bench)

/-- What happened after the channel was opened, latest first. -/
def mails : List (Event Bench Bench.Control) := mailed.trace.take 12

/-- The inbox has been given up. -/
def unmailed : Switchboard Bench Bench.Control :=
  (mailed.obey Bench.source (hear Bench.source react 1) none (ask (.drop "box"))).2

end Sample

/-- What was taken and what waits are the two values that arrived before the channel was closed. -/
theorem channel_lossless_mailbox :
    Reaches Bench.source (fresh Sample.settings Sample.bench) Sample.mailed ∧
    (∀ e ∈ Sample.mails, e.abandons "box" = false) ∧
    (∃ inbox, Sample.mailed.inbox? "box" = some inbox ∧
      [.voiceMail true] ++ inbox.waiting = [.voiceMail true, .voiceMail false] ∧
      Sample.mailed.closed inbox = true) ∧
    handed 1 (Sample.mails.take 2).reverse = [] ∧
    Sample.unmailed.registry = Sample.mailed.registry ∧
    SameFuture (some "box") Bench.source Sample.react 1 Sample.mailed Sample.unmailed :=
  have hreach : Reaches Bench.source (fresh Sample.settings Sample.bench) Sample.mailed :=
    (settles_run Sample.react 1 Sample.mailbox (fresh Sample.settings Sample.bench)).1
  have htrace : Sample.mailed.trace = Sample.mails ++
      .did none (Sample.ask (.channel "box" .voiceMail none)) (.ok (.id 1)) ::
        Sample.mailed.trace.drop 13 := rfl
  have hkept : ∀ e ∈ Sample.mails, e.abandons "box" = false := by decide
  have hlossless := channel_lossless hreach rfl htrace
  have ⟨inbox, hinbox, hqueue, hclosed⟩ := hlossless.1 hkept
  have hended := hlossless.2.2.1 (Sample.mails.take 2) none (Sample.ask (.cancel 1))
    (.ok (.flag true)) (Sample.mails.drop 3) rfl (.inl rfl)
  have hdropped := hlossless.2.2.2 (hear Bench.source Sample.react 1) none
    (Sample.ask (.drop "box")) rfl
  ⟨hreach, hkept, ⟨inbox, hinbox, hqueue, (hclosed rfl).mpr (by decide)⟩, hended, hdropped.1,
    hdropped.2 Sample.react (fun _ _ _ _ _ => rfl) 1⟩

end Switchboard

end SlotWatch

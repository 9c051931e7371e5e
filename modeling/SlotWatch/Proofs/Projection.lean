import SlotWatch.Proofs.Access
import SlotWatch.Proofs.Aspect
import SlotWatch.Proofs.Conservation

/-!
# SlotWatch.Proofs.Projection

Two switchboards that show the same aspect of a kind.

1. An operation about the kind has the same result on both, up to ids, and then they show the
   same aspect again: `place_of_like`, `withdraw_of_like`, `publish_of_like` and
   `setDefault_of_like`.
2. An operation about another kind leaves the aspect as it is: `aspect_place_other`,
   `aspect_withdraw_other` and `aspect_publish_other`.
3. Operations that make no registration leave no other registrations than there were, and
   change no more than these, the default slot and the trace (`Leaves`).
-/

namespace SlotWatch

variable {σ ε : Type}

/-! ## callbacks -/

/-- Only channels lose their numbers, so a listener for values is still told. -/
theorem Callback.anonymous_eq_typed {callback : Callback} {l : String} {kind : Kind} :
    callback.anonymous = .typed l kind ↔ callback = .typed l kind := by
  cases callback <;> simp [anonymous]

theorem Callback.anonymous_eq_whole {callback : Callback} {l : String} :
    callback.anonymous = .whole l ↔ callback = .whole l := by
  cases callback <;> simp [anonymous]

/-- What an action asks for does not depend on the channels there are, but for the number of its
own. -/
theorem Action.bid?_agree {a : Action ε} {channel channel' : Nat} {bid bid' : Bid}
    (h : a.bid? channel = some bid) (h' : a.bid? channel' = some bid') :
    bid'.kind = bid.kind ∧ bid'.options = bid.options ∧ bid'.mode = bid.mode ∧
      bid'.callback.anonymous = bid.callback.anonymous := by
  cases a with
  | on | channel =>
      cases h
      cases h'
      exact ⟨rfl, rfl, rfl, rfl⟩
  | subscribe event l options mode =>
      obtain ⟨kind, hkind, rfl⟩ := Option.map_eq_some_iff.mp h
      obtain ⟨kind', hkind', rfl⟩ := Option.map_eq_some_iff.mp h'
      cases hkind.symm.trans hkind'
      exact ⟨rfl, rfl, rfl, rfl⟩
  | _ => contradiction

/-- A registration with a callback that every registration can be told from is found by how
registrations are seen. -/
theorem Registry.duplicate?_seen {g : Registry} {kind : Kind} {selector : Option Slot}
    {callback : Callback} {mode : Mode} (rename : Nat → Nat)
    (hcallback : ∀ c : Callback, c.anonymous = callback ↔ c = callback) :
    (g.duplicate? kind selector callback mode).map (Registration.seen rename) =
      (view kind rename g.live).find? fun r =>
        r.selector == selector && r.callback == callback && r.mode == mode := by
  unfold Registry.duplicate? view
  rw [List.find?_map, List.find?_filter]
  refine congrArg _ (congrArg (g.live.find? ·) (funext fun r => ?_))
  rw [Bool.eq_iff_iff]
  simp [Registration.seen, hcallback, and_assoc]

namespace Switchboard

variable {S : Source σ ε} {kind : Kind} {rename : Nat → Nat} {b b' : Switchboard σ ε}

/-! ## channels -/

/-- Whether every live channel has a number below that of the next one. -/
def ChannelsNumbered (b : Switchboard σ ε) : Prop :=
  ∀ r ∈ b.registry.live, ∀ serial kind, r.callback = .channel serial kind → serial < b.nextChannel

/-- So the next channel repeats none. -/
theorem ChannelsNumbered.duplicate?_eq_none (h : ChannelsNumbered b) (about about' : Kind)
    (selector : Option Slot) (mode : Mode) :
    b.registry.duplicate? about selector (.channel b.nextChannel about') mode = none := by
  refine Registry.duplicate?_eq_none_iff.mpr fun r hr hterms => ?_
  have hlt := h r hr b.nextChannel about' (congrArg (fun t => t.2.2.1) hterms)
  exact Nat.lt_irrefl _ hlt

/-! ## what is left -/

/-- From `b` to `b'` no registration has been made. -/
structure Leaves (b b' : Switchboard σ ε) : Prop where
  source_eq : b'.source = b.source
  nextId_eq : b'.registry.nextId = b.registry.nextId
  nextChannel_le : b.nextChannel ≤ b'.nextChannel
  of_live {r} : r ∈ b'.registry.live → ∃ s ∈ b.registry.live, s.terms = r.terms

theorem Leaves.refl (b : Switchboard σ ε) : Leaves b b := ⟨rfl, rfl, le_rfl, fun hr => ⟨_, hr, rfl⟩⟩

/-- A removal makes nobody. -/
theorem leaves_withdraw (hS : S.Grants b.source) (selected : Registration → Bool) :
    Leaves b (b.withdraw S selected).2 := by
  rw [withdraw_of_grants hS]
  exact ⟨rfl, rfl, le_rfl, fun hr => ⟨_, (Registry.mem_live_withdraw.mp hr).1, rfl⟩⟩

/-- Moving the default slot makes nobody. -/
theorem leaves_setDefault (hS : S.Grants b.source) (slot : Slot) :
    Leaves b (b.setDefault S slot).2 := by
  by_cases hslot : slot < 0 ∨ b.registry.slotCount ≤ slot
  · unfold setDefault
    rw [if_pos hslot]
    exact .refl b
  by_cases hsame : b.registry.defaultSlot = slot
  · unfold setDefault
    rw [if_neg hslot, if_pos hsame]
    exact .refl b
  rw [setDefault_of_grants hS hslot hsame]
  refine ⟨rfl, rfl, le_rfl, fun hr => ?_⟩
  obtain ⟨s, hs, rfl⟩ := List.mem_map.mp hr
  exact ⟨s, hs, (s.moved_terms slot).symm⟩

/-- If listeners perform no command, a publish makes nobody. -/
theorem leaves_publish (hS : S.Grants b.source) {react : React σ ε} (hidle : Idle react)
    (limit : Nat) {settings : SlotSettings} {source : σ}
    (h : Reaches S (fresh settings source) b) (about : Kind) (slot : Option Slot) (p : Payload) :
    Leaves b (b.publish S (hear S react limit) about slot p).2 := by
  by_cases hp : Permitted b.registry about slot p
  · obtain ⟨-, hlulled, -⟩ := publish_of_idle (S := S) hidle limit h hp
    rw [launch_of_grants hS] at hlulled
    refine ⟨hlulled.source_eq, hlulled.nextId_eq, hlulled.nextChannel_eq.ge, fun hr => ?_⟩
    rw [hlulled.live_eq] at hr
    exact ⟨_, (Registry.mem_live_collect.mp hr).1, rfl⟩
  · obtain ⟨e, hpublish, -⟩ := publish_of_not_permitted (S := S) (hear S react limit) hp
    rw [hpublish]
    exact .refl b

/-! ## operations about another kind -/

section

variable (hS : S.Grants b.source)
include hS

/-- A registration of another kind does not show. -/
theorem aspect_place_other {bid : Bid} (hkind : bid.kind ≠ kind) :
    (b.place S bid).2.aspect kind rename = b.aspect kind rename := by
  unfold place
  cases hs : b.registry.selector bid.kind bid.options with
  | error e =>
      simp only [register, hs]
  | ok selector =>
      cases hd : b.registry.duplicate? bid.kind selector bid.callback bid.mode with
      | some r => simp only [register, hs, hd]
      | none =>
          rw [aspect_register hS hs hd, view_of_kind_ne hkind, List.append_nil]
          exact Aspect.become_self _

/-- A removal of other kinds does not show. -/
theorem aspect_withdraw_other {selected : Registration → Bool}
    (hselected : ∀ r ∈ b.registry.live, r.kind = kind → selected r = false) :
    (b.withdraw S selected).2.aspect kind rename = b.aspect kind rename := by
  have hall : (b.aspect kind rename).live.filter (fun _ => !false) =
      (b.aspect kind rename).live :=
    List.filter_eq_self.mpr fun _ _ => rfl
  rw [aspect_withdraw hS (p := fun _ => false) hselected, hall]
  exact Aspect.become_self _

/-- A publish of another kind does not show. -/
theorem aspect_publish_other {react : React σ ε} (hidle : Idle react) (limit : Nat)
    {settings : SlotSettings} {source : σ} (h : Reaches S (fresh settings source) b)
    {about : Kind} (hkind : about ≠ kind) (slot : Option Slot) (p : Payload) :
    (b.publish S (hear S react limit) about slot p).2.aspect kind rename =
      b.aspect kind rename := by
  by_cases hp : Permitted b.registry about slot p
  · rw [aspect_publish hS hidle limit h hp]
    refine Aspect.publish_of_kind_ne (fun r hr => ?_) _ p
    obtain ⟨s, -, hs, rfl⟩ := mem_view.mp hr
    exact fun habout => hkind (habout.symm.trans hs)
  · obtain ⟨e, hpublish, -⟩ := publish_of_not_permitted (S := S) (hear S react limit) hp
    rw [hpublish]

end

/-! ## operations about the kind -/

/-- How registrations of a kind that are asked for on both boards are placed: there is nothing to
make on either, or they are made and are seen alike if their ids are. -/
inductive Placing (S : Source σ ε) (kind : Kind) (rename : Nat → Nat) (b b' : Switchboard σ ε)
    (bid bid' : Bid) : Prop where
  | kept (o : Except Failure Nat) (hb : b.place S bid = (o, b))
      (hb' : b'.place S bid' = (o.map rename, b'))
  | made (ho : (b.place S bid).1 = .ok b.registry.nextId)
      (ho' : (b'.place S bid').1 = .ok b'.registry.nextId)
      (hnext : (b.place S bid).2.registry.nextId = b.registry.nextId + 1)
      (hnext' : (b'.place S bid').2.registry.nextId = b'.registry.nextId + 1)
      (hlike : rename b.registry.nextId = b'.registry.nextId →
        (b'.place S bid').2.aspect kind id = (b.place S bid).2.aspect kind rename)

/-- How many are removed from a kind is seen in its aspect. -/
theorem length_removed {settings : SlotSettings} {source : σ}
    (h : Reaches S (fresh settings source) b) (hrunning : b.running = [])
    {selected p : Registration → Bool}
    (hp : ∀ r ∈ b.registry.live, r.kind = kind → selected r = p (r.seen rename))
    (hkind : ∀ r ∈ b.registry.live, selected r = true → r.kind = kind) :
    (b.registry.withdraw selected).removed.length =
      ((b.aspect kind rename).live.filter p).length := by
  have hview : view kind rename (b.registry.live.filter selected) =
      (b.aspect kind rename).live.filter p := view_filter hp
  rw [(h.removed_perm selected).length_eq, present_of_idle hrunning, ← hview]
  refine (length_view fun r hr => ?_).symm
  obtain ⟨hr, hselected⟩ := List.mem_filter.mp hr
  exact hkind r hr hselected

/-- How many an event is for is seen in the aspect of its kind. -/
theorem length_audience (kind : Kind) (rename : Nat → Nat) (b : Switchboard σ ε) (slot : Slot) :
    ((b.aspect kind rename).audience kind slot).length =
      (roster b.registry kind slot).length := by
  rw [← view_roster]
  exact length_view fun r hr => (of_decide_eq_true (List.mem_filter.mp hr).2).1

section

variable (hlike : b'.aspect kind id = b.aspect kind rename)
include hlike

theorem live_of_like : view kind id b'.registry.live = view kind rename b.registry.live :=
  congrArg Aspect.live hlike

theorem slotCount_of_like : b'.registry.slotCount = b.registry.slotCount :=
  congrArg Aspect.slotCount hlike

theorem defaultSlot_of_like : b'.registry.defaultSlot = b.registry.defaultSlot :=
  congrArg Aspect.defaultSlot hlike

/-- Aspects that are equal have the same slots. -/
theorem validateSlot_of_like (about : Kind) (slot : Slot) :
    b'.registry.validateSlot about slot = b.registry.validateSlot about slot :=
  Registry.validateSlot_congr (slotCount_of_like hlike) about slot

/-- Where aspects are equal the same selectors are allowed. -/
theorem selector_of_like (about : Kind) (options : Option Options) :
    b'.registry.selector about options = b.registry.selector about options := by
  unfold Registry.selector
  simp only [validateSlot_of_like hlike]

/-- Where aspects are equal the same publishes are in order. -/
theorem checkPublish_of_like (about : Kind) (slot : Option Slot) (p : Payload) :
    b'.checkPublish about slot p = b.checkPublish about slot p := by
  unfold checkPublish
  simp only [validateSlot_of_like hlike]

variable (hS : S.Grants b.source) (hS' : S.Grants b'.source)
include hS hS'

/-- Where aspects are equal the default slot moves alike, and they stay equal. -/
theorem setDefault_of_like (slot : Slot) :
    (b'.setDefault S slot).1 = (b.setDefault S slot).1 ∧
      (b'.setDefault S slot).2.aspect kind id = (b.setDefault S slot).2.aspect kind rename := by
  have hcount := slotCount_of_like hlike
  have hdefault := defaultSlot_of_like hlike
  by_cases hslot : slot < 0 ∨ b.registry.slotCount ≤ slot
  · unfold setDefault
    rw [hcount, if_pos hslot, if_pos hslot]
    exact ⟨rfl, hlike⟩
  by_cases hsame : b.registry.defaultSlot = slot
  · unfold setDefault
    rw [hcount, hdefault, if_neg hslot, if_neg hslot, if_pos hsame, if_pos hsame]
    exact ⟨rfl, hlike⟩
  have hslot' : ¬ (slot < 0 ∨ b'.registry.slotCount ≤ slot) := hcount ▸ hslot
  have hsame' : b'.registry.defaultSlot ≠ slot := hdefault ▸ hsame
  constructor
  · rw [setDefault_of_grants hS hslot hsame, setDefault_of_grants hS' hslot' hsame']
  · rw [aspect_setDefault hS hslot hsame, aspect_setDefault hS' hslot' hsame', hlike]

omit hS hS' in
/-- A registration that is asked for repeats the same registration of the kind, or none. -/
theorem duplicate?_of_like {a : Action ε} {bid bid' : Bid} (ha : a.bid? b.nextChannel = some bid)
    (ha' : a.bid? b'.nextChannel = some bid') (hn : ChannelsNumbered b)
    (hn' : ChannelsNumbered b') (selector : Option Slot) :
    (b'.registry.duplicate? kind selector bid'.callback bid'.mode).map (Registration.seen id) =
      (b.registry.duplicate? kind selector bid.callback bid.mode).map
        (Registration.seen rename) := by
  have hlive := live_of_like hlike
  cases a with
  | on about l options mode =>
      cases ha
      cases ha'
      rw [Registry.duplicate?_seen _ fun _ => Callback.anonymous_eq_typed,
        Registry.duplicate?_seen _ fun _ => Callback.anonymous_eq_typed, hlive]
  | subscribe event l options mode =>
      obtain ⟨about, -, rfl⟩ := Option.map_eq_some_iff.mp ha
      obtain ⟨about', -, rfl⟩ := Option.map_eq_some_iff.mp ha'
      rw [Registry.duplicate?_seen _ fun _ => Callback.anonymous_eq_whole,
        Registry.duplicate?_seen _ fun _ => Callback.anonymous_eq_whole, hlive]
  | channel name about options =>
      cases ha
      cases ha'
      rw [hn.duplicate?_eq_none, hn'.duplicate?_eq_none]
      rfl
  | _ => contradiction

/-- Where aspects are equal a registration is made on both boards or on none. -/
theorem placing_of_like {a : Action ε} {bid bid' : Bid} (ha : a.bid? b.nextChannel = some bid)
    (ha' : a.bid? b'.nextChannel = some bid') (hkind : bid.kind = kind) (hn : ChannelsNumbered b)
    (hn' : ChannelsNumbered b') : Placing S kind rename b b' bid bid' := by
  subst hkind
  obtain ⟨hkind, hoptions, hmode, hcallback⟩ := Action.bid?_agree ha ha'
  have hselector : b'.registry.selector bid'.kind bid'.options =
      b.registry.selector bid.kind bid.options := by
    rw [hkind, hoptions, selector_of_like hlike]
  cases hs : b.registry.selector bid.kind bid.options with
  | error e =>
      refine .kept (.error e) ?_ ?_
      · simp only [place, register, hs]
      · simp only [place, register, hselector, hs]
        rfl
  | ok selector =>
      have hs' := hselector.trans hs
      have hsame := duplicate?_of_like hlike ha ha' hn hn' selector
      rw [← hkind] at hsame
      cases hd : b.registry.duplicate? bid.kind selector bid.callback bid.mode with
      | some r =>
          rw [hkind, hd] at hsame
          obtain ⟨r', hd', hseen⟩ := Option.map_eq_some_iff.mp hsame
          rw [← hkind] at hd'
          refine .kept (.ok r.id) ?_ ?_
          · simp only [place, register, hs, hd]
          · simp only [place, register, hs', hd']
            exact congrArg (fun s => (Except.ok (Registration.id s), b')) hseen
      | none =>
          rw [hkind, hd] at hsame
          have hd' := Option.map_eq_none_iff.mp hsame
          rw [← hkind] at hd'
          have hplace := register_of_grants hS hs hd
          have hplace' := register_of_grants hS' hs' hd'
          refine .made (congrArg Prod.fst hplace) (congrArg Prod.fst hplace') ?_ ?_ fun hnext => ?_
          · rw [place, hplace]
            rfl
          · rw [place, hplace']
            rfl
          · have hmade : view bid.kind id [b'.registry.made bid'.kind selector bid'.callback
                bid'.mode] = view bid.kind rename [b.registry.made bid.kind selector bid.callback
                bid.mode] := by
              refine (view_of_kind_eq hkind).trans (.trans ?_ (view_of_kind_eq rfl).symm)
              simp only [Registry.made, Registration.seen, hkind, hmode, hcallback, hnext,
                defaultSlot_of_like hlike, id]
            rw [place, place, aspect_register hS hs hd, aspect_register hS' hs' hd', hlike, hmade,
              defaultSlot_of_like hlike]

/-- Registrations are removed that can be told from how they are seen, and only of the kind. -/
theorem withdraw_of_like {settings : SlotSettings} {source : σ}
    (h : Reaches S (fresh settings source) b) (h' : Reaches S (fresh settings source) b')
    (hrunning : b.running = []) (hrunning' : b'.running = [])
    {selected selected' p : Registration → Bool}
    (hp : ∀ r ∈ b.registry.live, r.kind = kind → selected r = p (r.seen rename))
    (hp' : ∀ r ∈ b'.registry.live, r.kind = kind → selected' r = p (r.seen id))
    (hkind : ∀ r ∈ b.registry.live, selected r = true → r.kind = kind)
    (hkind' : ∀ r ∈ b'.registry.live, selected' r = true → r.kind = kind) :
    (b'.withdraw S selected').1.map List.length = (b.withdraw S selected).1.map List.length ∧
      (b'.withdraw S selected').2.aspect kind id =
        (b.withdraw S selected).2.aspect kind rename := by
  constructor
  · rw [withdraw_of_grants hS, withdraw_of_grants hS']
    refine congrArg Except.ok ?_
    rw [length_removed h hrunning hp hkind, length_removed h' hrunning' hp' hkind', hlike]
  · rw [aspect_withdraw hS hp, aspect_withdraw hS' hp', hlike, defaultSlot_of_like hlike]

/-- Where aspects are equal a publish calls as many, and they stay equal. -/
theorem publish_of_like {react : React σ ε} (hidle : Idle react) (limit : Nat)
    {settings : SlotSettings} {source : σ} (h : Reaches S (fresh settings source) b)
    (h' : Reaches S (fresh settings source) b') (slot : Option Slot) (p : Payload) :
    (b'.publish S (hear S react limit) kind slot p).1 =
        (b.publish S (hear S react limit) kind slot p).1 ∧
      (b'.publish S (hear S react limit) kind slot p).2.aspect kind id =
        (b.publish S (hear S react limit) kind slot p).2.aspect kind rename := by
  have hdefault := defaultSlot_of_like hlike
  by_cases hp : Permitted b.registry kind slot p
  · have hp' : Permitted b'.registry kind slot p := by
      simpa only [Permitted, validateSlot_of_like hlike] using hp
    have hlength (place : Slot) : (roster b'.registry kind place).length =
        (roster b.registry kind place).length := by
      rw [← length_audience kind rename b, ← length_audience kind id b', hlike]
    constructor
    · rw [(publish_of_idle (S := S) hidle limit h hp).1,
        (publish_of_idle (S := S) hidle limit h' hp').1, hdefault, hlength]
    · rw [aspect_publish hS hidle limit h hp, aspect_publish hS' hidle limit h' hp', hlike,
        hdefault]
  · obtain ⟨e, he, -⟩ := checkPublish_of_not_permitted hp
    have he' := (checkPublish_of_like hlike kind slot p).trans he
    unfold publish
    rw [he, he']
    exact ⟨rfl, hlike⟩

end

end Switchboard

end SlotWatch

import SlotWatch.Proofs.Attribution
import SlotWatch.Proofs.Projection

/-!
# SlotWatch.Proofs.Counterpart

Actions on two switchboards that show the same aspect of a kind, registrations having other ids
on the second.

1. An action that makes or removes registrations, publishes or moves the default slot
   (`Action.isBasic`) does one of five things (`Action.Basic`), and makes at most the
   registration that it asks for (`leaves_or_makes`).
2. If it is about another kind it leaves the aspect of a kind as it is
   (`aspect_perform_other`).
3. Otherwise it has its counterpart on the second board (`Action.relabel`), with the same
   outcome and the same effect on the aspect, up to ids (`perform_of_like`).
-/

namespace SlotWatch

variable {σ ε : Type}

/-! ## actions -/

/-- Whether an action makes or removes registrations, publishes, or moves the default slot. -/
def Action.isBasic : Action ε → Bool
  | .on .. | .off .. | .subscribe .. | .unsubscribe .. | .channel .. => true
  | .cancel _ | .publish .. | .setDefault _ => true
  | _ => false

def Command.isBasic (c : Command ε) : Bool :=
  match c.action with
  | .ok a => a.isBasic
  | .error _ => true

section

variable (rename : Nat → Nat)

/-- The action where registrations have other ids. -/
def Action.relabel : Action ε → Action ε
  | .cancel id => .cancel (rename id)
  | a => a

def Command.relabel (c : Command ε) : Command ε :=
  { c with action := c.action.map (Action.relabel rename) }

def Reply.relabel : Reply σ → Reply σ
  | .id n => .id (rename n)
  | r => r

/-- The outcome where registrations have other ids. -/
def relabelled (o : Outcome σ) : Outcome σ := o.map (Reply.relabel rename)

end

/-- What a basic action does: it asks for a registration or removes some, it publishes or moves
the default slot, or it goes by the name of a kind that there is not. -/
inductive Action.Basic (channel : Nat) : Action ε → Prop where
  | asking (h : a.bid? channel = some bid) : Basic channel a
  | removing (h : ∃ r, a.removes r) : Basic channel a
  | publishing (kind : Kind) (slot : Option Slot) (p : Payload) :
      Basic channel (.publish kind slot p)
  | moving (slot : Slot) : Basic channel (.setDefault slot)
  | unknown (a : Action ε) (e : Failure) (hcancel : ∀ id, a ≠ .cancel id)
      (h : ∀ (σ : Type) (S : Source σ ε) invoke b,
        Switchboard.perform S invoke b a = (.error e, b)) : Basic channel a

/-- A basic action does one of these things. -/
theorem Action.basic {a : Action ε} (h : a.isBasic = true) (channel : Nat) : a.Basic channel := by
  by_cases hremoval : a.isRemoval = true
  · rcases Action.removes_or_unknown hremoval with hremoves | ⟨event, l, rfl, hevent⟩
    · exact .removing hremoves
    · exact .unknown _ (.unknownEvent event) nofun fun _ S invoke b =>
        Switchboard.perform_unknown S invoke hevent l b
  cases a with
  | on | channel => exact .asking rfl
  | subscribe event l options mode =>
      cases hk : Named.ofName? Kind event with
      | none =>
          refine .unknown _ (.unknownEvent event) nofun fun _ S invoke b => ?_
          simp [Switchboard.perform, Switchboard.subscribe, hk, Switchboard.answered, Except.map]
      | some kind =>
          have hbid : (Action.subscribe (ε := ε) event l options mode).bid? channel =
              some ⟨kind, options, .whole l, mode⟩ := by
            simp [Action.bid?, hk]
          exact .asking hbid
  | publish kind slot p => exact .publishing kind slot p
  | setDefault slot => exact .moving slot
  | off | unsubscribe | cancel => exact absurd rfl hremoval
  | _ => contradiction

/-- What an action asks for is asked for whatever channels there are. -/
theorem Action.exists_bid {a : Action ε} {channel : Nat} {bid : Bid}
    (h : a.bid? channel = some bid) (channel' : Nat) : ∃ bid', a.bid? channel' = some bid' := by
  cases a with
  | on | channel => exact ⟨_, rfl⟩
  | subscribe => exact ⟨bid, h⟩
  | _ => contradiction

/-- A registration is asked for without an id. -/
theorem Action.relabel_of_bid {a : Action ε} {channel : Nat} {bid : Bid}
    (h : a.bid? channel = some bid) (rename : Nat → Nat) : a.relabel rename = a := by
  cases a <;> first | rfl | contradiction

/-- Other ids make no other kind of action. -/
theorem Action.isBasic_relabel (a : Action ε) (rename : Nat → Nat) :
    (a.relabel rename).isBasic = a.isBasic := by
  cases a <;> rfl

theorem Command.isBasic_relabel (c : Command ε) (rename : Nat → Nat) :
    (c.relabel rename).isBasic = c.isBasic := by
  obtain ⟨word, action⟩ := c
  cases action with
  | error e => rfl
  | ok a => exact Action.isBasic_relabel a rename

/-- What an action is about does not depend on ids. -/
theorem Action.kind?_relabel (a : Action ε) (rename : Nat → Nat) :
    (a.relabel rename).kind? = a.kind? := by
  cases a <;> rfl

theorem Command.kind?_relabel (c : Command ε) (rename : Nat → Nat) :
    (c.relabel rename).kind? = c.kind? := by
  obtain ⟨word, action⟩ := c
  cases action with
  | error e => rfl
  | ok a => exact Action.kind?_relabel a rename

theorem Command.relabel_action {c : Command ε} {a : Action ε} (hc : c.action = .ok a)
    (rename : Nat → Nat) : (c.relabel rename).action = .ok (a.relabel rename) := by
  rw [Command.relabel, hc]
  rfl

/-- What is to be removed can be told from how registrations are seen. -/
theorem Action.removes_seen {a : Action ε} {r : Registration} {rename rename' : Nat → Nat}
    (hid : ∀ id, a = .cancel id → (rename' r.id = rename id ↔ r.id = id)) :
    (a.relabel rename).removes (r.seen rename') ↔ a.removes r := by
  cases a with
  | off kind l =>
      simp only [relabel, removes, Registration.seen, Callback.anonymous_eq_typed]
  | unsubscribe event l =>
      simp only [relabel, removes, Registration.seen, Callback.anonymous_eq_whole]
  | cancel id => exact hid id rfl
  | _ => exact Iff.rfl

/-- The number of a channel does not matter for a removal. -/
theorem Action.removes_seen_id (a : Action ε) (r : Registration) :
    a.removes (r.seen id) ↔ a.removes r := by
  have hsame : a.relabel id = a := by cases a <;> rfl
  have hseen : (a.relabel id).removes (r.seen id) ↔ a.removes r :=
    Action.removes_seen fun _ _ => Iff.rfl
  rwa [hsame] at hseen

/-- An action that can remove something can do so with other ids. -/
theorem Action.exists_removes_relabel {a : Action ε} (h : ∃ r, a.removes r)
    (rename : Nat → Nat) : ∃ r, (a.relabel rename).removes r := by
  obtain ⟨r, hr⟩ := h
  cases a with
  | cancel id => exact ⟨{ r with id := rename id }, rfl⟩
  | off | unsubscribe => exact ⟨r, hr⟩
  | _ => contradiction

theorem Action.tally_relabel (a : Action ε) (rename : Nat → Nat) :
    ((a.relabel rename).tally : Nat → Reply σ) = a.tally := by
  cases a <;> rfl

theorem Action.relabel_tally (a : Action ε) (rename : Nat → Nat) (n : Nat) :
    (a.tally n : Reply σ).relabel rename = a.tally n := by
  cases a <;> rfl

/-- An action removes registrations of its kind only, unless it cancels an id. -/
theorem Action.kind_of_removes {a : Action ε} {r : Registration} (h : a.removes r) :
    a.kind? = some r.kind ∨ a = .cancel r.id := by
  cases a with
  | off kind l => exact .inl (congrArg some h.1.symm)
  | unsubscribe event l => exact .inl h.1
  | cancel id => exact .inr (congrArg Action.cancel (Eq.symm h))
  | _ => contradiction

namespace Switchboard

variable {S : Source σ ε} {kind : Kind} {rename : Nat → Nat} {b b' : Switchboard σ ε}

/-! ## one action -/

/-- Outcomes without ids are the same. -/
theorem relabelled_answered {α : Type} {reply : α → Reply σ}
    (hreply : ∀ x, (reply x).relabel rename = reply x)
    (result : Except Failure α × Switchboard σ ε) :
    relabelled rename (answered reply result).1 = (answered reply result).1 := by
  obtain ⟨_ | x, b⟩ := result
  · rfl
  · exact congrArg Except.ok (hreply x)

/-- From `b` to `b'` no more than one registration has been made: what `bid` asks for. -/
structure Makes (bid : Bid) (b b' : Switchboard σ ε) : Prop where
  source_eq : b'.source = b.source
  nextId_eq : b'.registry.nextId = b.registry.nextId + 1
  nextChannel_le : b.nextChannel ≤ b'.nextChannel
  of_live {r} : r ∈ b'.registry.live →
    r ∈ b.registry.live ∨ r.kind = bid.kind ∧ r.callback = bid.callback
  serial_lt {serial about} : bid.callback = .channel serial about → serial < b'.nextChannel

/-- A registration uses up no number for a channel. -/
@[simp] theorem register_nextChannel (callback : Callback) (about : Kind)
    (options : Option Options) (mode : Mode) (b : Switchboard σ ε) :
    (b.register S callback about options mode).2.nextChannel = b.nextChannel := by
  have hcases := registering S callback about options mode b
  generalize (b.register S callback about options mode).1 = o at hcases
  generalize (b.register S callback about options mode).2 = b' at hcases
  cases hcases <;> rfl

/-- To perform what asks for a registration is to place it.  A channel has the next number. -/
theorem perform_asking (invoke : Invoke σ ε) {a : Action ε} {bid : Bid}
    (ha : a.bid? b.nextChannel = some bid) :
    (b.perform S invoke a).1 = (b.place S bid).1.map .id ∧
      Alike (b.place S bid).2 (b.perform S invoke a).2 ∧
      (b.perform S invoke a).2.source = (b.place S bid).2.source ∧
      b.nextChannel ≤ (b.perform S invoke a).2.nextChannel ∧
      ∀ n, (b.place S bid).1 = .ok n → ∀ serial about, bid.callback = .channel serial about →
        serial < (b.perform S invoke a).2.nextChannel := by
  obtain ⟨houtcome, halike, hsource⟩ := perform_of_bid (S := S) invoke ha
  refine ⟨houtcome, halike, hsource, ?_⟩
  cases a with
  | on about l options mode =>
      cases ha
      exact ⟨(register_nextChannel ..).ge, fun _ _ _ _ h => by contradiction⟩
  | subscribe event l options mode =>
      obtain ⟨about, hkind, rfl⟩ := Option.map_eq_some_iff.mp ha
      simp only [perform, answered, subscribe, hkind]
      exact ⟨(register_nextChannel ..).ge, fun _ _ _ _ h => by contradiction⟩
  | channel name about options =>
      cases ha
      have hnext := register_nextChannel (S := S) (.channel b.nextChannel about) about options
        .repeating b
      simp only [perform, answered, openChannel, place] at hnext ⊢
      revert hnext
      rcases b.register S (.channel b.nextChannel about) about options .repeating with ⟨_ | _, b'⟩
      · intro hnext
        exact ⟨hnext.ge, fun _ h => by contradiction⟩
      · intro _
        refine ⟨Nat.le_succ _, fun n _ serial about hserial => ?_⟩
        cases hserial
        exact Nat.lt_succ_self _
  | _ => contradiction

/-- To place a registration is to make it with the next id, or to change nothing. -/
theorem place_cases (hS : S.Grants b.source) (bid : Bid) :
    (∃ o, b.place S bid = (o, b)) ∨
      (b.place S bid).1 = .ok b.registry.nextId ∧
        (b.place S bid).2.source = b.source ∧
        ∃ selector, (b.place S bid).2.registry =
          b.registry.add bid.kind selector bid.callback bid.mode := by
  unfold place
  cases hs : b.registry.selector bid.kind bid.options with
  | error e => exact .inl ⟨.error e, by simp only [register, hs]⟩
  | ok selector =>
      cases hd : b.registry.duplicate? bid.kind selector bid.callback bid.mode with
      | some r => exact .inl ⟨.ok r.id, by simp only [register, hs, hd]⟩
      | none =>
          rw [register_of_grants hS hs hd]
          exact .inr ⟨rfl, rfl, selector, rfl⟩

section

variable {react : React σ ε} {settings : SlotSettings} {source : σ}
  (hidle : Idle react) (limit : Nat) (h : Reaches S (fresh settings source) b)
  (hS : S.Grants b.source)
include hidle h hS

/-- A basic action makes no registration, or the one that it asks for. -/
theorem leaves_or_makes {a : Action ε} (ha : a.isBasic = true) :
    Leaves b (b.perform S (hear S react limit) a).2 ∨
      ∃ bid, a.bid? b.nextChannel = some bid ∧
        (b.perform S (hear S react limit) a).1 = .ok (.id b.registry.nextId) ∧
        Makes bid b (b.perform S (hear S react limit) a).2 := by
  cases a.basic ha b.nextChannel with
  | @asking bid _ hbid =>
      obtain ⟨houtcome, halike, hsource, hnext, hserial⟩ :=
        perform_asking (S := S) (hear S react limit) hbid
      rcases place_cases hS bid with ⟨o, hplace⟩ | ⟨hplaced, hsource', selector, hregistry⟩
      · left
        rw [hplace] at halike hsource
        refine ⟨hsource, congrArg Registry.nextId halike.registry, hnext, fun hr => ?_⟩
        rw [halike.registry] at hr
        exact ⟨_, hr, rfl⟩
      · right
        rw [hplaced] at houtcome
        have hregistry' := halike.registry.trans hregistry
        refine ⟨bid, hbid, houtcome, hsource.trans hsource', ?_, hnext, fun hr => ?_,
          hserial _ hplaced _ _⟩
        · rw [hregistry']
          rfl
        · rw [hregistry'] at hr
          refine (Registry.mem_live_add.mp hr).imp_right ?_
          rintro rfl
          exact ⟨rfl, rfl⟩
  | removing hremoves =>
      rw [perform_removal S _ hremoves]
      exact .inl (leaves_withdraw hS _)
  | publishing about slot p => exact .inl (leaves_publish hS hidle limit h about slot p)
  | moving slot => exact .inl (leaves_setDefault hS slot)
  | unknown _ e _ hperform =>
      rw [hperform]
      exact .inl (.refl b)

/-- What is about another kind leaves the aspect of a kind as it is. -/
theorem aspect_perform_other {a : Action ε} (ha : a.isBasic = true)
    (hother : (∃ about, a.kind? = some about ∧ about ≠ kind) ∨
      ∃ n, a = .cancel n ∧ ∀ r ∈ b.registry.live, r.id = n → r.kind ≠ kind) :
    (b.perform S (hear S react limit) a).2.aspect kind rename = b.aspect kind rename := by
  cases a.basic ha b.nextChannel with
  | @asking bid _ hbid =>
      have hkind : bid.kind ≠ kind := by
        rcases hother with ⟨about, habout, hne⟩ | ⟨n, rfl, -⟩
        · rw [Action.kind?_of_bid hbid] at habout
          exact Option.some.inj habout ▸ hne
        · contradiction
      rw [aspect_of_alike (perform_asking (S := S) (hear S react limit) hbid).2.1]
      exact aspect_place_other hS hkind
  | removing hremoves =>
      rw [perform_removal S _ hremoves]
      refine aspect_withdraw_other hS fun r hr hkind => decide_eq_false fun hremoved => ?_
      rcases hother with ⟨about, habout, hne⟩ | ⟨n, rfl, hcancel⟩
      · rcases Action.kind_of_removes hremoved with habout' | rfl
        · rw [habout'] at habout
          exact hne ((Option.some.inj habout).symm.trans hkind)
        · contradiction
      · exact hcancel r hr hremoved hkind
  | publishing about slot p =>
      rcases hother with ⟨about', habout, hne⟩ | ⟨n, hcancel, -⟩
      · exact aspect_publish_other hS hidle limit h (Option.some.inj habout ▸ hne) slot p
      · contradiction
  | moving slot => rcases hother with ⟨about, habout, -⟩ | ⟨n, hcancel, -⟩ <;> contradiction
  | unknown _ e _ hperform => rw [hperform]

end

/-- How the next ids go on while an action is performed on both boards: they stay, or both boards
make a registration. -/
def Paced (b b' : Switchboard σ ε) (a : Action ε) (x x' : Outcome σ × Switchboard σ ε) : Prop :=
  x.2.registry.nextId = b.registry.nextId ∧ x'.2.registry.nextId = b'.registry.nextId ∨
    (a.bid? b.nextChannel).isSome ∧ x.1 = .ok (.id b.registry.nextId) ∧
      x.2.registry.nextId = b.registry.nextId + 1 ∧ x'.2.registry.nextId = b'.registry.nextId + 1

section

variable {react : React σ ε} {settings : SlotSettings} {source : σ}
  (hidle : Idle react) (limit : Nat) (h : Reaches S (fresh settings source) b)
  (h' : Reaches S (fresh settings source) b') (hrunning : b.running = [])
  (hrunning' : b'.running = []) (hS : S.Grants b.source) (hS' : S.Grants b'.source)
  (hn : ChannelsNumbered b) (hn' : ChannelsNumbered b')
  (hlike : b'.aspect kind id = b.aspect kind rename)
include hidle h h' hrunning hrunning' hS hS' hn hn' hlike

/-- What is not about another kind is performed on both boards alike. -/
theorem perform_of_like {a : Action ε} (ha : a.isBasic = true)
    (hkind : ∀ about, a.kind? = some about → about = kind)
    (honly : ∀ r ∈ b'.registry.live, r.kind = kind)
    (hcancel : ∀ n, a = .cancel n → ∀ r ∈ b.registry.live,
      (r.kind = kind → (rename r.id = rename n ↔ r.id = n)) ∧ (r.id = n → r.kind = kind))
    (hnext : (a.bid? b.nextChannel).isSome →
      (b.perform S (hear S react limit) a).1 = .ok (.id b.registry.nextId) →
        rename b.registry.nextId = b'.registry.nextId) :
    let x := b.perform S (hear S react limit) a
    let x' := b'.perform S (hear S react limit) (a.relabel rename)
    x'.1 = relabelled rename x.1 ∧ x'.2.aspect kind id = x.2.aspect kind rename ∧
      Paced b b' a x x' := by
  intro x x'
  cases a.basic ha b.nextChannel with
  | @asking bid _ hbid =>
      obtain ⟨bid', hbid'⟩ := Action.exists_bid hbid b'.nextChannel
      have hx' : x' = b'.perform S (hear S react limit) a :=
        congrArg (b'.perform S (hear S react limit)) (Action.relabel_of_bid hbid rename)
      obtain ⟨houtcome, halike, -⟩ := perform_asking (S := S) (hear S react limit) hbid
      obtain ⟨houtcome', halike', -⟩ := perform_asking (S := S) (hear S react limit) hbid'
      rw [hx', aspect_of_alike halike, aspect_of_alike halike', houtcome']
      unfold Paced
      rw [halike.registry, halike'.registry]
      cases placing_of_like hlike hS hS' hbid hbid' (hkind _ (Action.kind?_of_bid hbid)) hn hn' with
      | kept o hplace hplace' =>
          rw [houtcome, hplace, hplace']
          refine ⟨?_, hlike, .inl ⟨rfl, rfl⟩⟩
          cases o <;> rfl
      | made ho ho' hid hid' haspect =>
          rw [ho] at houtcome
          have hrename := hnext (Option.isSome_of_eq_some hbid) houtcome
          refine ⟨?_, haspect hrename, .inr ⟨Option.isSome_of_eq_some hbid, houtcome, hid, hid'⟩⟩
          rw [houtcome, ho', ← hrename]
          rfl
  | removing hremoves =>
      have hperform := perform_removal S (hear S react limit) hremoves b
      have hperform' := perform_removal S (hear S react limit)
        (Action.exists_removes_relabel hremoves rename) b'
      -- Both boards lose what shows as one and the same selection.
      obtain ⟨hlength, haspect⟩ := withdraw_of_like hlike hS hS' h h' hrunning hrunning'
        (p := fun s => (a.relabel rename).removes s)
        (fun r hr hr' => decide_eq_decide.mpr
          (Action.removes_seen fun n hn => (hcancel n hn r hr).1 hr').symm)
        (fun r _ _ => decide_eq_decide.mpr (Action.removes_seen_id _ r).symm)
        (fun r hr hremoved => by
          rcases Action.kind_of_removes (of_decide_eq_true hremoved) with habout | rfl
          · exact hkind _ habout
          · exact (hcancel _ rfl r hr).2 rfl)
        (fun r hr _ => honly r hr)
      have hx : x = answered a.tally
          ((b.withdraw S (a.removes ·)).1.map List.length, (b.withdraw S (a.removes ·)).2) :=
        hperform.trans (answered_answered _ _ _).symm
      have hx' : x' = answered (a.relabel rename).tally
          ((b'.withdraw S ((a.relabel rename).removes ·)).1.map List.length,
            (b'.withdraw S ((a.relabel rename).removes ·)).2) :=
        hperform'.trans (answered_answered _ _ _).symm
      refine ⟨?_, ?_, .inl ⟨?_, ?_⟩⟩
      · rw [hx, hx', answered, answered, hlength, Action.tally_relabel]
        exact (relabelled_answered (fun n => Action.relabel_tally a rename n) (_, b)).symm
      · rw [hx, hx']
        exact haspect
      · rw [hx]
        exact (leaves_withdraw hS _).nextId_eq
      · rw [hx']
        exact (leaves_withdraw hS' _).nextId_eq
  | publishing about slot p =>
      obtain rfl := hkind about rfl
      obtain ⟨houtcome, haspect⟩ := publish_of_like hlike hS hS' hidle limit h h' slot p
      refine ⟨?_, haspect, .inl ⟨?_, ?_⟩⟩
      · exact (congrArg (Except.map Reply.count) houtcome).trans
          (relabelled_answered (fun _ => rfl) _).symm
      · exact (leaves_publish hS hidle limit h about slot p).nextId_eq
      · exact (leaves_publish hS' hidle limit h' about slot p).nextId_eq
  | moving slot =>
      obtain ⟨houtcome, haspect⟩ := setDefault_of_like hlike hS hS' slot
      refine ⟨?_, haspect, .inl ⟨?_, ?_⟩⟩
      · exact (congrArg (Except.map fun () => Reply.done) houtcome).trans
          (relabelled_answered (fun _ => rfl) _).symm
      · exact (leaves_setDefault hS slot).nextId_eq
      · exact (leaves_setDefault hS' slot).nextId_eq
  | unknown _ e hnot hperform =>
      have hrelabel : a.relabel rename = a := by
        cases a <;> first | rfl | exact absurd rfl (hnot _)
      have hx : x = (.error e, b) := hperform σ S _ b
      have hx' : x' = (.error e, b') :=
        (congrArg (b'.perform S (hear S react limit)) hrelabel).trans (hperform σ S _ b')
      rw [hx, hx']
      exact ⟨rfl, hlike, .inl ⟨rfl, rfl⟩⟩

end

end Switchboard

end SlotWatch

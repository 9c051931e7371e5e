import SlotWatch.Proofs.LiveList
import SlotWatch.Proofs.Phone

/-!
# SlotWatch.Proofs.Access

Which registrations a phone lets an application make.

A phone looks at what its application is entitled to when it is asked to start a feed, and
at no other time.  So

1. a registration that needs a start is refused to an application that is not entitled to
   its kind, and nothing is registered (`place_refused`);
2. a registration that joins a live one on the same feed is made without the phone being
   asked (`place_joined`);
3. still, to whatever is live the application was entitled at some time before, while the
   phone could be reached (`Reaches.once_admitted`).
-/

namespace SlotWatch

variable {σ ε : Type}

/-! ## registrations that are asked for -/

/-- A registration that is asked for. -/
structure Bid where
  kind : Kind
  options : Option Options
  callback : Callback
  mode : Mode

namespace Bid

/-- The slot that it selects. -/
def selector (bid : Bid) : Option Slot := bid.options.map (·.slot)

/-- What it is made for. -/
def terms (bid : Bid) : Kind × Option Slot × Callback × Mode :=
  (bid.kind, bid.selector, bid.callback, bid.mode)

/-- What the source observes on its behalf. -/
def feed (bid : Bid) (g : Registry) : Feed := (bid.selector.getD g.defaultSlot, bid.kind)

/-- The registration itself. -/
def made (bid : Bid) (g : Registry) : Registration :=
  g.made bid.kind bid.selector bid.callback bid.mode

/-- Whether it takes a new registration: what it selects is a slot of its kind, and no live
registration is for the same. -/
def IsNew (bid : Bid) (g : Registry) : Prop :=
  (∀ slot, bid.selector = some slot → g.Allows bid.kind slot) ∧
    ∀ r ∈ g.live, r.terms ≠ bid.terms

end Bid

/-- The registration that an action asks for, `channel` being the number of the next
channel. -/
def Action.bid? (channel : Nat) : Action ε → Option Bid
  | .on kind listener options mode => some ⟨kind, options, .typed listener kind, mode⟩
  | .subscribe event listener options mode =>
      (Named.ofName? Kind event).map fun kind => ⟨kind, options, .whole listener, mode⟩
  | .channel _ kind options => some ⟨kind, options, .channel channel kind, .repeating⟩
  | _ => none

namespace Switchboard

section
variable {S : Source σ ε} {b : Switchboard σ ε} {bid : Bid}

/-- Have the registration made that is asked for. -/
def place (S : Source σ ε) (bid : Bid) (b : Switchboard σ ε) :
    Except Failure Nat × Switchboard σ ε :=
  b.register S bid.callback bid.kind bid.options bid.mode

/-- Opening a channel asks the source for what its registration does. -/
theorem openChannel_source (name : String) (kind : Kind) (options : Option Options)
    (b : Switchboard σ ε) :
    (b.openChannel S name kind options).2.source =
      (b.register S (.channel b.nextChannel kind) kind options .repeating).2.source := by
  unfold openChannel
  simp only
  rcases b.register S (.channel b.nextChannel kind) kind options .repeating with ⟨_ | _, b'⟩ <;> rfl

/-- Whichever action asks for a registration, it is made in the same way. -/
theorem perform_of_bid (invoke : Invoke σ ε) {a : Action ε}
    (ha : a.bid? b.nextChannel = some bid) :
    (b.perform S invoke a).1 = (b.place S bid).1.map .id ∧
      Alike (b.place S bid).2 (b.perform S invoke a).2 ∧
      (b.perform S invoke a).2.source = (b.place S bid).2.source := by
  cases a with
  | on kind listener options mode =>
      cases ha
      exact ⟨rfl, .refl _, rfl⟩
  | subscribe event listener options mode =>
      obtain ⟨kind, hkind, rfl⟩ := Option.map_eq_some_iff.mp ha
      simp only [perform, answered, subscribe, hkind]
      exact ⟨rfl, .refl _, rfl⟩
  | channel name kind options =>
      cases ha
      have houtcome := openChannel_outcome (S := S) name kind options b
      exact ⟨congrArg (Except.map Reply.id) houtcome, alike_openChannel name kind options b,
        openChannel_source name kind options b⟩
  | _ => contradiction

/-- A command that asks for a registration has it made, and goes on the trace after that. -/
theorem obey_of_bid (invoke : Invoke σ ε) (l : Option String) {c : Command ε} {a : Action ε}
    (hc : c.action = .ok a) (ha : a.bid? b.nextChannel = some bid) :
    (b.obey S invoke l c).1 = (b.place S bid).1.map .id ∧
      (b.obey S invoke l c).2.registry = (b.place S bid).2.registry ∧
      (b.obey S invoke l c).2.source = (b.place S bid).2.source ∧
      (b.obey S invoke l c).2.trace =
        .did l c ((b.place S bid).1.map .id) :: (b.place S bid).2.trace := by
  have hattempt : b.attempt S invoke c = b.perform S invoke a := by
    unfold attempt
    rw [hc]
  obtain ⟨houtcome, halike, hsource⟩ := perform_of_bid (S := S) invoke ha
  simp only [obey, hattempt]
  refine ⟨houtcome, halike.registry, hsource, ?_⟩
  rw [note_trace, houtcome, halike.trace]

/-- A new registration is made if its feed is observed or the source starts it. -/
theorem place_of_new (hnew : bid.IsNew b.registry) :
    b.place S bid =
      match b.ensure S (bid.feed b.registry) with
      | (.error e, b) => (.error e, b)
      | (.ok (), b) =>
        (.ok b.registry.nextId,
          { b with registry := b.registry.add bid.kind bid.selector bid.callback bid.mode }) := by
  have hs : b.registry.selector bid.kind bid.options = .ok bid.selector :=
    Registry.selector_eq_ok_iff.mpr ⟨rfl, hnew.1⟩
  have hd := Registry.duplicate?_eq_none_iff.mpr hnew.2
  simp only [place, register, hs, hd]
  rfl

/-- A new registration joins those on its feed; the source is not asked. -/
theorem place_joined (hnew : bid.IsNew b.registry)
    (hobserved : b.registry.observes (bid.feed b.registry) = true) :
    b.place S bid =
      (.ok b.registry.nextId,
        { b with registry := b.registry.add bid.kind bid.selector bid.callback bid.mode }) := by
  rw [place_of_new hnew]
  simp [ensure, hobserved]

/-- Moving the default slot brings no kind. -/
theorem Moving.kind_live {slot : Slot} {b' : Switchboard σ ε} {o : Except Failure Unit}
    (h : Moving S slot b o b') {r : Registration} (hr : r ∈ b'.registry.live) :
    ∃ s ∈ b.registry.live, s.kind = r.kind := by
  cases h with
  | outside | stayed => exact ⟨r, hr, rfl⟩
  | refused =>
      rw [startAll_registry] at hr
      exact ⟨r, hr, rfl⟩
  | moved =>
      rw [stopAll_registry, relocated_registry] at hr
      obtain ⟨s, hs, rfl⟩ := List.mem_map.mp hr
      exact ⟨s, hs, (Registration.kind_eq_of_terms_eq (s.moved_terms slot)).symm⟩

end

section
variable {b : Switchboard Phone Phone.Control} {bid : Bid}

/-- A new registration that needs a start is refused to an application that is not entitled
to its kind. -/
theorem place_refused (hnew : bid.IsNew b.registry) (hentitled : ¬ b.source.Entitled bid.kind)
    (hobserved : ¬ b.registry.observes (bid.feed b.registry) = true) :
    ∃ e, (b.place Phone.source bid).1 = .error e ∧
      (b.source.connected = true → e.category = .permissionDenied) ∧
      (b.place Phone.source bid).2.registry = b.registry := by
  obtain ⟨e, he, hcategory⟩ :=
    Phone.start_of_not_entitled (bid.feed b.registry) hentitled
  have hask : (b.ask Phone.source .start (bid.feed b.registry)).1 = .error e := he
  have hregistry := ask_registry Phone.source .start (bid.feed b.registry) b
  rw [place_of_new hnew, ensure, if_neg hobserved]
  rcases hasked : b.ask Phone.source .start (bid.feed b.registry) with ⟨answer, b'⟩
  rw [hasked] at hask hregistry
  cases hask
  exact ⟨e, rfl, hcategory, hregistry⟩

/-! ## how a kind came to be live -/

/-- What is live after a registration was asked for: a kind that was live before, or one
that the phone admits. -/
theorem Registering.kind_live {callback : Callback} {kind : Kind} {options : Option Options}
    {mode : Mode} {b' : Switchboard Phone Phone.Control} {o : Except Failure Nat}
    (h : Registering Phone.source callback kind options mode b o b') {r : Registration}
    (hr : r ∈ b'.registry.live) :
    (∃ s ∈ b.registry.live, s.kind = r.kind) ∨ b.source.Admits r.kind := by
  cases h with
  | unfit | repeated => exact .inl ⟨r, hr, rfl⟩
  | refused => exact .inl ⟨r, hr, rfl⟩
  | joined _ _ ho =>
      rcases Registry.mem_live_add.mp hr with hr | rfl
      · exact .inl ⟨r, hr, rfl⟩
      · obtain ⟨s, hs, hfeed⟩ := Registry.observes_iff.mp ho
        exact .inl ⟨s, hs, congrArg Prod.snd hfeed⟩
  | started _ _ _ ha =>
      rcases Registry.mem_live_add.mp hr with hr | rfl
      · exact .inl ⟨r, hr, rfl⟩
      · exact .inr (Phone.admits_of_start ha)

/-- A step brings no kind to the live list that the phone does not admit. -/
theorem Advance.kind_live {b' : Switchboard Phone Phone.Control}
    (h : Advance Phone.source b b') {r : Registration} (hr : r ∈ b'.registry.live) :
    (∃ s ∈ b.registry.live, s.kind = r.kind) ∨ b.source.Admits r.kind := by
  cases h with
  | obey invoke l c hc =>
      change r ∈ (b.attempt Phone.source invoke c).2.registry.live at hr
      have hchange := change_attempt (S := Phone.source) invoke b hc
      revert hr hchange
      generalize (b.attempt Phone.source invoke c).2 = b'
      intro hr hchange
      cases hchange with
      | nothing _ h => exact .inl ⟨r, h.registry ▸ hr, rfl⟩
      | register callback kind _ _ h =>
          rw [h.registry] at hr
          exact (registering Phone.source callback kind _ _ b).kind_live hr
      | withdraw _ h =>
          rw [h.registry, withdraw_registry] at hr
          exact .inl ⟨r, (Registry.mem_live_withdraw.mp hr).1, rfl⟩
      | setDefault _ h =>
          rw [h.registry] at hr
          exact .inl ((moving Phone.source _ b).kind_live hr)
  | report => exact .inl ⟨r, hr, rfl⟩
  | launch =>
      rw [launch_registry] at hr
      exact .inl ⟨r, (Registry.mem_live_collect.mp hr).1, rfl⟩
  | skip =>
      rw [comeTo_registry, Registry.claim_live] at hr
      exact .inl ⟨r, hr, rfl⟩
  | call =>
      rw [(alike_hand _ _ _).registry, note_registry, comeTo_registry, Registry.claim_live] at hr
      exact .inl ⟨r, hr, rfl⟩
  | land => exact .inl ⟨r, hr, rfl⟩
  | remark => exact .inl ⟨r, hr, rfl⟩

/-- **Nothing is live that the phone has never admitted**: at some time before, the
application was entitled to the kind and the phone could be reached. -/
theorem Reaches.once_admitted {settings : SlotSettings} {phone : Phone}
    (h : Reaches Phone.source (fresh settings phone) b) {r : Registration}
    (hr : r ∈ b.registry.live) :
    ∃ m, Reaches Phone.source (fresh settings phone) m ∧ Reaches Phone.source m b ∧
      m.source.Admits r.kind := by
  induction h generalizing r with
  | refl => contradiction
  | @tail c _ hreach hstep ih =>
      rcases hstep.kind_live hr with ⟨s, hs, hkind⟩ | hadmits
      · obtain ⟨m, hm, hlater, hadmits⟩ := ih hs
        exact ⟨m, hm, hlater.tail hstep, hkind ▸ hadmits⟩
      · exact ⟨c, hreach, .single hstep, hadmits⟩

/-! ## registrations without access -/

/-- **Without access a registration is made only on a feed that is observed already**, on
every board that a run on a phone can reach.  When a command asks for a new registration
and the application is not entitled to its kind,

* if no live registration observes the feed, the command fails, for want of a permission
  unless the phone cannot be reached, and nothing is registered;
* if one does, the registration is put at the end without the phone being asked: the phone is
  as it was, and nothing happens before the command is completed.  The application was
  entitled to the kind at some time before. -/
theorem registration_needs_access {settings : SlotSettings} {phone : Phone}
    (h : Reaches Phone.source (fresh settings phone) b)
    (invoke : Invoke Phone Phone.Control) (l : Option String) {c : Command Phone.Control}
    {a : Action Phone.Control} (hc : c.action = .ok a) (ha : a.bid? b.nextChannel = some bid)
    (hnew : bid.IsNew b.registry) (hentitled : ¬ b.source.Entitled bid.kind) :
    ((∀ r ∈ b.registry.live, r.feed ≠ bid.feed b.registry) →
      ∃ e, (b.obey Phone.source invoke l c).1 = .error e ∧
        (b.source.connected = true → e.category = .permissionDenied) ∧
        (b.obey Phone.source invoke l c).2.registry = b.registry) ∧
    ((∃ r ∈ b.registry.live, r.feed = bid.feed b.registry) →
      (b.obey Phone.source invoke l c).1 = .ok (.id b.registry.nextId) ∧
        (b.obey Phone.source invoke l c).2.registry.live =
          b.registry.live ++ [bid.made b.registry] ∧
        (b.obey Phone.source invoke l c).2.source = b.source ∧
        (b.obey Phone.source invoke l c).2.trace =
          .did l c (.ok (.id b.registry.nextId)) :: b.trace ∧
        ∃ m, Reaches Phone.source (fresh settings phone) m ∧ Reaches Phone.source m b ∧
          m.source.Admits bid.kind) := by
  obtain ⟨houtcome, hregistry, hsource, htrace⟩ := obey_of_bid (S := Phone.source) invoke l hc ha
  rw [houtcome, hregistry, hsource, htrace]
  constructor
  · intro hnone
    have hobserved : ¬ b.registry.observes (bid.feed b.registry) = true := by
      rw [Registry.observes_iff]
      rintro ⟨r, hr, hfeed⟩
      exact hnone r hr hfeed
    obtain ⟨e, he, hcategory, hsame⟩ := place_refused hnew hentitled hobserved
    exact ⟨e, by rw [he]; rfl, hcategory, hsame⟩
  · rintro ⟨r, hr, hfeed⟩
    have hjoined := place_joined (S := Phone.source) hnew
      (Registry.observes_iff.mpr ⟨r, hr, hfeed⟩)
    obtain ⟨m, hm, hlater, hadmits⟩ := h.once_admitted hr
    have hkind : r.kind = bid.kind := congrArg Prod.snd hfeed
    rw [hjoined]
    exact ⟨rfl, rfl, rfl, rfl, m, hm, hlater, hkind ▸ hadmits⟩

end

/-! ### a sample phone

The application registers a listener and then loses the permission it took. -/

namespace Sample

def tell (a : Action Phone.Control) : Command Phone.Control := ⟨"", .ok a⟩

def deaf : React Phone Phone.Control := fun _ _ _ => []

def phone : Phone := .ordinary "now"

/-- The first listener is registered, and the permission is gone. -/
def revoked : Switchboard Phone Phone.Control :=
  run Phone.source deaf 0
    [tell (.source (.grant Permission.getNetworkInfo)),
      tell (.on .networkState "first" none .repeating),
      tell (.source (.revoke Permission.getNetworkInfo))]
    (fresh settings phone)

theorem reaches_revoked : Reaches Phone.source (fresh settings phone) revoked :=
  (settles_run deaf 0 _ (fresh settings phone)).1

/-- A second listener, on the default slot or the one it selects. -/
def second (options : Option Options) : Bid :=
  ⟨.networkState, options, .typed "second" .networkState, .repeating⟩

theorem not_entitled_revoked : ¬ revoked.source.Entitled .networkState := by decide

/-- The second listener repeats none, on either slot. -/
theorem isNew_second (options : Option Options) (h : options = none ∨ options = some ⟨1⟩) :
    (second options).IsNew revoked.registry := by
  rcases h with rfl | rfl <;> refine ⟨?_, by decide⟩
  · nofun
  · rintro _ ⟨⟩
    exact ⟨rfl, rfl⟩

/-- Register the second listener. -/
def onSecond (options : Option Options) : Command Phone.Control :=
  tell (.on .networkState "second" options .repeating)

/-- The outcome, and the board afterwards. -/
def asked (options : Option Options) : Outcome Phone × Switchboard Phone Phone.Control :=
  revoked.obey Phone.source (hear Phone.source deaf 0) none (onSecond options)

end Sample

/-- On the other slot the second listener is refused; on the default slot it joins the
first, and nothing but its registration happens. -/
theorem registration_needs_access_revoked :
    Reaches Phone.source (fresh Sample.settings Sample.phone) Sample.revoked ∧
      ¬ Sample.revoked.source.Entitled .networkState ∧
      (∃ e, (Sample.asked (some ⟨1⟩)).1 = .error e ∧ e.category = .permissionDenied ∧
        (Sample.asked (some ⟨1⟩)).2.registry = Sample.revoked.registry) ∧
      (Sample.asked none).1 = .ok (.id 2) ∧
      (Sample.asked none).2.registry.live =
        Sample.revoked.registry.live ++ [(Sample.second none).made Sample.revoked.registry] ∧
      (Sample.asked none).2.source = Sample.revoked.source ∧
      (Sample.asked none).2.trace =
        .did none (Sample.onSecond none) (.ok (.id 2)) :: Sample.revoked.trace :=
  have hother := registration_needs_access Sample.reaches_revoked
    (hear Phone.source Sample.deaf 0) none (c := Sample.onSecond (some ⟨1⟩)) rfl
    rfl (Sample.isNew_second _ (.inr rfl))
    Sample.not_entitled_revoked
  have hdefault := registration_needs_access Sample.reaches_revoked
    (hear Phone.source Sample.deaf 0) none (c := Sample.onSecond none) rfl
    rfl (Sample.isNew_second _ (.inl rfl))
    Sample.not_entitled_revoked
  have ⟨e, he, hcategory, hsame⟩ := hother.1 (by decide)
  have hjoined := hdefault.2 (by decide)
  ⟨Sample.reaches_revoked, Sample.not_entitled_revoked, ⟨e, he, hcategory rfl, hsame⟩,
    hjoined.1, hjoined.2.1, hjoined.2.2.1, hjoined.2.2.2.1⟩

/-- **An application can register for what it has no access to.** -/
theorem covered_registration_unchecked :
    Reaches Phone.source (fresh Sample.settings Sample.phone) Sample.revoked ∧
      (Sample.second none).IsNew Sample.revoked.registry ∧
      ¬ Sample.revoked.source.Entitled (Sample.second none).kind ∧
      ¬ ((∃ e, (Sample.asked none).1 = .error e) ∧
        (Sample.asked none).2.registry.live = Sample.revoked.registry.live) :=
  ⟨Sample.reaches_revoked, Sample.isNew_second none (.inl rfl), Sample.not_entitled_revoked,
    fun ⟨⟨_, he⟩, _⟩ => by contradiction⟩

end Switchboard

end SlotWatch

import SlotWatch.Proofs.Access
import SlotWatch.Proofs.Cache
import SlotWatch.Proofs.Replaying
import SlotWatch.Proofs.Roll

/-!
# SlotWatch.Proofs.RollBoard

Boards that a roll describes.

A roll describes a board if the live registrations are made for its entries, in their order,
and the phone has its permissions and data connections (`Roll.Describes`).  Whatever the
board is asked for is then answered as on the roll, and what is left of the roll describes
what is left of the board (`Roll.Answers`):

1. a registration is made as a listener is entered (`answers_place`);
2. registrations are removed as entries are struck (`answers_remove`);
3. the default slot moves as on the roll (`answers_setDefault`);
4. of an update the same listeners are told (`answers_update`).
-/

namespace SlotWatch

/-! ## phones -/

/-- Whether a phone is as a roll has it. -/
structure Phone.Backs (pr : Premises) (roll : Roll) (p : Phone) : Prop where
  connected : p.connected = true
  systemApp_eq : p.systemApp = pr.systemApp
  holds_iff (permission) : p.holds permission = true ↔ permission ∈ roll.granted
  sorted : p.cache.Sorted
  connection_eq (slot) : (p.state slot).dataConnection = roll.connections slot

namespace Phone.Backs

variable {pr : Premises} {roll : Roll} {p : Phone}

/-- A phone gives access to the kinds that the roll does. -/
theorem access_eq (h : p.Backs pr roll) (kind : Kind) :
    p.access kind = roll.checkAccess pr kind := by
  have hholds : (fun permission => !p.holds permission) =
      fun permission => decide (permission ∉ roll.granted) := by
    funext permission
    simp [← h.holds_iff]
  cases hmissing : kind.permissions.find? fun permission =>
      decide (permission ∉ roll.granted) with
  | none => simp only [access, Roll.checkAccess, hholds, h.systemApp_eq, hmissing]
  | some permission => simp only [access, Roll.checkAccess, hholds, h.systemApp_eq, hmissing]

/-- A phone that is connected starts what the application has access to. -/
theorem start_eq (h : p.Backs pr roll) (feed : Feed) :
    (p.start feed).1 = roll.checkAccess pr feed.2 := by
  unfold start
  rw [h.connected, h.access_eq]
  cases roll.checkAccess pr feed.2 <;> rfl

/-- A phone that is connected stops whatever it is asked to. -/
theorem stop_eq (h : p.Backs pr roll) (feed : Feed) : (p.stop feed).1 = .ok () := by
  unfold stop
  rw [h.connected]
  rfl

/-- Requests change only what is observed. -/
theorem answer (h : p.Backs pr roll) (request : Request) (feed : Feed) :
    (Phone.source.answer request feed p).2.Backs pr roll := by
  have hobserving (feeds : List Feed) : Backs pr roll { p with observing := feeds } :=
    ⟨h.connected, h.systemApp_eq, h.holds_iff, h.sorted, h.connection_eq⟩
  cases request with
  | start =>
      simp only [Source.answer, source, start]
      split
      · exact h
      · split
        · exact h
        · exact hobserving _
  | stop =>
      simp only [Source.answer, source, stop]
      split
      · exact h
      · exact hobserving _

/-- A phone has no say in what is entered, or which slot is the default slot. -/
theorem congr (h : p.Backs pr roll) {roll' : Roll} (hgranted : roll'.granted = roll.granted)
    (hconnections : roll'.connections = roll.connections) : p.Backs pr roll' where
  connected := h.connected
  systemApp_eq := h.systemApp_eq
  holds_iff permission := by rw [hgranted, h.holds_iff]
  sorted := h.sorted
  connection_eq slot := by rw [hconnections, h.connection_eq]

/-- A permission is granted on the roll as well. -/
theorem grant (h : p.Backs pr roll) (permission : String) :
    (p.grant permission).Backs pr { roll with granted := insert permission roll.granted } where
  connected := by
    unfold Phone.grant
    split <;> exact h.connected
  systemApp_eq := by
    unfold Phone.grant
    split <;> exact h.systemApp_eq
  holds_iff other := by
    rw [holds_grant, Finset.mem_insert, Bool.or_eq_true, beq_iff_eq, h.holds_iff, or_comm,
      eq_comm]
  sorted := by
    unfold Phone.grant
    split <;> exact h.sorted
  connection_eq := by
    unfold Phone.grant
    split <;> exact h.connection_eq

/-- A permission is revoked on the roll as well. -/
theorem revoke (h : p.Backs pr roll) (permission : String) :
    (p.revoke permission).Backs pr { roll with granted := roll.granted.erase permission } where
  connected := h.connected
  systemApp_eq := h.systemApp_eq
  holds_iff other := by
    rw [holds_revoke, Finset.mem_erase, Bool.and_eq_true, bne_iff_ne, h.holds_iff, and_comm,
      ne_comm]
  sorted := h.sorted
  connection_eq := h.connection_eq

/-- The call log is disclosed to whoever holds the permission on the roll. -/
theorem disclose_eq (h : p.Backs pr roll) (q : Payload) : p.disclose q = roll.disclose q := by
  have hmay := h.holds_iff Permission.readCallLog
  cases q with
  | callState c => simp [disclose, Roll.disclose, hmay]
  | _ => rfl

/-- Whether a connection has changed is told by the roll. -/
theorem repeats_eq (h : p.Backs pr roll) (slot : Slot) (q : Payload) :
    p.repeats slot q = roll.repeats slot q := by
  cases q with
  | dataConnection d =>
      simp only [repeats, Roll.repeats, h.connection_eq, Bool.beq_eq_decide_eq]
  | _ => rfl

/-- Of what a phone remembers the roll keeps the connections. -/
theorem remember (h : p.Backs pr roll) (slot : Slot) (q : Payload) :
    (p.remember slot q).Backs pr (roll.remember slot q) := by
  have hstate (t : Slot) := state_remember h.sorted slot t q
  have hother (hq : ∀ s : SlotState, (s.put q).dataConnection = s.dataConnection) (t : Slot) :
      ((p.remember slot q).state t).dataConnection = roll.connections t := by
    rw [hstate]
    split
    · next heq =>
        rw [heq]
        exact (hq _).trans (h.connection_eq slot)
    · exact h.connection_eq t
  cases q with
  | dataConnection d =>
      refine ⟨h.connected, h.systemApp_eq, h.holds_iff, sorted_remember h.sorted slot _, ?_⟩
      intro t
      rw [hstate]
      simp only [Roll.remember]
      split
      · rfl
      · exact h.connection_eq t
  | _ =>
      exact ⟨h.connected, h.systemApp_eq, h.holds_iff, sorted_remember h.sorted slot _,
        hother fun _ => rfl⟩

end Phone.Backs

/-! ## boards -/

namespace Roll

open Switchboard Simulation

/-- Whether a roll describes a board: the live registrations are made for its entries, in
their order, and the rest is as the roll has it. -/
structure Describes (pr : Premises) (roll : Roll) (b : Switchboard Phone Phone.Control) :
    Prop where
  terms_eq : b.registry.live.map Registration.terms = roll.entries.map Entry.terms
  defaultSlot_eq : b.registry.defaultSlot = roll.defaultSlot
  slotCount_eq : b.registry.slotCount = pr.slotCount
  phone : b.source.Backs pr roll

/-- Whether a board answers as a roll does, and what it leaves is described by what is left
of the roll. -/
def Answers (pr : Premises) (roll : Roll) (b : Switchboard Phone Phone.Control)
    (onBoard : Outcome Phone × Switchboard Phone Phone.Control) :
    Except Failure (List Delivery × Roll) → Prop
  | .error e => failure? onBoard.1 = some e ∧ heard onBoard.2.trace = heard b.trace ∧
      roll.Describes pr onBoard.2
  | .ok (ds, after) => failure? onBoard.1 = none ∧
      heard onBoard.2.trace = ds.reverse ++ heard b.trace ∧ after.mentioned = roll.mentioned ∧
      after.Describes pr onBoard.2

/-! ### entries and registrations -/

section
variable {rs : List Registration} {es : List Entry} {f : Registration → Bool} {g : Entry → Bool}

/-- What holds of a registration if it holds of its entry is looked for in the same
places. -/
theorem any_of_terms (h : rs.map Registration.terms = es.map Entry.terms)
    (hfg : ∀ r ∈ rs, ∀ e, r.terms = e.terms → f r = g e) : rs.any f = es.any g := by
  induction rs generalizing es with
  | nil =>
      cases es with
      | nil => rfl
      | cons e es => contradiction
  | cons r rs ih =>
      cases es with
      | nil => contradiction
      | cons e es =>
          obtain ⟨hfirst, hrest⟩ := List.cons.inj h
          have hothers := ih hrest fun r hr => hfg r (List.mem_cons_of_mem _ hr)
          rw [List.any_cons, List.any_cons, hfg r List.mem_cons_self e hfirst, hothers]

/-- Entries and registrations are struck alike if they are selected alike. -/
theorem filter_of_terms (h : rs.map Registration.terms = es.map Entry.terms)
    (hfg : ∀ r ∈ rs, ∀ e, r.terms = e.terms → f r = g e) :
    (rs.filter f).map Registration.terms = (es.filter g).map Entry.terms := by
  induction rs generalizing es with
  | nil =>
      cases es with
      | nil => rfl
      | cons e es => contradiction
  | cons r rs ih =>
      cases es with
      | nil => contradiction
      | cons e es =>
          obtain ⟨hfirst, hrest⟩ := List.cons.inj h
          have hothers := ih hrest fun r hr => hfg r (List.mem_cons_of_mem _ hr)
          rw [List.filter_cons, List.filter_cons, hfg r List.mem_cons_self e hfirst]
          split
          · rw [List.map_cons, List.map_cons, hfirst, hothers]
          · exact hothers

end

section
variable {pr : Premises} {roll : Roll} {settings : SlotSettings} {phone : Phone}
  {b : Switchboard Phone Phone.Control} {q : Payload}

/-- A phone stays as the roll has it when feeds are started and stopped. -/
theorem respects_backs (pr : Premises) (roll : Roll) :
    Phone.source.Respects fun p p' => p' = p ∧ p.Backs pr roll := by
  rintro request feed p p' ⟨rfl, h⟩
  exact ⟨rfl, rfl, h.answer request feed⟩

theorem Describes.matched (h : roll.Describes pr b) :
    Matched (fun p p' => p' = p ∧ p.Backs pr roll) b b :=
  ⟨rfl, rfl, rfl, rfl, ⟨rfl, h.phone⟩, rfl⟩

/-- A feed is observed if an entry of the kind stands for the slot. -/
theorem Describes.observes_eq (h : roll.Describes pr b) (hsound : b.registry.Sound settings)
    (kind : Kind) (slot : Slot) : b.registry.observes (slot, kind) = roll.covers kind slot := by
  refine any_of_terms h.terms_eq fun r hr e he => ?_
  have hobserved := hsound.observed_eq hr
  obtain ⟨hkind, hselector, -, -⟩ := Entry.terms_eq_iff.mp he
  rw [h.defaultSlot_eq, hselector] at hobserved
  rw [Bool.eq_iff_iff, decide_eq_true_eq]
  simp [Registration.feed, hobserved, hkind, Entry.slot, and_comm]

/-- Someone is entered if there is a live registration. -/
theorem Describes.mem_iff (h : roll.Describes pr b) (e : Entry) :
    e ∈ roll.entries ↔ ∃ r ∈ b.registry.live, r.terms = e.terms := by
  rw [← List.mem_map_of_injective Entry.terms_injective, ← h.terms_eq, List.mem_map]

/-- The same slots are in the range of a kind. -/
theorem Describes.validateSlot_eq (h : roll.Describes pr b) (kind : Kind) (slot : Slot) :
    b.registry.validateSlot kind slot = checkSlot pr kind slot := by
  rw [Registry.validateSlot_eq, h.slotCount_eq]
  rfl

/-- The same selectors are in order. -/
theorem Describes.selector_eq (h : roll.Describes pr b) (kind : Kind)
    (options : Option Options) :
    b.registry.selector kind options =
      (checkOptions pr kind options).map fun () => options.map (·.slot) := by
  cases options with
  | none => rfl
  | some o =>
      simp only [Registry.selector, checkOptions, h.validateSlot_eq]
      split <;> rfl

/-! ### requests -/

/-- No stop is refused. -/
theorem stopAll_ok (h : b.source.Backs pr roll) (feeds : List Feed) :
    (b.stopAll Phone.source feeds).1 = .ok () := by
  induction feeds generalizing b with
  | nil => rfl
  | cons feed feeds ih =>
      have hstop : (b.ask Phone.source .stop feed).1 = .ok () := h.stop_eq feed
      rw [stopAll_cons_of_ok Phone.source hstop]
      exact ih (h.answer .stop feed)

/-- Feeds are started as far as the application has access to them. -/
theorem startAll_eq (h : b.source.Backs pr roll) (started feeds : List Feed) :
    (b.startAll Phone.source started feeds).1 =
      forM feeds fun feed => roll.checkAccess pr feed.2 := by
  induction feeds generalizing b started with
  | nil => rfl
  | cons feed feeds ih =>
      have hstart : (b.ask Phone.source .start feed).1 = roll.checkAccess pr feed.2 :=
        h.start_eq feed
      rw [List.forM_cons]
      cases haccess : roll.checkAccess pr feed.2 with
      | error e =>
          rw [haccess] at hstart
          rw [startAll_cons_of_error Phone.source hstart]
          rfl
      | ok =>
          rw [haccess] at hstart
          rw [startAll_cons_of_ok Phone.source hstart]
          exact ih (h.answer .start feed) _

/-! ### entering and striking -/

/-- Inboxes and the trace are not on the roll. -/
theorem Describes.congr (h : roll.Describes pr b) {b' : Switchboard Phone Phone.Control}
    (hregistry : b'.registry = b.registry) (hphone : b'.source.Backs pr roll) :
    roll.Describes pr b' where
  terms_eq := by rw [hregistry, h.terms_eq]
  defaultSlot_eq := by rw [hregistry, h.defaultSlot_eq]
  slotCount_eq := by rw [hregistry, h.slotCount_eq]
  phone := hphone

/-- The phone changes, and the roll with it. -/
theorem Describes.withPhone (h : roll.Describes pr b) {roll' : Roll} {p : Phone}
    (hphone : p.Backs pr roll') (hentries : roll'.entries = roll.entries)
    (hdefault : roll'.defaultSlot = roll.defaultSlot) :
    roll'.Describes pr { b with source := p } where
  terms_eq := by rw [hentries, h.terms_eq]
  defaultSlot_eq := by rw [hdefault, h.defaultSlot_eq]
  slotCount_eq := h.slotCount_eq
  phone := hphone

/-- A registration that is made for an entry is entered. -/
theorem Describes.add (h : roll.Describes pr b) (e : Entry) :
    Describes pr { roll with entries := roll.entries ++ [e] }
      { b with registry := b.registry.add e.kind e.selector (.whole e.listener) e.mode } where
  terms_eq := by
    simp only [Registry.add, List.map_append, h.terms_eq]
    rfl
  defaultSlot_eq := h.defaultSlot_eq
  slotCount_eq := h.slotCount_eq
  phone := h.phone.congr rfl rfl

/-- A kind is observed on a slot, or can be, as the roll has it. -/
theorem ensure_eq (h : roll.Describes pr b) (hsound : b.registry.Sound settings) (kind : Kind)
    (slot : Slot) :
    (b.ensure Phone.source (slot, kind)).1 = roll.checkCover pr kind slot ∧
      (b.ensure Phone.source (slot, kind)).2.registry = b.registry ∧
      heard (b.ensure Phone.source (slot, kind)).2.trace = heard b.trace ∧
      (b.ensure Phone.source (slot, kind)).2.source.Backs pr roll := by
  have hphone := (h.matched.ensure (respects_backs pr roll) (slot, kind)).2.source.2
  revert hphone
  unfold ensure checkCover
  rw [h.observes_eq hsound]
  split
  · exact fun hphone => ⟨rfl, rfl, rfl, hphone⟩
  · exact fun hphone => ⟨h.phone.start_eq (slot, kind), rfl, rfl, hphone⟩

/-- What a listener asks for who is to be entered. -/
def bid (kind : Kind) (listener : String) (options : Option Options) (once : Bool) : Bid :=
  ⟨kind, options, .whole listener, if once then .oneShot else .repeating⟩

/-- A registration is made as a listener is entered. -/
theorem answers_place (h : roll.Describes pr b) (hsound : b.registry.Sound settings)
    (kind : Kind) (listener : String) (options : Option Options) (once : Bool) :
    Answers pr roll b
      (answered .id (b.place Phone.source (bid kind listener options once)))
      ((roll.enter pr kind listener options once).map ([], ·)) := by
  have hs := h.selector_eq kind options
  let e : Entry := { listener, kind, selector := options.map (·.slot), once }
  cases hoptions : checkOptions pr kind options with
  | error failure =>
      rw [hoptions] at hs
      have hplaced : b.place Phone.source (bid kind listener options once) =
          (.error failure, b) := by
        simp only [place, bid, register, hs]
        rfl
      rw [hplaced, enter_of_unfit hoptions]
      exact ⟨rfl, rfl, h⟩
  | ok =>
      rw [hoptions] at hs
      by_cases hentry : e ∈ roll.entries
      · obtain ⟨r, hr, hterms⟩ := (h.mem_iff e).mp hentry
        have hplaced : b.place Phone.source (bid kind listener options once) = (.ok r.id, b) :=
          register_of_repeated hsound hr hterms
        rw [hplaced, enter_of_entered hoptions hentry]
        exact ⟨rfl, rfl, rfl, h⟩
      · have hnew : (bid kind listener options once).IsNew b.registry := by
          refine ⟨(Registry.selector_eq_ok_iff.mp hs).2, fun r hr hterms => ?_⟩
          exact hentry ((h.mem_iff e).mpr ⟨r, hr, hterms⟩)
        have hfeed : (bid kind listener options once).feed b.registry =
            (e.slot roll.defaultSlot, kind) := by
          rw [← h.defaultSlot_eq]
          rfl
        have hensure := ensure_eq h hsound kind (e.slot roll.defaultSlot)
        rw [enter_of_new hoptions rfl hentry, place_of_new hnew, hfeed]
        revert hensure
        rcases b.ensure Phone.source (e.slot roll.defaultSlot, kind) with ⟨o, b'⟩
        rintro ⟨hcover, hregistry, hheard, hphone⟩
        simp only at hcover hregistry hheard hphone
        rw [← hcover]
        cases o with
        | error failure => exact ⟨rfl, hheard, h.congr hregistry hphone⟩
        | ok => exact ⟨rfl, hheard, rfl, (h.congr hregistry hphone).add e⟩

/-- Registrations are removed as entries are struck. -/
theorem answers_remove (h : roll.Describes pr b) (kind : Kind) (listener : Option String) :
    Answers pr roll b
      (answered .count (b.remove Phone.source kind (listener.map .whole)))
      (.ok ([], roll.strike kind listener)) := by
  let selected : Registration → Bool := fun r =>
    r.kind == kind && (listener.map Callback.whole).all (r.callback == ·)
  have hphone := (h.matched.withdraw (respects_backs pr roll) selected).2.source.2
  have hstopped : (b.withdraw Phone.source selected).1 =
      .ok (b.registry.withdraw selected).removed := by
    have hstop :=
      stopAll_ok (b := b.struck selected) h.phone (b.registry.withdraw selected).released
    rw [withdraw_eq, hstop]
    rfl
  have hheard : heard (b.withdraw Phone.source selected).2.trace = heard b.trace := by
    rw [← heard_story, story_withdraw, ← heard_story b.trace]
    rfl
  have hregistry := withdraw_registry Phone.source selected b
  have hterms := filter_of_terms (f := fun r => !selected r) (g := fun e =>
    !(e.kind == kind && listener.all (e.listener == ·))) h.terms_eq fun r _ e he => by
      obtain ⟨hkind, -, hcallback, -⟩ := Entry.terms_eq_iff.mp he
      rw [Bool.eq_iff_iff]
      cases listener <;> simp [selected, hkind, hcallback]
  have hremove : b.remove Phone.source kind (listener.map .whole) =
      ((b.withdraw Phone.source selected).1.map List.length,
        (b.withdraw Phone.source selected).2) := rfl
  rw [hremove, hstopped]
  refine ⟨rfl, hheard, rfl, ?_, ?_, ?_, ?_⟩
  · simp only [answered, hregistry]
    exact hterms
  · simp only [answered, hregistry]
    exact h.defaultSlot_eq
  · simp only [answered, hregistry]
    exact h.slotCount_eq
  · exact hphone.congr rfl rfl

/-! ### the default slot -/

/-- A kind follows the default slot if a live registration of it has no selector. -/
theorem Describes.mem_following (h : roll.Describes pr b) (kind : Kind) :
    kind ∈ roll.following ↔ ∃ r ∈ b.registry.live, r.kind = kind ∧ r.selector = none := by
  have hall : kind ∈ Kind.all := by cases kind <;> decide
  have hany := any_of_terms (f := fun r => decide (r.kind = kind ∧ r.selector = none))
    (g := fun e => decide (e.kind = kind ∧ e.selector = none)) h.terms_eq fun r _ e he => by
      obtain ⟨hkind, hselector, -, -⟩ := Entry.terms_eq_iff.mp he
      rw [hkind, hselector]
  rw [following, List.mem_filter, ← hany]
  simp [hall]

/-- What has to be started is of the kinds that follow the default slot and are not covered
yet. -/
theorem arrivals_eq (h : roll.Describes pr b) (hsound : b.registry.Sound settings) {slot : Slot}
    (hslot : b.registry.defaultSlot ≠ slot) :
    b.registry.arrivals slot =
      (roll.following.filter fun kind => !roll.covers kind slot).map fun kind => (slot, kind) := by
  have hkinds : Feed.Ascending (Kind.all.map fun kind => (slot, kind)) := by
    simp [Feed.Ascending, Kind.all, Named.all, Feed.precedes, Kind.rank]
  have hsublist : (roll.following.filter fun kind => !roll.covers kind slot).Sublist Kind.all :=
    List.filter_sublist.trans List.filter_sublist
  have hfollows : ∀ r ∈ b.registry.live, r.follows slot = true ↔ r.selector = none := by
    intro r hr
    have hobserved := hsound.observed_eq hr
    cases hselector : r.selector with
    | some selected => simp [Registration.follows, hselector]
    | none =>
        rw [hselector] at hobserved
        simpa [Registration.follows, hselector, hobserved] using hslot
  refine Feed.Ascending.eq_of_mem_iff (Feed.ascending_ascending _)
    (hkinds.sublist (hsublist.map _)) fun feed => ?_
  rw [Registry.mem_arrivals]
  constructor
  · rintro ⟨⟨r, hr, hfollow, rfl⟩, hnew⟩
    rw [h.observes_eq hsound] at hnew
    have hkind := (h.mem_following r.kind).mpr ⟨r, hr, rfl, (hfollows r hr).mp hfollow⟩
    simp [hkind, hnew]
  · intro hfeed
    obtain ⟨kind, hkind, rfl⟩ := List.mem_map.mp hfeed
    obtain ⟨hfollowing, hnew⟩ := List.mem_filter.mp hkind
    obtain ⟨r, hr, rfl, hselector⟩ := (h.mem_following kind).mp hfollowing
    refine ⟨⟨r, hr, (hfollows r hr).mpr hselector, rfl⟩, ?_⟩
    rw [h.observes_eq hsound]
    simpa using hnew

/-- The default slot moves as on the roll. -/
theorem answers_setDefault (h : roll.Describes pr b) (hsound : b.registry.Sound settings)
    (slot : Slot) :
    Answers pr roll b (answered (fun () => .done) (b.setDefault Phone.source slot))
      ((roll.moveDefault pr slot).map ([], ·)) := by
  have hphone := (h.matched.setDefault (respects_backs pr roll) slot).2.source.2
  have hcases := moving Phone.source slot b
  have hheard : heard (b.setDefault Phone.source slot).2.trace = heard b.trace := by
    rw [← heard_story, hcases.story_eq, heard_story]
  have hcount := h.slotCount_eq
  revert hphone hcases hheard
  rcases b.setDefault Phone.source slot with ⟨o, b'⟩
  simp only
  intro hphone hcases hheard
  cases hcases with
  | outside hrange =>
      rw [moveDefault_of_outside (hcount ▸ hrange), hcount]
      exact ⟨rfl, hheard, h⟩
  | stayed hrange hsame =>
      have hcovered : (roll.following.filter fun kind => !roll.covers kind slot) = [] := by
        refine List.filter_eq_nil_iff.mpr fun kind hkind => ?_
        obtain ⟨r, hr, rfl, hselector⟩ := (h.mem_following kind).mp hkind
        have hobserved := hsound.observed_eq hr
        rw [hselector, hsame] at hobserved
        have hfeed : r.feed = (slot, r.kind) := Prod.ext hobserved rfl
        have hobserves := Registry.observes_iff.mpr ⟨r, hr, hfeed⟩
        rw [h.observes_eq hsound] at hobserves
        simp [hobserves]
      rw [moveDefault_of_inside (hcount ▸ hrange), hcovered]
      refine ⟨rfl, hheard, rfl, h.terms_eq, hsame, hcount, hphone.congr rfl rfl⟩
  | refused hrange hne ha =>
      rw [startAll_eq h.phone, arrivals_eq h hsound hne, List.forM_map] at ha
      rw [moveDefault_of_inside (hcount ▸ hrange), ha]
      exact ⟨rfl, hheard, h.congr (startAll_registry _ _ _ _) hphone⟩
  | moved hrange hne ha =>
      rw [startAll_eq h.phone, arrivals_eq h hsound hne, List.forM_map] at ha
      rw [moveDefault_of_inside (hcount ▸ hrange), ha]
      refine ⟨rfl, hheard, rfl, ?_, ?_, ?_, hphone.congr rfl rfl⟩
      · simp only [answered, stopAll_registry, relocated_registry]
        simp [Registry.moveDefault, ← h.terms_eq]
      · simp only [answered, stopAll_registry, relocated_registry]
        rfl
      · simp only [answered, stopAll_registry, relocated_registry]
        exact hcount

/-! ### publishing -/

/-- Whom an event is for can be read off the entries. -/
theorem hears_of_terms {r : Registration} {e : Entry} (he : r.terms = e.terms) (kind : Kind)
    (slot defaultSlot : Slot) :
    r.hears kind slot defaultSlot = true ↔
      e.kind = kind ∧ (kind = .iccAccount ∨ e.slot defaultSlot = slot) := by
  obtain ⟨hkind, hselector, -, -⟩ := Entry.terms_eq_iff.mp he
  have hselectable : kind.selectable = false ↔ kind = .iccAccount := by cases kind <;> decide
  have hdefault : slot = defaultSlot ↔ defaultSlot = slot := eq_comm
  rw [Registration.hears, hkind, hselector, Entry.slot]
  cases e.selector <;> simp [hselectable, hdefault]

/-- Who is told of an event can be read off the entries. -/
theorem filterMap_delivery? {rs : List Registration} {es : List Entry}
    (h : rs.map Registration.terms = es.map Entry.terms) (q : Payload) :
    rs.filterMap (·.delivery? q) = es.map fun e => ⟨e.listener, q⟩ := by
  have hterms (rs : List Registration) : rs.filterMap (·.delivery? q) =
      (rs.map Registration.terms).filterMap fun t =>
        t.2.2.1.listener?.map fun listener => ⟨listener, q⟩ := by
    rw [List.filterMap_map]
    rfl
  rw [hterms, h, List.filterMap_map]
  exact congrFun (List.filterMap_eq_map (f := fun e : Entry => (⟨e.listener, q⟩ : Delivery))) es

/-- A publish tells whom the roll says it is for. -/
theorem answers_publish (h : roll.Describes pr b)
    (hb : Reaches Phone.source (Switchboard.fresh settings phone) b) {kind : Kind}
    {slot : Option Slot} {q : Payload} (hp : Permitted b.registry kind slot q)
    (addressed : Entry → Bool)
    (haddressed : ∀ r : Registration, ∀ e, r.terms = e.terms →
      r.hears kind (slot.getD roll.defaultSlot) roll.defaultSlot = addressed e) :
    Answers pr roll b (answered .count (b.publish Phone.source call kind slot q))
      (.ok (roll.tell q addressed)) := by
  have hphone := (h.matched.publish matched_call (respects_backs pr roll) kind slot q).2.source.2
  obtain ⟨⟨n, hn⟩, hheard, waiting, armed, hregistry⟩ := publish_call hb hp
  rw [← audience_eq, h.defaultSlot_eq] at hheard
  have hroster : (b.audience kind (slot.getD roll.defaultSlot)).map Registration.terms =
      (roll.entries.filter addressed).map Entry.terms := by
    refine filter_of_terms h.terms_eq fun r _ e he => ?_
    rw [h.defaultSlot_eq]
    exact haddressed r e he
  have hstay : (b.registry.live.filter fun r =>
        !b.registry.fires kind (slot.getD b.registry.defaultSlot) r).map Registration.terms =
      (roll.entries.filter fun e => !(addressed e && e.once)).map Entry.terms := by
    refine filter_of_terms h.terms_eq fun r _ e he => ?_
    have hmode : (r.mode == .oneShot) = e.once := by
      have hsame := (Entry.terms_eq_iff.mp he).2.2.2
      rw [hsame, Entry.mode]
      cases e.once <;> rfl
    rw [Registry.fires, h.defaultSlot_eq, haddressed r e he, hmode]
  rw [filterMap_delivery? hroster] at hheard
  refine ⟨?_, hheard, rfl, ?_, ?_, ?_, hphone.congr rfl rfl⟩
  · simp only [answered, hn]
    rfl
  · simp only [answered, hregistry]
    exact hstay
  · simp only [answered, hregistry]
    exact h.defaultSlot_eq
  · simp only [answered, hregistry]
    exact h.slotCount_eq

/-- A report is remembered on the roll as well. -/
theorem Describes.remember (h : roll.Describes pr b) (slot : Slot) (q : Payload)
    (e : Event Phone Phone.Control) :
    (roll.remember slot q).Describes pr
      (note { b with source := b.source.remember slot q } e) := by
  have hphone := h.phone.remember slot q
  exact (h.withPhone hphone (entries_remember slot q roll)
    (defaultSlot_remember slot q roll)).congr rfl hphone

/-- News is what the roll does not have, as far as it may be disclosed. -/
theorem report_eq (h : b.source.Backs pr roll) (slot : Slot) (q : Payload) :
    b.report Phone.source slot q =
      if roll.repeats slot q then (none, b.note (.updated slot q none))
      else (some (roll.disclose q),
        note { b with source := b.source.remember slot q }
          (.updated slot q (some (roll.disclose q)))) := by
  unfold report
  simp only [Phone.source, Phone.report, h.repeats_eq, h.disclose_eq]
  split <;> rfl

/-- An update has its news told as on the roll. -/
theorem answers_update (h : roll.Describes pr b)
    (hb : Reaches Phone.source (Switchboard.fresh settings phone) b) (slot : Option Slot)
    (q : Payload) :
    Answers pr roll b
      (answered .count (b.update Phone.source call (slot.getD roll.defaultSlot) q))
      (roll.publish pr slot q) := by
  by_cases hicc : q.kind = .iccAccount
  · unfold update publish
    rw [if_pos hicc, if_pos hicc]
    refine answers_publish h hb ⟨hicc, nofun⟩ _ fun r e he => ?_
    rw [Bool.eq_iff_iff, hears_of_terms he]
    simp
  rw [publish_eq hicc]
  cases hslot : checkSlot pr q.kind (slot.getD roll.defaultSlot) with
  | error e =>
      have hupdate : b.update Phone.source call (slot.getD roll.defaultSlot) q =
          (.error e, b) := by
        simp only [update, if_neg hicc, h.validateSlot_eq, hslot]
      rw [hupdate]
      exact ⟨rfl, rfl, h⟩
  | ok =>
      simp only [update, if_neg hicc, h.validateSlot_eq, hslot, report_eq h.phone, Except.map]
      cases hrepeats : roll.repeats (slot.getD roll.defaultSlot) q with
      | true => exact ⟨rfl, rfl, rfl, h.congr rfl h.phone⟩
      | false =>
          simp only [Bool.false_eq_true, if_false]
          have hremember := h.remember (slot.getD roll.defaultSlot) q
            (.updated (slot.getD roll.defaultSlot) q (some (roll.disclose q)))
          have hreport : Reaches Phone.source (Switchboard.fresh settings phone) _ :=
            hb.tail (.report (slot.getD roll.defaultSlot) q b)
          rw [report_eq h.phone, hrepeats] at hreport
          have hpermitted : Permitted b.registry q.kind (some (slot.getD roll.defaultSlot))
              (roll.disclose q) := by
            refine ⟨kind_disclose q, ?_⟩
            rintro _ ⟨⟩ -
            exact (h.validateSlot_eq _ _).trans hslot
          obtain ⟨hfailure, hheard, hmentioned, hafter⟩ :=
            answers_publish hremember hreport hpermitted
              (fun e => e.kind = q.kind ∧ e.slot roll.defaultSlot = slot.getD roll.defaultSlot)
              fun r e he => by
                rw [Bool.eq_iff_iff, hears_of_terms he, defaultSlot_remember]
                simp [hicc]
          exact ⟨hfailure, hheard, hmentioned.trans (mentioned_remember _ q roll), hafter⟩

end

end Roll

end SlotWatch

import SlotWatch.Proofs.Access
import SlotWatch.Proofs.Delivery
import SlotWatch.Proofs.OneShot

/-!
# SlotWatch.Proofs.Shape

Listeners get what they were registered for.

1. A payload has a value for its own kind and for no other, and is the payload of that value
   (`Payload.extract?_eq_some_iff`).
2. Whatever is collected or called at some moment is of the kind of the payload, and its
   callback is for that kind (`Shaped`); so no callback is ever due that cannot be handed the
   payload.
3. An id that a command was given stands for what the command asked for, for good (`Signed`).

Together: whatever goes by the id is offered only payloads of the shape that the command asked
for (`payloads_fit`).
-/

namespace SlotWatch

variable {σ ε : Type}

/-! ## payloads -/

namespace Payload

/-- A value that is made a payload can be taken out of it. -/
theorem extract?_wrap (k : Kind) (v : k.Value) : (wrap k v).extract? k = some v := by
  cases k <;> rfl

/-- A payload has the value it was made from, for its own kind only. -/
theorem extract?_eq_some_iff {k : Kind} {v : k.Value} {p : Payload} :
    p.extract? k = some v ↔ wrap k v = p := by
  constructor
  · intro h
    cases k <;> cases p <;> first | contradiction | (cases h; rfl)
  · rintro rfl
    exact extract?_wrap k v

/-- Every payload is made of a value of its kind. -/
theorem exists_wrap (p : Payload) : ∃ v : p.kind.Value, wrap p.kind v = p := by
  obtain ⟨v, hv⟩ := Option.isSome_iff_exists.mp p.isSome_extract?
  exact ⟨v, extract?_eq_some_iff.mp hv⟩

end Payload

/-! ## what is offered -/

/-- The registrations that an event offers a payload: those a publish is to call, and the one
that is called. -/
def Event.offers : Event σ ε → List (Registration × Payload)
  | .published _ _ p called => called.map (·, p)
  | .delivered r p => [(r, p)]
  | .mismatched r p => [(r, p)]
  | _ => []

/-- The payloads that registrations have been offered, latest first. -/
def offers (trace : List (Event σ ε)) : List (Registration × Payload) :=
  trace.flatMap Event.offers

theorem offers_cons (e : Event σ ε) (es : List (Event σ ε)) :
    offers (e :: es) = e.offers ++ offers es :=
  List.flatMap_cons

@[simp] theorem offers_handed (r : Registration) (p : Payload) :
    (r.handed p : Event σ ε).offers = [(r, p)] := by
  unfold Registration.handed
  split <;> rfl

theorem offers_of_isRemark {e : Event σ ε} (h : e.isRemark = true) : e.offers = [] := by
  cases e <;> first | rfl | contradiction

theorem offers_story (trace : List (Event σ ε)) : offers (story trace) = offers trace := by
  induction trace with
  | nil => rfl
  | cons e es ih =>
      cases hr : e.isRequest with
      | true =>
          have hnone : e.offers = [] := by cases e <;> first | rfl | contradiction
          rw [story_cons_of_isRequest hr, ih, offers_cons, hnone, List.nil_append]
      | false => rw [story_cons hr, offers_cons, offers_cons, ih]

namespace Switchboard

variable {S : Source σ ε}

/-! ## shapes -/

/-- Whether what is offered a payload is for its kind. -/
structure Shaped (g : Registry) (due : List Registration) (story : List (Event σ ε)) : Prop where
  suited : Suited g due story
  offered {r p} : (r, p) ∈ offers story → r.kind = p.kind ∧ r.callback.suits r.kind
  not_mismatched (r p) : .mismatched r p ∉ story

/-- What is offered a payload is live or due, and so for its kind. -/
theorem upheld_shaped : Upheld (Shaped : _ → _ → List (Event σ ε) → Prop) where
  remark e he h := by
    refine ⟨upheld_suited.remark e he h.suited, ?_, ?_⟩
    · rw [offers_cons, offers_of_isRemark he, List.nil_append]
      exact h.offered
    · intro r p hm
      rcases List.mem_cons.mp hm with rfl | hm
      · contradiction
      · exact h.not_mismatched r p hm
  add hc hs hd h := ⟨upheld_suited.add hc hs hd h.suited, h.offered, h.not_mismatched⟩
  withdraw selected h := by
    refine ⟨upheld_suited.withdraw selected h.suited, h.offered, fun r p hm => ?_⟩
    exact h.not_mismatched r p ((List.mem_cons.mp hm).resolve_left (by simp))
  moveDefault hslot h := ⟨upheld_suited.moveDefault hslot h.suited, h.offered, h.not_mismatched⟩
  collect {g due t kind p} slot hp h := by
    refine ⟨upheld_suited.collect slot hp h.suited, fun {r q} hr => ?_, fun r q hm => ?_⟩
    · rw [offers_cons, List.mem_append] at hr
      rcases hr with hr | hr
      · obtain ⟨s, hs, heq⟩ := List.mem_map.mp hr
        cases heq
        obtain ⟨hlive, hears⟩ := List.mem_filter.mp hs
        simp only [Registration.hears, Bool.and_eq_true, beq_iff_eq] at hears
        exact ⟨hears.1.trans hp.symm, h.suited r (.inl hlive)⟩
      · exact h.offered hr
    · exact h.not_mismatched r q ((List.mem_cons.mp hm).resolve_left (by simp))
  skip ha h := ⟨upheld_suited.skip ha h.suited, h.offered, h.not_mismatched⟩
  call {g s due t p} ha hk h := by
    have hsuits := h.suited s (.inr List.mem_cons_self)
    refine ⟨upheld_suited.call ha hk h.suited, fun {r q} hr => ?_, fun r q hm => ?_⟩
    · rw [offers_cons, offers_handed, List.singleton_append] at hr
      rcases List.mem_cons.mp hr with heq | hr
      · cases heq
        exact ⟨hk, hsuits⟩
      · exact h.offered hr
    · have haccepts : s.callback.accepts p = true := Callback.accepts_of_suits (hk ▸ hsuits)
      rw [Registration.handed, if_pos haccepts] at hm
      exact h.not_mismatched r q ((List.mem_cons.mp hm).resolve_left (by simp))

/-- Whatever has been offered a payload was for its kind. -/
theorem Reaches.shaped {settings : SlotSettings} {source : σ} {b : Switchboard σ ε}
    (h : Reaches S (fresh settings source) b) :
    Shaped b.registry b.running.flatten (story b.trace) := by
  refine upheld_shaped.reaches h ⟨fun r hr => ?_, fun hr => ?_, fun _ _ => List.not_mem_nil⟩
  · simp [Registry.Knows, Registry.ofSettings] at hr
  · simp [offers] at hr

/-! ## ids -/

/-- Whether a registration is live or due, or has been offered a payload. -/
def Met (g : Registry) (due : List Registration) (story : List (Event σ ε)) (r : Registration) :
    Prop :=
  g.Knows due r ∨ ∃ p, (r, p) ∈ offers story

/-- Whether whatever has been met under an id was made for the same. -/
structure Signed (id : Nat) (terms : Kind × Option Slot × Callback × Mode) (g : Registry)
    (due : List Registration) (story : List (Event σ ε)) : Prop where
  lt_nextId : id < g.nextId
  met {r} : Met g due story r → r.id = id → r.terms = terms

/-- Whether every registration has its id for itself. -/
def Enrolled (g : Registry) (due : List Registration) (story : List (Event σ ε)) : Prop :=
  ∀ r, Met g due story r → Signed r.id r.terms g due story

section

variable {g : Registry} {due : List Registration} {t : List (Event σ ε)} {r : Registration}

theorem met_of_met_remark {e : Event σ ε} (he : e.isRemark = true) (h : Met g due (e :: t) r) :
    Met g due t r := by
  unfold Met at h
  rwa [offers_cons, offers_of_isRemark he, List.nil_append] at h

/-- Adding makes one registration met. -/
theorem met_of_met_add {kind : Kind} {selector : Option Slot} {callback : Callback}
    {mode : Mode} (h : Met (g.add kind selector callback mode) due t r) :
    Met g due t r ∨ r = g.made kind selector callback mode := by
  rcases h with h | h
  · exact (Registry.knows_of_knows_add h).imp_left .inl
  · exact .inl (.inr h)

theorem met_of_met_withdraw {selected : Registration → Bool} {removed : List Registration}
    (h : Met (g.withdraw selected).rest due (.withdrawn removed :: t) r) : Met g due t r :=
  h.imp_left Registry.knows_of_knows_withdraw

/-- Whoever is met after a move was met before under its id. -/
theorem met_of_met_moveDefault {slot : Slot} (h : Met (g.moveDefault slot).1 due t r) :
    ∃ s, Met g due t s ∧ s.id = r.id ∧ s.terms = r.terms := by
  rcases h with h | h
  · obtain ⟨s, hs, hid, hterms⟩ := Registry.knows_of_knows_moveDefault h
    exact ⟨s, .inl hs, hid, hterms⟩
  · exact ⟨r, .inr h, rfl, rfl⟩

/-- Whoever is offered a payload by a publish was live. -/
theorem met_of_met_collect {kind : Kind} {slot : Slot} {p : Payload}
    (h : Met (g.collect kind slot).rest ((g.collect kind slot).deliveries ++ due)
      (.published kind slot p (g.collect kind slot).deliveries :: t) r) : Met g due t r := by
  rcases h with h | ⟨q, h⟩
  · exact .inl (Registry.knows_of_knows_collect h)
  · rw [offers_cons, List.mem_append] at h
    rcases h with h | h
    · obtain ⟨s, hs, heq⟩ := List.mem_map.mp h
      cases heq
      exact .inl (.inl (List.mem_filter.mp hs).1)
    · exact .inr ⟨q, h⟩

theorem met_of_met_skip {s : Registration} (h : Met (g.claim s).2 due t r) :
    Met g (s :: due) t r :=
  h.imp_left Registry.knows_of_knows_claim

/-- Whoever is called was due. -/
theorem met_of_met_call {s : Registration} {p : Payload}
    (h : Met (g.claim s).2 due (s.handed p :: t) r) : Met g (s :: due) t r := by
  rcases h with h | ⟨q, h⟩
  · exact .inl (Registry.knows_of_knows_claim h)
  · rw [offers_cons, offers_handed, List.singleton_append] at h
    rcases List.mem_cons.mp h with heq | h
    · cases heq
      exact .inl (.inr List.mem_cons_self)
    · exact .inr ⟨q, h⟩

end

/-- What has been signed stays so. -/
theorem upheld_signed (id : Nat) (terms : Kind × Option Slot × Callback × Mode) :
    Upheld (Signed id terms : _ → _ → List (Event σ ε) → Prop) where
  remark e he h := ⟨h.lt_nextId, fun hr => h.met (met_of_met_remark he hr)⟩
  add _ _ _ h := by
    refine ⟨Nat.lt_succ_of_lt h.lt_nextId, fun hr hid => ?_⟩
    rcases met_of_met_add hr with hr | rfl
    · exact h.met hr hid
    · exact absurd hid (Nat.ne_of_gt h.lt_nextId)
  withdraw _ h := ⟨h.lt_nextId, fun hr => h.met (met_of_met_withdraw hr)⟩
  moveDefault _ h := by
    refine ⟨h.lt_nextId, fun hr hid => ?_⟩
    obtain ⟨s, hs, hsid, hterms⟩ := met_of_met_moveDefault hr
    exact hterms.symm.trans (h.met hs (hsid.trans hid))
  collect _ _ h := ⟨h.lt_nextId, fun hr => h.met (met_of_met_collect hr)⟩
  skip _ h := by
    refine ⟨?_, fun hr => h.met (met_of_met_skip hr)⟩
    rw [Registry.claim_nextId]
    exact h.lt_nextId
  call _ _ h := by
    refine ⟨?_, fun hr => h.met (met_of_met_call hr)⟩
    rw [Registry.claim_nextId]
    exact h.lt_nextId

/-- A new registration has an id that nobody has been met under. -/
theorem upheld_enrolled : Upheld (Enrolled : _ → _ → List (Event σ ε) → Prop) where
  remark e he h := fun r hr => (upheld_signed _ _).remark e he (h r (met_of_met_remark he hr))
  add hc hs hd h := by
    intro r hr
    rcases met_of_met_add hr with hr | rfl
    · exact (upheld_signed _ _).add hc hs hd (h r hr)
    · refine ⟨Nat.lt_succ_self _, fun {s} hs hid => ?_⟩
      rcases met_of_met_add hs with hs | rfl
      · exact absurd hid (Nat.ne_of_lt (h s hs).lt_nextId)
      · rfl
  withdraw selected h := fun r hr =>
    (upheld_signed _ _).withdraw selected (h r (met_of_met_withdraw hr))
  moveDefault hslot h := by
    intro r hr
    obtain ⟨s, hs, hid, hterms⟩ := met_of_met_moveDefault hr
    rw [← hid, ← hterms]
    exact (upheld_signed _ _).moveDefault hslot (h s hs)
  collect slot hp h := fun r hr =>
    (upheld_signed _ _).collect slot hp (h r (met_of_met_collect hr))
  skip ha h := fun r hr => (upheld_signed _ _).skip ha (h r (met_of_met_skip hr))
  call ha hk h := fun r hr => (upheld_signed _ _).call ha hk (h r (met_of_met_call hr))

/-- Whoever has been met under an id was made for one thing. -/
theorem Reaches.enrolled {settings : SlotSettings} {source : σ} {b : Switchboard σ ε}
    (h : Reaches S (fresh settings source) b) :
    Enrolled b.registry b.running.flatten (story b.trace) := by
  refine upheld_enrolled.reaches h fun r hr => ?_
  simp [Met, Registry.Knows, Registry.ofSettings, offers] at hr

/-! ## the registration behind an id -/

/-- A command that is given an id for what it asks for has a live registration for that. -/
theorem live_of_given {invoke : Invoke σ ε} {l : Option String} {c : Command ε} {a : Action ε}
    {b : Switchboard σ ε} {id : Nat} (hc : c.action = .ok a) (hmode : c.mode?.isSome)
    (h : (b.obey S invoke l c).1 = .ok (.id id)) :
    ∃ channel bid, a.bid? channel = some bid ∧
      ∃ r ∈ (b.obey S invoke l c).2.registry.live,
        r.id = id ∧ r.kind = bid.kind ∧ r.callback = bid.callback := by
  cases ha : a.bid? b.nextChannel with
  | none =>
      simp only [Command.mode?, hc] at hmode
      cases a with
      | subscribe event listener options mode =>
          have hevent : Named.ofName? Kind event = none := Option.map_eq_none_iff.mp ha
          simp [obey, attempt, hc, perform, subscribe, hevent, answered, Except.map] at h
      | on | channel => contradiction
      | _ => contradiction
  | some bid =>
      obtain ⟨houtcome, hregistry, -⟩ := obey_of_bid (S := S) invoke l hc ha
      rw [h] at houtcome
      have hplaced : (b.place S bid).1 = .ok id := by
        cases hplace : (b.place S bid).1 with
        | error e =>
            rw [hplace] at houtcome
            contradiction
        | ok n =>
            rw [hplace] at houtcome
            cases houtcome
            rfl
      rw [hregistry]
      obtain ⟨r, hr, hid, hkind, hcallback, -⟩ := (registering S _ _ _ _ b).live_of_ok hplaced
      exact ⟨b.nextChannel, bid, ha, r, hr, hid, hkind, hcallback⟩

/-- An id that a command was given stands for what the command asked for. -/
theorem signed_of_given {settings : SlotSettings} {source : σ} {b : Switchboard σ ε}
    (h : Reaches S (fresh settings source) b) {l : Option String} {c : Command ε}
    {a : Action ε} {id : Nat} (hdid : .did l c (.ok (.id id)) ∈ b.trace)
    (hc : c.action = .ok a) (hmode : c.mode?.isSome) :
    ∃ channel bid, a.bid? channel = some bid ∧ ∃ r : Registration,
      r.kind = bid.kind ∧ r.callback = bid.callback ∧
        Signed id r.terms b.registry b.running.flatten (story b.trace) := by
  obtain ⟨mode, hmode'⟩ := Option.isSome_iff_exists.mp hmode
  induction h with
  | refl => contradiction
  | @tail b _ hreach hstep ih =>
      rcases hstep.mem_or_obey hdid (Command.quiet_of_mode hmode') with hdid | ⟨invoke, rfl, ho⟩
      · obtain ⟨channel, bid, ha, r, hkind, hcallback, hsigned⟩ := ih hdid
        exact ⟨channel, bid, ha, r, hkind, hcallback,
          (upheld_signed id r.terms).kept.advance hstep hsigned⟩
      · obtain ⟨channel, bid, ha, r, hr, rfl, hkind, hcallback⟩ :=
          live_of_given (l := l) hc hmode ho.symm
        have hafter : Reaches S (fresh settings source) (b.obey S invoke l c).2 :=
          hreach.tail hstep
        exact ⟨channel, bid, ha, r, hkind, hcallback, hafter.enrolled r (.inl (.inl hr))⟩

end Switchboard

/-! ## listeners get what they were registered for -/

/-- Whether a payload has a value for listeners of a kind, and is the payload of that value. -/
def Payload.Holds (p : Payload) (k : Kind) : Prop :=
  ∃ v, p.extract? k = some v ∧ .wrap k v = p

/-- A payload holds a value of its kind. -/
theorem Payload.holds_of_kind {p : Payload} {k : Kind} (h : p.kind = k) : p.Holds k := by
  subst h
  obtain ⟨v, hv⟩ := p.exists_wrap
  exact ⟨v, Payload.extract?_eq_some_iff.mpr hv, hv⟩

/-- Whether a registration can take a payload: for its values, or as a whole. -/
def Registration.Takes (r : Registration) (p : Payload) : Prop :=
  p.kind = r.kind ∧
    match r.callback with
    | .whole _ => True
    | .typed _ k => k = r.kind ∧ p.Holds k
    | .channel _ k => k = r.kind ∧ p.Holds k

/-- A callback that suits a kind takes the payloads of it. -/
theorem Registration.takes_of_suits {r : Registration} {p : Payload} (hkind : r.kind = p.kind)
    (hsuits : r.callback.suits r.kind) : r.Takes p := by
  refine ⟨hkind.symm, ?_⟩
  split
  · trivial
  · next k hcallback =>
      rw [hcallback] at hsuits
      cases (hsuits : k = r.kind)
      exact ⟨rfl, Payload.holds_of_kind hkind.symm⟩
  · next k hcallback =>
      rw [hcallback] at hsuits
      cases (hsuits : k = r.kind)
      exact ⟨rfl, Payload.holds_of_kind hkind.symm⟩

/-- Whatever takes a payload is called with it. -/
theorem Registration.Takes.accepts {r : Registration} {p : Payload} (h : r.Takes p) :
    r.callback.accepts p = true := by
  obtain ⟨-, hshape⟩ := h
  cases hc : r.callback with
  | whole => rfl
  | typed l k =>
      rw [hc] at hshape
      obtain ⟨-, v, hv, -⟩ := hshape
      exact Option.isSome_of_eq_some hv
  | channel serial k =>
      rw [hc] at hshape
      obtain ⟨-, v, hv, -⟩ := hshape
      exact Option.isSome_of_eq_some hv

/-- Whether a payload is one that a command has asked for, if it has asked for any. -/
def Command.Wants (c : Command ε) (p : Payload) : Prop :=
  match c.action with
  | .ok (.on kind ..) => p.Holds kind
  | .ok (.channel _ kind _) => p.Holds kind
  | .ok (.subscribe event ..) => Named.ofName? Kind event = some p.kind
  | _ => True

namespace Switchboard

variable {S : Source σ ε}

/-- Whatever is offered a payload can take it. -/
theorem Reaches.takes {settings : SlotSettings} {source : σ} {b : Switchboard σ ε}
    (h : Reaches S (fresh settings source) b) {r : Registration} {p : Payload}
    (hr : (r, p) ∈ offers b.trace) : r.Takes p := by
  rw [← offers_story] at hr
  obtain ⟨hkind, hsuits⟩ := h.shaped.offered hr
  exact Registration.takes_of_suits hkind hsuits

/-- The id that a command was given leads to payloads that the command has asked for. -/
theorem Reaches.wants {settings : SlotSettings} {source : σ} {b : Switchboard σ ε}
    (h : Reaches S (fresh settings source) b) {l : Option String} {c : Command ε} {id : Nat}
    (hdid : .did l c (.ok (.id id)) ∈ b.trace) {r : Registration} {p : Payload}
    (hr : (r, p) ∈ offers b.trace) (hid : r.id = id) : c.Wants p := by
  have hbid {a : Action ε} (hc : c.action = .ok a) (hmode : c.mode?.isSome) :
      ∃ channel bid, a.bid? channel = some bid ∧ bid.kind = p.kind := by
    obtain ⟨channel, bid, ha, s, hkind, -, hsigned⟩ := signed_of_given h hdid hc hmode
    have hterms := hsigned.met (.inr ⟨p, (offers_story b.trace).symm ▸ hr⟩) hid
    refine ⟨channel, bid, ha, ?_⟩
    rw [← hkind, ← Registration.kind_eq_of_terms_eq hterms, (h.takes hr).1]
  unfold Command.Wants
  split
  · next hc =>
      obtain ⟨channel, bid, ha, hkind⟩ := hbid hc (by simp [Command.mode?, hc])
      cases ha
      exact Payload.holds_of_kind hkind.symm
  · next hc =>
      obtain ⟨channel, bid, ha, hkind⟩ := hbid hc (by simp [Command.mode?, hc])
      cases ha
      exact Payload.holds_of_kind hkind.symm
  · next hc =>
      obtain ⟨channel, bid, ha, hkind⟩ := hbid hc (by simp [Command.mode?, hc])
      obtain ⟨kind, hevent, rfl⟩ := Option.map_eq_some_iff.mp ha
      rw [hevent]
      exact congrArg some hkind
  · trivial

/-- A publish that succeeds on a board that a run can reach counts only calls that hand over
the payload. -/
theorem Reaches.counted {settings : SlotSettings} {source : σ} {b : Switchboard σ ε}
    (h : Reaches S (fresh settings source) b) {invoke : Invoke σ ε} (hi : Proper S invoke)
    {kind : Kind} {slot : Option Slot} {p : Payload} {n : Nat}
    (hn : (b.publish S invoke kind slot p).1 = .ok n) :
    ∃ called after, called.length = n ∧ (∀ r ∈ called, r.Takes p) ∧
      Turns invoke p b (roster b.registry kind (slot.getD b.registry.defaultSlot))
        (b.launch S kind (slot.getD b.registry.defaultSlot) p) called after := by
  by_cases hp : Permitted b.registry kind slot p
  · obtain ⟨called, after, hturns, hpublish⟩ := publish_of_permitted hi h hp
    rw [hpublish] at hn
    cases hn
    refine ⟨called, after, rfl, fun r hr => ?_, hturns⟩
    have hlaunch : Reaches S (fresh settings source)
        (b.launch S kind (slot.getD b.registry.defaultSlot) p) := h.tail (.launch _ hp.1 b)
    refine hlaunch.takes ?_
    rw [← offers_story, story_launch, audience_eq]
    exact List.mem_append_left _ (List.mem_map_of_mem (hturns.sublist.subset hr))
  · obtain ⟨e, hpublish, -⟩ := publish_of_not_permitted (S := S) invoke hp
    rw [hpublish] at hn
    contradiction

/-- **Listeners get payloads of the shape that they were registered for**, at every moment of a
run, whatever is published and whatever the listeners do.

* What a publish is to call can take the payload: a callback for the values of a kind is
  registered for that kind, and the payload has such a value and is the payload of it.
* No callback has been due that could not be handed its payload.
* Whatever goes by the id that a command was given is offered only what the command asked for:
  a payload with a value of the kind, or, to a listener registered by name, one of the kind of
  that name.
* A publish that begins now counts only calls that hand over the payload. -/
theorem payloads_fit {react : React σ ε} {limit : Nat} {cs : List (Command ε)}
    {settings : SlotSettings} {source : σ} {m : Switchboard σ ε}
    (h : Moment S react limit cs (fresh settings source) m) :
    (∀ r p, (r, p) ∈ offers m.trace → r.Takes p) ∧
    (∀ r p, .mismatched r p ∉ m.trace) ∧
    (∀ l c id, .did l c (.ok (.id id)) ∈ m.trace →
      ∀ r p, (r, p) ∈ offers m.trace → r.id = id → c.Wants p) ∧
    (∀ b, (b = m ∨ ∃ slot p, b = (m.report S slot p).2) → ∀ depth kind slot p n,
      (b.publish S (hear S react depth) kind slot p).1 = .ok n →
        ∃ called after, called.length = n ∧ (∀ r ∈ called, r.Takes p) ∧
          Turns (hear S react depth) p b
            (roster b.registry kind (slot.getD b.registry.defaultSlot))
            (b.launch S kind (slot.getD b.registry.defaultSlot) p) called after) := by
  have hm := h.reaches
  refine ⟨fun r p hr => hm.takes hr, fun r p hr => ?_, fun l c id hdid r p hr hid => ?_, ?_⟩
  · refine hm.shaped.not_mismatched r p (List.mem_filter.mpr ⟨hr, rfl⟩)
  · exact hm.wants hdid hr hid
  · rintro b (rfl | ⟨slot, p, rfl⟩) depth kind slot' q n hn
    · exact hm.counted (proper_hear S react depth) hn
    · have hreport : Reaches S (fresh settings source) (m.report S slot p).2 :=
        hm.tail (.report slot p m)
      exact hreport.counted (proper_hear S react depth) hn

/-- The inner listener was offered a payload that it can take and has asked for. -/
theorem payloads_fit_nested :
    Moment Bench.source Sample.react 2 (Sample.registrations ++ [Sample.publication])
        (fresh Sample.settings Sample.bench) Sample.nested ∧
      (Sample.inner, .callForwarding true) ∈ offers Sample.nested.trace ∧
      Sample.inner.Takes (.callForwarding true) ∧
      (Sample.ask (.on .callForwarding "inner" none .oneShot)).Wants (.callForwarding true) :=
  have hr : (Sample.inner, .callForwarding true) ∈ offers Sample.nested.trace :=
    List.mem_of_getElem? (i := 0) rfl
  have hdid : .did none (Sample.ask (.on .callForwarding "inner" none .oneShot))
      (.ok (.id Sample.inner.id)) ∈ Sample.nested.trace :=
    List.mem_of_getElem? (i := 5) rfl
  have hfit := payloads_fit Sample.moment_nested
  ⟨Sample.moment_nested, hr, hfit.1 _ _ hr, hfit.2.2.1 _ _ _ hdid _ _ hr rfl⟩

end Switchboard

end SlotWatch

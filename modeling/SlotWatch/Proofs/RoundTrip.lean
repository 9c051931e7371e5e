import SlotWatch.Bench
import SlotWatch.Proofs.Abreast
import SlotWatch.Proofs.Observation
import SlotWatch.Proofs.Relocation

/-!
# SlotWatch.Proofs.RoundTrip

Moving the default slot away and back again.

1. What a move does to the registry does not depend on the default slot it starts from
   (`Registry.settledOn_settledOn`), so the second undoes the first.
2. If what was active were the observed feeds, they are so after a move that succeeds
   (`Relocates.active_iff`), so the same feeds are active in the end.
3. A source that remembers only what it observes (`Source.Remembers`), like a phone, is then
   what it was (`Attends.unique`).
4. From there on everything goes as if neither move had been made (`SameFuture`).
-/

namespace SlotWatch

variable {σ ε : Type}

/-! ## sources that remember what they observe -/

/-- The feeds that are observed once a request has been granted. -/
def Request.heeded (request : Request) (feed : Feed) (feeds : List Feed) : List Feed :=
  match request with
  | .start => feed.insert feeds
  | .stop => feeds.filter (· != feed)

/-- Whether a source is as `state` tells while it observes feeds, given in ascending order. -/
def Source.Remembers (S : Source σ ε) (state : List Feed → σ) : Prop :=
  ∀ request feed feeds, (S.answer request feed (state feeds)).1 = .ok () →
    (S.answer request feed (state feeds)).2 = state (request.heeded feed feeds)

/-- The phone while it observes these feeds. -/
def Phone.watching (p : Phone) (feeds : List Feed) : Phone :=
  { p with observing := feeds }

/-- A phone remembers the feeds that it observes, and answers by what it does not change. -/
theorem Phone.remembers (p : Phone) : Phone.source.Remembers p.watching := by
  intro request feed feeds h
  have haccess : (p.watching feeds).access feed.2 = p.access feed.2 := rfl
  cases request with
  | start =>
      revert h
      simp only [Source.answer, source, start, haccess]
      cases p.access feed.2 <;> split <;> first | exact fun _ => rfl | (intro; contradiction)
  | stop =>
      revert h
      simp only [Source.answer, source, stop]
      split <;> first | exact fun _ => rfl | (intro; contradiction)

/-- The bench while it observes these feeds: it forwards requests to its phone, or keeps
nothing. -/
def Bench.watching (x : Bench) (feeds : List Feed) : Bench :=
  if x.wiring = .phone then { x with phone := x.phone.watching feeds } else x

/-- A bench remembers what its phone does, or nothing if it is not wired. -/
theorem Bench.remembers (x : Bench) : Bench.source.Remembers x.watching := by
  intro request feed feeds h
  have hanswer (y : Bench) : Bench.source.answer request feed y = y.answer request feed := by
    cases request <;> rfl
  rw [hanswer] at h ⊢
  by_cases hphone : x.wiring = .phone
  · have hwatching (feeds : List Feed) :
        x.watching feeds = { x with phone := x.phone.watching feeds } := if_pos hphone
    have hforward := x.phone.remembers request feed feeds
    simp only [hwatching, answer, hphone] at h ⊢
    cases hlookup : x.refusals.lookup (Named.name request, feed) with
    | some failure =>
        simp [hlookup] at h
    | none =>
        simp only [hlookup, reduceCtorEq, if_false, if_true, forward] at h ⊢
        rw [hforward h]
  · have hwatching (feeds : List Feed) : x.watching feeds = x := if_neg hphone
    simp only [hwatching, answer, hphone] at h ⊢
    split
    · rfl
    · cases hlookup : x.refusals.lookup (Named.name request, feed) <;> rfl

/-- Whether a source is as `state` tells for the `observed` feeds. -/
def Attends (state : List Feed → σ) (s : σ) (observed : Feed → Prop) : Prop :=
  ∃ feeds, Feed.Ascending feeds ∧ (∀ feed, feed ∈ feeds ↔ observed feed) ∧ s = state feeds

namespace Attends

variable {state : List Feed → σ} {s s' : σ} {observed observed' : Feed → Prop}

theorem congr (h : Attends state s observed) (ho : ∀ feed, observed' feed ↔ observed feed) :
    Attends state s observed' := by
  obtain ⟨feeds, hasc, hmem, hs⟩ := h
  exact ⟨feeds, hasc, fun feed => (hmem feed).trans (ho feed).symm, hs⟩

/-- There is one such state. -/
theorem unique (h : Attends state s observed) (h' : Attends state s' observed) : s' = s := by
  obtain ⟨feeds, hasc, hmem, rfl⟩ := h
  obtain ⟨feeds', hasc', hmem', rfl⟩ := h'
  rw [hasc'.eq_of_mem_iff hasc fun feed => (hmem' feed).trans (hmem feed).symm]

variable {S : Source σ ε} {b : Switchboard σ ε}

/-- A start that is granted adds the feed. -/
theorem start (hS : S.Remembers state) (h : Attends state b.source observed) {feed : Feed}
    (ha : (b.ask S .start feed).1 = .ok ()) :
    Attends state (b.ask S .start feed).2.source fun f => f = feed ∨ observed f := by
  obtain ⟨feeds, hasc, hmem, hs⟩ := h
  have hanswer : (S.answer .start feed b.source).1 = .ok () := ha
  rw [hs] at hanswer
  refine ⟨feed.insert feeds, hasc.insert feed, fun f => ?_, ?_⟩
  · rw [Feed.mem_insert, hmem]
  · exact (congrArg (fun s => (S.answer .start feed s).2) hs).trans (hS _ _ _ hanswer)

/-- A stop that is granted takes the feed away. -/
theorem stop (hS : S.Remembers state) (h : Attends state b.source observed) {feed : Feed}
    (ha : (b.ask S .stop feed).1 = .ok ()) :
    Attends state (b.ask S .stop feed).2.source fun f => f ≠ feed ∧ observed f := by
  obtain ⟨feeds, hasc, hmem, hs⟩ := h
  have hanswer : (S.answer .stop feed b.source).1 = .ok () := ha
  rw [hs] at hanswer
  refine ⟨feeds.filter (· != feed), hasc.sublist List.filter_sublist, fun f => ?_, ?_⟩
  · rw [List.mem_filter, hmem, bne_iff_ne, and_comm]
  · exact (congrArg (fun s => (S.answer .stop feed s).2) hs).trans (hS _ _ _ hanswer)

/-- If all starts are granted, all feeds are added. -/
theorem startAll (hS : S.Remembers state) {started fs : List Feed}
    (h : Attends state b.source observed) (hok : (b.startAll S started fs).1 = .ok ()) :
    Attends state (b.startAll S started fs).2.source fun f => observed f ∨ f ∈ fs := by
  induction fs generalizing started b observed with
  | nil => exact h.congr (by simp)
  | cons f fs ih =>
      cases ha : (b.ask S .start f).1 with
      | ok u =>
          rw [Switchboard.startAll_cons_of_ok S ha] at hok ⊢
          refine (ih (h.start hS ha) hok).congr fun f' => ?_
          rw [List.mem_cons, or_assoc, or_left_comm]
      | error e =>
          rw [Switchboard.startAll_cons_of_error S ha] at hok
          contradiction

/-- If all stops are granted, all feeds are taken away. -/
theorem stopAll (hS : S.Remembers state) {fs : List Feed} (h : Attends state b.source observed)
    (hok : (b.stopAll S fs).1 = .ok ()) :
    Attends state (b.stopAll S fs).2.source fun f => observed f ∧ f ∉ fs := by
  induction fs generalizing b observed with
  | nil => exact h.congr (by simp)
  | cons f fs ih =>
      cases ha : (b.ask S .stop f).1 with
      | ok u =>
          rw [Switchboard.stopAll_cons_of_ok S ha] at hok ⊢
          refine (ih (h.stop hS ha) hok).congr fun f' => ?_
          rw [List.mem_cons, not_or, and_assoc, and_left_comm]
      | error e =>
          rw [Switchboard.stopAll_cons_of_error S ha] at hok
          contradiction

end Attends

/-! ## moves that succeed -/

/-- Where the default slot was before does not matter once it has moved. -/
theorem Registry.settledOn_settledOn (slot slot' : Slot) (g : Registry) :
    (g.settledOn slot).settledOn slot' = g.settledOn slot' := by
  have hlive : (g.settledOn slot).live.map (fun r =>
      if r.selector = none then { r with observed := slot' } else r) =
      (g.settledOn slot').live := by
    simp only [settledOn, List.map_map]
    refine List.map_congr_left fun r _ => ?_
    by_cases hs : r.selector = none
    · simp [hs]
    · simp [hs]
  unfold settledOn at hlive ⊢
  simp only [hlive]

namespace Switchboard

variable {S : Source σ ε}

/-- How a move that succeeds has gone, if no stop was refused meanwhile. -/
theorem setDefault_of_ok {slot : Slot} {b : Switchboard σ ε} {new : List (Event σ ε)}
    (hok : (b.setDefault S slot).1 = .ok ()) (htrace : new ++ b.trace = (b.setDefault S slot).2.trace)
    (hstops : StopsGranted new) :
    b.registry.defaultSlot = slot ∧ (b.setDefault S slot).2 = b ∨
      (b.startAll S [] (b.registry.arrivals slot)).1 = .ok () ∧
        ((b.relocated S slot).stopAll S (b.registry.moveDefault slot).2).1 = .ok () ∧
        (b.setDefault S slot).2 =
          ((b.relocated S slot).stopAll S (b.registry.moveDefault slot).2).2 := by
  have hcases := moving S slot b
  rw [hok] at hcases
  generalize (b.setDefault S slot).2 = b' at hcases htrace
  cases hcases with
  | stayed _ hs => exact .inl ⟨hs, rfl⟩
  | moved _ _ ha =>
      refine .inr ⟨ha, ?_, rfl⟩
      obtain ⟨later, hlater⟩ := suffix_stopAll S (b.registry.moveDefault slot).2 (b.relocated S slot)
      obtain ⟨first, hfirst⟩ := suffix_startAll S [] (b.registry.arrivals slot) b
      refine stopAll_ok S hlater fun e he => hstops e ?_
      have hnew := htrace.trans hlater.symm
      rw [relocated_trace, ← hfirst, ← List.append_assoc] at hnew
      rw [List.append_cancel_right hnew]
      exact List.mem_append_left _ he

/-- From `b` to `b'` the default slot has moved to `slot`, and nothing else. -/
structure Relocates (S : Source σ ε) (slot : Slot) (b b' : Switchboard σ ε) : Prop where
  registry_eq : b'.registry = b.registry.settledOn slot
  running_eq : b'.running = b.running
  inboxes_eq : b'.inboxes = b.inboxes
  nextChannel_eq : b'.nextChannel = b.nextChannel
  active_iff : (∀ feed, Active b.trace feed ↔ b.registry.observes feed = true) →
    ∀ feed, Active b'.trace feed ↔ b'.registry.observes feed = true
  attends {state} : S.Remembers state →
    Attends state b.source (fun feed => b.registry.observes feed = true) →
      Attends state b'.source fun feed => b'.registry.observes feed = true

/-- A move that succeeds, and whose stops are granted, moves the default slot and nothing else. -/
theorem relocates_setDefault {settings : SlotSettings} {source : σ} {slot : Slot}
    {b : Switchboard σ ε} {new : List (Event σ ε)} (h : Reaches S (fresh settings source) b)
    (hok : (b.setDefault S slot).1 = .ok ())
    (htrace : new ++ b.trace = (b.setDefault S slot).2.trace) (hstops : StopsGranted new) :
    Relocates S slot b (b.setDefault S slot).2 := by
  have hcases := setDefault_of_ok hok htrace hstops
  have hrunning := setDefault_running S slot b
  have hinboxes := (framed_setDefault S slot).inboxes_eq b
  have hchannel := (framed_setDefault S slot).nextChannel_eq b
  rcases hcases with ⟨rfl, hsame⟩ | ⟨hstart, hstop, hafter⟩
  · rw [hsame]
    exact ⟨h.sound.settledOn_defaultSlot.symm, rfl, rfl, rfl, id, fun _ => id⟩
  · have hregistry : (b.setDefault S slot).2.registry = (b.registry.moveDefault slot).1 := by
      rw [hafter, stopAll_registry, relocated_registry]
    have hneeded (feed : Feed) : (b.registry.moveDefault slot).1.observes feed = true ↔
        (b.registry.observes feed = true ∨ feed ∈ b.registry.arrivals slot) ∧
          feed ∉ (b.registry.moveDefault slot).2 :=
      Registry.observes_moveDefault_iff
    constructor
    case registry_eq => rw [hregistry, Registry.moveDefault_eq_settledOn]
    case running_eq => exact hrunning
    case inboxes_eq => exact hinboxes
    case nextChannel_eq => exact hchannel
    case active_iff =>
        intro hactive feed
        have hold := hactive feed
        unfold Active at hold ⊢
        rw [hregistry, hneeded, ← hold, hafter,
          granted_stopAll_of_ok S (b.registry.nodup_released_moveDefault slot) hstop,
          relocated_trace, granted_startAll_of_ok S (b.registry.nodup_arrivals slot) hstart]
        by_cases hleft : feed ∈ (b.registry.moveDefault slot).2
        · simp [hleft]
        · by_cases harrival : feed ∈ b.registry.arrivals slot <;> simp [hleft, harrival]
    case attends =>
        intro state hS hb
        have hstarted : Attends state (b.relocated S slot).source
            fun feed => b.registry.observes feed = true ∨ feed ∈ b.registry.arrivals slot :=
          hb.startAll hS hstart
        rw [hregistry, hafter]
        exact (hstarted.stopAll hS hstop).congr hneeded

/-- A command to move the default slot that succeeds. -/
theorem relocates_obey {settings : SlotSettings} {source : σ} {slot : Slot}
    {b b' : Switchboard σ ε} (h : Reaches S (fresh settings source) b)
    {invoke : Invoke σ ε} {l : Option String} {c : Command ε}
    (hc : c.action = .ok (.setDefault slot)) (ho : b.obey S invoke l c = (.ok .done, b'))
    (hstops : StopsGranted (b.since b')) : Relocates S slot b b' := by
  rw [obey_of_action hc, perform, answered] at ho
  obtain ⟨houtcome, rfl⟩ := Prod.mk.inj ho
  have hok : (b.setDefault S slot).1 = .ok () := by
    cases hresult : (b.setDefault S slot).1 with
    | ok => rfl
    | error e =>
        rw [hresult] at houtcome
        contradiction
  obtain ⟨new, hnew⟩ := (moving S slot b).suffix
  have hall (e : Event σ ε) : (e :: new) ++ b.trace = ((b.setDefault S slot).2.note e).trace :=
    congrArg (e :: ·) hnew
  have hmoved : Relocates S slot b (b.setDefault S slot).2 := by
    refine relocates_setDefault h hok hnew fun e he => hstops e ?_
    rw [since_eq_reverse (hall _), List.mem_reverse]
    exact List.mem_cons_of_mem _ he
  constructor
  case active_iff =>
      intro hactive feed
      refine (active_iff_of_granted_eq ?_).trans (hmoved.active_iff hactive feed)
      exact granted_cons_of_none rfl _
  case registry_eq => exact hmoved.registry_eq
  case running_eq => exact hmoved.running_eq
  case inboxes_eq => exact hmoved.inboxes_eq
  case nextChannel_eq => exact hmoved.nextChannel_eq
  case attends => exact hmoved.attends

/-! ## away and back -/

/-- **Moving the default slot away and back changes nothing**, on every board that a run can
reach, also while publishes are in progress.  If both commands succeed and the source refuses no
stop meanwhile, and what was active were the observed feeds,

* the registry is what it was: the registrations, what they observe, their order and the default
  slot; and so are the publishes in progress;
* the same feeds are active;
* a source that remembers only what it observes is what it was;
* if the source is what it was, everything goes on as if neither command had been given. -/
theorem default_slot_round_trip {settings : SlotSettings} {source : σ} {b b₁ b₂ : Switchboard σ ε}
    (h : Reaches S (fresh settings source) b)
    (hactive : ∀ feed, Active b.trace feed ↔ b.registry.observes feed = true)
    {slot : Slot} {c c' : Command ε} (hc : c.action = .ok (.setDefault slot))
    (hc' : c'.action = .ok (.setDefault b.registry.defaultSlot))
    {invoke invoke' : Invoke σ ε} {l l' : Option String}
    (haway : b.obey S invoke l c = (.ok .done, b₁))
    (hback : b₁.obey S invoke' l' c' = (.ok .done, b₂)) (hstops : StopsGranted (b.since b₂)) :
    b₂.registry = b.registry ∧ b₂.running = b.running ∧
    (∀ feed, Active b₂.trace feed ↔ Active b.trace feed) ∧
    (∀ state, S.Remembers state →
      Attends state b.source (fun feed => b.registry.observes feed = true) →
      b₂.source = b.source) ∧
    (b₂.source = b.source → ∀ react, Indifferent none b.trace b₂.trace react →
      ∀ limit, SameFuture none S react limit b b₂ ∧
        ∀ cs c, ((run S react limit cs b₂).step S react limit c).1 =
          ((run S react limit cs b).step S react limit c).1) := by
  have hquiet : c.quiet = true := Command.quiet_of_action hc
  have hquiet' : c'.quiet = true := Command.quiet_of_action hc'
  have hstep := Advance.obey (S := S) invoke l c hquiet b
  have hstep' := Advance.obey (S := S) invoke' l' c' hquiet' b₁
  rw [haway] at hstep
  rw [hback] at hstep'
  rw [since_append (Reaches.suffix (.single hstep)) (Reaches.suffix (.single hstep'))] at hstops
  have haway := relocates_obey h hc haway fun e he => hstops e (List.mem_append_left _ he)
  have hback := relocates_obey (h.tail hstep) hc' hback fun e he =>
    hstops e (List.mem_append_right _ he)
  have hregistry : b₂.registry = b.registry := by
    rw [hback.registry_eq, haway.registry_eq, Registry.settledOn_settledOn,
      h.sound.settledOn_defaultSlot]
  have hrunning : b₂.running = b.running := hback.running_eq.trans haway.running_eq
  have hinboxes : b₂.inboxes = b.inboxes := hback.inboxes_eq.trans haway.inboxes_eq
  refine ⟨hregistry, hrunning, fun feed => ?_, fun state hS hb => ?_, fun hsource react hreact => ?_⟩
  · rw [hback.active_iff (haway.active_iff hactive) feed, hregistry, hactive feed]
  · have hafter := hback.attends hS (haway.attends hS hb)
    rw [hregistry] at hafter
    exact hb.unique hafter
  · have habreast : Abreast none b.trace b₂.trace b b₂ := by
      refine ⟨hregistry, hsource, hrunning, ?_, fun name => ?_, ⟨[], [], rfl, rfl, .nil⟩⟩
      · exact hback.nextChannel_eq.trans haway.nextChannel_eq
      · left
        rw [inbox?, inbox?, hinboxes]
    intro limit
    have hfuture := habreast.sameFuture (S := S) hreact limit
    exact ⟨hfuture, hfuture.outcome_eq⟩

/-- While every stop has been granted, what is active are the observed feeds. -/
theorem Reaches.active_iff {settings : SlotSettings} {source : σ} {b : Switchboard σ ε}
    (h : Reaches S (fresh settings source) b) (hg : StopsGranted b.trace) (feed : Feed) :
    Active b.trace feed ↔ b.registry.observes feed = true := by
  have hstart : Tracked (fresh settings source : Switchboard σ ε) := by
    intro _ feed
    exact ⟨trivial, iff_of_false (by simp [Active, granted, fresh]) (by simp [fresh])⟩
  exact ((kept_tracked S).reaches h hstart hg feed).2

/-! ### a sample round trip

Three registrations follow the default slot, and one is for the other slot; a phone observes
for them what is needed. -/

namespace Sample

/-- A bench in front of a phone that nothing is refused. -/
def wired : Bench := { phone := .privileged "now", wiring := .phone }

/-- The default slot has been moved to the other slot. -/
def displaced : Switchboard Bench Bench.Control :=
  ((following wired).step Bench.source react 0 (ask (.setDefault 1))).2

/-- It has been moved back. -/
def returned : Switchboard Bench Bench.Control :=
  (displaced.step Bench.source react 0 (ask (.setDefault 0))).2

/-- The sample bench observes what its registry does. -/
theorem attends_following :
    Attends wired.watching (following wired).source
      fun feed => (following wired).registry.observes feed = true := by
  have hobserving : (following wired).source.phone.observing =
      (following wired).registry.live.map (·.feed) := rfl
  have hasc : Feed.Ascending (following wired).source.phone.observing := by decide
  refine ⟨_, hasc, fun feed => ?_, rfl⟩
  rw [hobserving, List.mem_map]
  exact Registry.observes_iff.symm

end Sample

/-- The phone does not observe the default slot any more, and then it does so again. -/
theorem default_slot_round_trip_wired :
    Reaches Bench.source (fresh Sample.settings Sample.wired) (Sample.following Sample.wired) ∧
      Sample.displaced.source.phone.observing =
        [(1, .callForwarding), (1, .voiceMail), (1, .simState)] ∧
      StopsGranted ((Sample.following Sample.wired).since Sample.returned) ∧
      Sample.returned.registry = (Sample.following Sample.wired).registry ∧
      (∀ feed, Active Sample.returned.trace feed ↔
        Active (Sample.following Sample.wired).trace feed) ∧
      Sample.returned.source = (Sample.following Sample.wired).source ∧
      SameFuture none Bench.source Sample.react 2 (Sample.following Sample.wired) Sample.returned :=
  have hreach := Sample.reaches_following Sample.wired
  have hstops : StopsGranted ((Sample.following Sample.wired).since Sample.returned) := by decide
  have hactive := hreach.active_iff (by decide)
  have haway : (Sample.following Sample.wired).obey Bench.source
      (hear Bench.source Sample.react 0) none (Sample.ask (.setDefault 1)) =
        (.ok .done, Sample.displaced) := rfl
  have hback : Sample.displaced.obey Bench.source (hear Bench.source Sample.react 0) none
      (Sample.ask (.setDefault 0)) = (.ok .done, Sample.returned) := rfl
  have htrip := default_slot_round_trip hreach hactive rfl rfl haway hback hstops
  have hsource := htrip.2.2.2.1 Sample.wired.watching Sample.wired.remembers
    Sample.attends_following
  ⟨hreach, rfl, hstops, htrip.1, htrip.2.2.1, hsource,
    (htrip.2.2.2.2 hsource Sample.react (fun _ _ _ _ _ => rfl) 2).1⟩

end Switchboard

end SlotWatch

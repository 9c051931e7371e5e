import SlotWatch.Proofs.Reach
import SlotWatch.Proofs.Registering

/-!
# SlotWatch.Proofs.Observation

What the source is told about feeds, against what the listeners need.

1. The feed of every live registration is active.  The source may refuse what it likes,
   starts and stops.
2. As long as the source has stopped whatever it was asked to stop, the active feeds
   are exactly those of live registrations, and the requests granted for a feed
   alternate, from a start on.

Both hold at every moment of a run: each is an invariant of the steps (`kept_served`,
`kept_tracked`).  The second rests on what starting and stopping do to a trace that
`Tracks` a set of feeds.
-/

namespace SlotWatch

namespace Switchboard

variable {σ ε : Type} {S : Source σ ε}

/-! ## live listeners are served -/

/-- Whatever the registry observes is active. -/
def Served (b : Switchboard σ ε) : Prop :=
  ∀ feed, b.registry.observes feed → Active b.trace feed

/-- A registration is made only on a feed that is observed, and so active, or that the source
has just started. -/
theorem served_register {b b' : Switchboard σ ε} {callback : Callback} {kind : Kind}
    {options : Option Options} {mode : Mode} {o : Except Failure Nat}
    (h : Registering S callback kind options mode b o b') (hb : Served b) : Served b' := by
  cases h with
  | unfit | repeated => exact hb
  | joined _ _ ho =>
      intro feed hf
      rcases Registry.observes_add.mp hf with hf | rfl
      · exact hb feed hf
      · exact hb _ ho
  | @started selector _ _ _ ha =>
      intro feed hf
      have hgranted := granted_ask_of_ok S ha feed
      by_cases htarget : feed = (selector.getD b.registry.defaultSlot, kind)
      · rw [if_pos htarget] at hgranted
        unfold Active
        rw [hgranted]
        rfl
      · have hold := hb feed ((Registry.observes_add.mp hf).resolve_right htarget)
        rw [if_neg htarget] at hgranted
        exact (active_iff_of_granted_eq hgranted).mpr hold
  | refused _ _ _ ha =>
      intro feed hf
      exact (active_iff_of_granted_eq (granted_ask_of_error S ha feed)).mpr (hb feed hf)

/-- Only feeds that nobody observes any more are stopped by a removal. -/
theorem served_withdraw (selected : Registration → Bool) {b : Switchboard σ ε}
    (hb : Served b) : Served (b.withdraw S selected).2 := by
  intro feed hf
  rw [withdraw_registry] at hf
  have hkeep : feed ∉ (b.registry.withdraw selected).released :=
    fun hm => (Registry.mem_released_withdraw.mp hm).2 hf
  have hgranted := granted_stopAll_of_not_mem S hkeep (b.struck selected)
  rw [struck_trace, granted_cons_of_none rfl] at hgranted
  rw [withdraw_eq]
  exact (active_iff_of_granted_eq hgranted).mpr
    (hb feed (Registry.observes_of_observes_withdraw hf))

/-- The default slot moves only if all that is needed there was started, and what is stopped
then is not observed any more. -/
theorem served_setDefault {slot : Slot} {b b' : Switchboard σ ε} {o : Except Failure Unit}
    (h : Moving S slot b o b') (hb : Served b) : Served b' := by
  -- nothing that is started or taken back was observed before
  have harrival : ∀ {feed}, b.registry.observes feed → feed ∉ b.registry.arrivals slot :=
    fun ho hm => Registry.not_observes_of_mem_arrivals hm ho
  cases h with
  | outside | stayed => exact hb
  | refused =>
      intro feed hf
      rw [startAll_registry] at hf
      have hgranted := granted_startAll_of_not_mem S List.not_mem_nil (harrival hf) b
      exact (active_iff_of_granted_eq hgranted).mpr (hb feed hf)
  | moved _ _ ha =>
      intro feed hf
      rw [stopAll_registry, relocated_registry] at hf
      obtain ⟨hneed, hkeep⟩ := Registry.observes_moveDefault_iff.mp hf
      have hstop := granted_stopAll_of_not_mem S hkeep (b.relocated S slot)
      have hstart := granted_startAll_of_ok S (b.registry.nodup_arrivals slot) ha feed
      refine (active_iff_of_granted_eq hstop).mpr ?_
      rw [relocated_trace]
      rcases hneed with ho | harr
      · rw [if_neg (harrival ho)] at hstart
        exact (active_iff_of_granted_eq hstart).mpr (hb feed ho)
      · rw [if_pos harr] at hstart
        unfold Active
        rw [hstart]
        rfl

/-- When one-shots leave, only feeds that nobody observes any more are stopped. -/
theorem served_launch (kind : Kind) (slot : Slot) (p : Payload) {b : Switchboard σ ε}
    (hb : Served b) : Served (b.launch S kind slot p) := by
  intro feed hf
  rw [launch_registry] at hf
  have hkeep : feed ∉ (b.registry.collect kind slot).released :=
    fun hm => (Registry.mem_released_collect.mp hm).2 hf
  have hgranted := granted_stopAll_of_not_mem S hkeep (b.gathered kind slot p)
  rw [gathered_trace, granted_cons_of_none rfl] at hgranted
  rw [launch_eq]
  exact (active_iff_of_granted_eq hgranted).mpr
    (hb feed (Registry.observes_of_observes_collect hf))

/-- Each step serves whoever is live after it. -/
theorem kept_served (S : Source σ ε) : Kept S Served where
  alike h hb := by
    intro feed hf
    rw [h.registry] at hf
    rw [h.trace]
    exact hb feed hf
  remark e he hb := by
    intro feed hf
    have hgrant : e.grant? feed = none := grant?_of_isRemark he feed
    exact (active_iff_of_granted_eq (granted_cons_of_none hgrant _)).mpr (hb feed hf)
  register _ hb := served_register (registering S _ _ _ _ _) hb
  withdraw selected hb := served_withdraw selected hb
  setDefault slot hb := served_setDefault (moving S slot _) hb
  launch slot _ hb := served_launch _ slot _ hb
  skip _ _ hb := by
    intro feed hf
    rw [comeTo_registry, Registry.observes_claim] at hf
    exact hb feed hf
  call _ _ _ hb := by
    intro feed hf
    rw [note_registry, comeTo_registry, Registry.observes_claim] at hf
    exact (active_iff_of_granted_eq (granted_cons_of_none (grant?_handed _ _ feed) _)).mpr
      (hb feed hf)
  land _ hb := hb

/-- **No live listener is left unobserved**: whenever a callback is called and after
every completed command, the latest request that the source granted for the feed of a
live registration is a start. -/
theorem live_feed_active {react : React σ ε} {limit : Nat} {cs : List (Command ε)}
    {settings : SlotSettings} {source : σ} {m : Switchboard σ ε}
    (h : Moment S react limit cs (fresh settings source) m) :
    ∀ r ∈ m.registry.live, Active m.trace r.feed := by
  have hstart : Served (fresh settings source : Switchboard σ ε) := by
    intro feed hf
    contradiction
  intro r hr
  exact (kept_served S).moment h hstart r.feed (Registry.observes_of_mem hr)

/-- The outer listener is live while the inner one is called, and is served. -/
theorem live_feed_active_nested :
    Moment Bench.source Sample.react 2 (Sample.registrations ++ [Sample.publication])
        (fresh Sample.settings Sample.bench) Sample.nested ∧
      Sample.outer ∈ Sample.nested.registry.live ∧
      Active Sample.nested.trace Sample.outer.feed :=
  have hlive : Sample.outer ∈ Sample.nested.registry.live := by decide
  ⟨Sample.moment_nested, hlive, live_feed_active Sample.moment_nested _ hlive⟩

/-! ## the source is told exactly -/

/-- Requests, latest first, that alternate from a start on. -/
def Alternating : List Request → Prop
  | [] => True
  | .start :: rs => rs.head? ≠ some .start ∧ Alternating rs
  | .stop :: rs => rs.head? = some .start ∧ Alternating rs

/-- The requests on a trace alternate, and what is active are the `observed` feeds. -/
def Tracks (trace : List (Event σ ε)) (observed : Feed → Prop) : Prop :=
  ∀ feed, Alternating (granted feed trace) ∧ (Active trace feed ↔ observed feed)

/-- Only the requests granted matter to what is tracked. -/
theorem Tracks.congr {es fs : List (Event σ ε)} {observed observed' : Feed → Prop}
    (h : Tracks es observed) (hg : ∀ feed, granted feed fs = granted feed es)
    (ho : ∀ feed, observed' feed ↔ observed feed) : Tracks fs observed' := by
  intro feed
  unfold Active
  rw [hg feed, ho feed]
  exact h feed

/-- Stopping some of the observed feeds. -/
theorem Tracks.stopAll {observed observed' : Feed → Prop} {b : Switchboard σ ε}
    {fs : List Feed} (h : Tracks b.trace observed) (hfs : fs.Nodup)
    (hsub : ∀ feed ∈ fs, observed feed)
    (ho : ∀ feed, observed' feed ↔ observed feed ∧ feed ∉ fs)
    (hg : StopsGranted (b.stopAll S fs).2.trace) :
    Tracks (b.stopAll S fs).2.trace observed' := by
  intro feed
  obtain ⟨halt, hact⟩ := h feed
  unfold Active at hact ⊢
  rw [granted_stopAll S hfs hg feed, ho feed]
  by_cases hm : feed ∈ fs
  · rw [if_pos hm]
    refine ⟨⟨hact.mpr (hsub feed hm), halt⟩, ?_⟩
    simp [hm]
  · rw [if_neg hm]
    simpa [hm] using And.intro halt hact

/-- Starting feeds that are not observed. -/
theorem Tracks.startAll_of_ok {observed : Feed → Prop} {b : Switchboard σ ε}
    {fs : List Feed} (h : Tracks b.trace observed) (hfs : fs.Nodup)
    (hnew : ∀ feed ∈ fs, ¬ observed feed) (hok : (b.startAll S [] fs).1 = .ok ()) :
    Tracks (b.startAll S [] fs).2.trace fun feed => observed feed ∨ feed ∈ fs := by
  intro feed
  obtain ⟨halt, hact⟩ := h feed
  unfold Active at hact ⊢
  rw [granted_startAll_of_ok S hfs hok feed]
  by_cases hm : feed ∈ fs
  · rw [if_pos hm]
    exact ⟨⟨fun hs => hnew feed hm (hact.mp hs), halt⟩, iff_of_true rfl (.inr hm)⟩
  · rw [if_neg hm]
    simpa [hm] using And.intro halt hact

/-- Starting feeds that are not observed, one of which the source refuses. -/
theorem Tracks.startAll_of_error {observed : Feed → Prop} {b : Switchboard σ ε}
    {fs : List Feed} {e : Failure} (h : Tracks b.trace observed) (hfs : fs.Nodup)
    (hnew : ∀ feed ∈ fs, ¬ observed feed) (herr : (b.startAll S [] fs).1 = .error e)
    (hg : StopsGranted (b.startAll S [] fs).2.trace) :
    Tracks (b.startAll S [] fs).2.trace observed := by
  intro feed
  obtain ⟨halt, hact⟩ := h feed
  have hnodup : ([] ++ fs).Nodup := hfs
  have hgranted := granted_startAll_of_error S hnodup herr hg feed
  rw [if_neg List.not_mem_nil] at hgranted
  unfold Active at hact ⊢
  rcases hgranted with heq | ⟨hm, heq⟩
  · rw [heq]
    exact ⟨halt, hact⟩
  · have hidle : (granted feed b.trace).head? ≠ some .start :=
      fun hs => hnew feed hm (hact.mp hs)
    rw [heq]
    exact ⟨⟨rfl, hidle, halt⟩, iff_of_false (by simp) (hnew feed hm)⟩

/-- As long as all stops were granted, the trace tracks what the registry observes. -/
def Tracked (b : Switchboard σ ε) : Prop :=
  StopsGranted b.trace → Tracks b.trace fun feed => b.registry.observes feed

/-- The source is asked for a start only if nobody observes the feed yet. -/
theorem tracked_register {b b' : Switchboard σ ε} {callback : Callback} {kind : Kind}
    {options : Option Options} {mode : Mode} {o : Except Failure Nat}
    (h : Registering S callback kind options mode b o b') (hb : Tracked b) : Tracked b' := by
  intro hg
  have htracks := hb (hg.of_suffix h.suffix)
  cases h with
  | unfit | repeated => exact htracks
  | @joined selector _ _ ho =>
      refine htracks.congr (fun _ => rfl) fun feed => ?_
      rw [Registry.observes_add]
      exact or_iff_left_of_imp fun heq => heq ▸ ho
  | @started selector _ _ ho ha =>
      intro feed
      obtain ⟨halt, hact⟩ := htracks feed
      unfold Active at hact ⊢
      simp only [granted_ask_of_ok S ha feed, Registry.observes_add]
      by_cases htarget : feed = (selector.getD b.registry.defaultSlot, kind)
      · rw [if_pos htarget]
        refine ⟨⟨fun hs => ?_, halt⟩, iff_of_true rfl (.inr htarget)⟩
        exact ho (htarget ▸ hact.mp hs)
      · rw [if_neg htarget]
        simpa [htarget] using And.intro halt hact
  | refused _ _ _ ha => exact htracks.congr (granted_ask_of_error S ha) fun _ => .rfl

/-- What a removal releases was observed, so each stop follows a start. -/
theorem tracked_withdraw (selected : Registration → Bool) {b : Switchboard σ ε}
    (hb : Tracked b) : Tracked (b.withdraw S selected).2 := by
  intro hg
  have htracks := hb (hg.of_suffix (suffix_withdraw S selected b))
  have hstruck : Tracks (b.struck selected).trace fun feed => b.registry.observes feed :=
    htracks.congr (fun _ => granted_cons_of_none rfl _) fun _ => .rfl
  rw [withdraw_registry]
  rw [withdraw_eq] at hg ⊢
  refine hstruck.stopAll (b.registry.nodup_released_withdraw selected)
    (fun feed hm => (Registry.mem_released_withdraw.mp hm).1) (fun feed => ?_) hg
  rw [Registry.mem_released_withdraw]
  have hsub : (b.registry.withdraw selected).rest.observes feed → b.registry.observes feed :=
    Registry.observes_of_observes_withdraw
  tauto

/-- What arrives was not observed and what is left was, so starts and stops alternate. -/
theorem tracked_setDefault {slot : Slot} {b b' : Switchboard σ ε} {o : Except Failure Unit}
    (h : Moving S slot b o b') (hb : Tracked b) : Tracked b' := by
  intro hg
  have htracks := hb (hg.of_suffix h.suffix)
  have hnodup := b.registry.nodup_arrivals slot
  have hnew : ∀ feed ∈ b.registry.arrivals slot, ¬ b.registry.observes feed :=
    fun _ hm => Registry.not_observes_of_mem_arrivals hm
  cases h with
  | outside | stayed => exact htracks
  | refused _ _ ha =>
      rw [startAll_registry]
      exact htracks.startAll_of_error hnodup hnew ha hg
  | moved _ _ ha =>
      have hstarted := htracks.startAll_of_ok hnodup hnew ha
      rw [stopAll_registry, relocated_registry]
      refine Tracks.stopAll (b := b.relocated S slot) hstarted
        (b.registry.nodup_released_moveDefault slot) (fun feed hm => ?_)
        (fun feed => Registry.observes_moveDefault_iff) hg
      exact .inl (Registry.mem_released_moveDefault.mp hm).1

/-- What leaving one-shots release was observed, so each stop follows a start. -/
theorem tracked_launch (kind : Kind) (slot : Slot) (p : Payload) {b : Switchboard σ ε}
    (hb : Tracked b) : Tracked (b.launch S kind slot p) := by
  intro hg
  have htracks := hb (hg.of_suffix (suffix_launch S kind slot p b))
  have hgathered : Tracks (b.gathered kind slot p).trace fun feed => b.registry.observes feed :=
    htracks.congr (fun _ => granted_cons_of_none rfl _) fun _ => .rfl
  rw [launch_registry]
  refine hgathered.stopAll (b.registry.nodup_released_collect kind slot)
    (fun feed hm => (Registry.mem_released_collect.mp hm).1) (fun feed => ?_) hg
  rw [Registry.mem_released_collect]
  have hsub : (b.registry.collect kind slot).rest.observes feed → b.registry.observes feed :=
    Registry.observes_of_observes_collect
  tauto

/-- Each step keeps the source told exactly, if all stops are granted. -/
theorem kept_tracked (S : Source σ ε) : Kept S Tracked where
  alike h hb := by
    unfold Tracked
    rw [h.registry, h.trace]
    exact hb
  remark e he hb := by
    intro hg
    have htracks := hb (hg.of_suffix (List.suffix_cons e _))
    exact htracks.congr (fun feed => granted_cons_of_none (grant?_of_isRemark he feed) _)
      fun _ => .rfl
  register _ hb := tracked_register (registering S _ _ _ _ _) hb
  withdraw selected hb := tracked_withdraw selected hb
  setDefault slot hb := tracked_setDefault (moving S slot _) hb
  launch slot _ hb := tracked_launch _ slot _ hb
  skip _ _ hb := by
    intro hg
    refine (hb hg).congr (fun _ => rfl) fun feed => ?_
    rw [comeTo_registry, Registry.observes_claim]
  call _ _ _ hb := by
    intro hg
    have htracks := hb (hg.of_suffix (List.suffix_cons _ _))
    refine htracks.congr (fun feed => granted_cons_of_none (grant?_handed _ _ feed) _)
      fun feed => ?_
    rw [note_registry, comeTo_registry, Registry.observes_claim]
  land _ hb := hb

/-- **The source is told exactly about first arrivals and last departures**: while every
stop has been granted, the requests granted for a feed alternate from a start on, and
the latest is a start just if a live registration needs the feed. -/
theorem granted_alternate {react : React σ ε} {limit : Nat} {cs : List (Command ε)}
    {settings : SlotSettings} {source : σ} {m : Switchboard σ ε}
    (h : Moment S react limit cs (fresh settings source) m) (hg : StopsGranted m.trace)
    (feed : Feed) :
    Alternating (granted feed m.trace) ∧
      (Active m.trace feed ↔ ∃ r ∈ m.registry.live, r.feed = feed) := by
  have hstart : Tracked (fresh settings source : Switchboard σ ε) := by
    intro _ feed
    exact ⟨trivial, iff_of_false (by simp [Active, granted, fresh]) (by simp [fresh])⟩
  rw [← Registry.observes_iff]
  exact (kept_tracked S).moment h hstart hg feed

/-- The one-shot has left when it is called, and its feed has been started and stopped. -/
theorem granted_alternate_nested :
    Moment Bench.source Sample.react 2 (Sample.registrations ++ [Sample.publication])
        (fresh Sample.settings Sample.bench) Sample.nested ∧
      StopsGranted Sample.nested.trace ∧
      Alternating (granted Sample.inner.feed Sample.nested.trace) ∧
      (Active Sample.nested.trace Sample.inner.feed ↔
        ∃ r ∈ Sample.nested.registry.live, r.feed = Sample.inner.feed) :=
  have hg : StopsGranted Sample.nested.trace := by decide
  ⟨Sample.moment_nested, hg, granted_alternate Sample.moment_nested hg _⟩

end Switchboard

end SlotWatch

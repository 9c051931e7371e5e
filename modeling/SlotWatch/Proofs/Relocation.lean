import SlotWatch.Proofs.Inquiry
import SlotWatch.Proofs.LiveList

/-!
# SlotWatch.Proofs.Relocation

The default slot moves altogether or not at all.

1. If it moves, every registration without a selector is observed on the new slot, and
   nothing else has changed (`Registry.settledOn`).
2. If the source refuses something that is needed there, what it has started for the move
   is stopped again, and nothing has changed (`Retracted`).  Nothing of this was observed
   before, so no live registration has lost what it needs.
-/

namespace SlotWatch

variable {σ ε : Type}

namespace Registry

/-- The registry with `slot` as its default slot: there the registrations without a
selector are observed. -/
def settledOn (slot : Slot) (g : Registry) : Registry :=
  { g with
    live := g.live.map fun r => if r.selector = none then { r with observed := slot } else r
    defaultSlot := slot }

/-- To move whoever follows the default slot is to observe the new one for whoever has no
selector. -/
theorem moveDefault_eq_settledOn (g : Registry) (slot : Slot) :
    (g.moveDefault slot).1 = g.settledOn slot := by
  have hmoved : Registration.moved slot =
      fun r => if r.selector = none then { r with observed := slot } else r := by
    funext r
    obtain ⟨id, kind, selector, observed, callback, mode⟩ := r
    cases selector with
    | some selected => rfl
    | none =>
        by_cases hobserved : observed = slot
        · simp [Registration.moved, Registration.follows, hobserved]
        · simp [Registration.moved, Registration.follows, hobserved]
  simp only [moveDefault, settledOn, hmoved]

/-- The registry is settled on its own default slot. -/
theorem Sound.settledOn_defaultSlot {settings : SlotSettings} {g : Registry}
    (h : g.Sound settings) : g.settledOn g.defaultSlot = g := by
  have hlive : g.live.map (fun r =>
      if r.selector = none then { r with observed := g.defaultSlot } else r) = g.live := by
    refine (List.map_congr_left fun r hr => ?_).trans (List.map_id g.live)
    by_cases hs : r.selector = none
    · have hobserved := h.observed_eq hr
      rw [hs, Option.getD_none] at hobserved
      rw [if_pos hs, ← hobserved]
      rfl
    · exact if_neg hs
  simp only [settledOn, hlive]

end Registry

namespace Switchboard

variable {S : Source σ ε}

/-! ## moves that are refused -/

/-- From `b` to `b'` the source has been asked to start feeds on `slot`, has started those
of `begun` and refused the next with `e`; then it was `told` to stop those that it had
started. -/
structure Retracted (slot : Slot) (e : Failure) (b b' : Switchboard σ ε) (begun : List Feed)
    (refused : Feed) (told : List Inquiry) : Prop where
  inquiries_eq : inquiries b'.trace =
    inquiries b.trace ++ begun.map (Inquiry.ok .start) ++ [⟨.start, refused, .error e⟩] ++ told
  told_eq : told.map (fun i => (i.request, i.feed)) = begun.map (Request.stop, ·)
  nodup : (begun ++ [refused]).Nodup
  on_slot : ∀ feed ∈ begun ++ [refused], feed.1 = slot
  unobserved : ∀ feed ∈ begun ++ [refused], ¬ b.registry.observes feed = true

namespace Retracted

variable {slot : Slot} {e : Failure} {b b' : Switchboard σ ε} {begun : List Feed}
  {refused : Feed} {told : List Inquiry}

/-- If the source stops what it is told to, each feed it had started has been stopped. -/
theorem granted_eq (h : Retracted slot e b b' begun refused told)
    (hok : ∀ i ∈ told, i.answer = .ok ()) (feed : Feed) :
    granted feed b'.trace =
      (if feed ∈ begun then [.stop, .start] else []) ++ granted feed b.trace := by
  have htold : told = begun.map (Inquiry.ok .stop) := by
    have hsame := congrArg (List.map fun q : Request × Feed => Inquiry.ok q.1 q.2) h.told_eq
    rw [List.map_map, List.map_map] at hsame
    rw [← List.map_id told]
    refine (List.map_congr_left fun i hi => ?_).trans hsame
    obtain ⟨request, about, answer⟩ := i
    have hanswer : answer = .ok () := hok _ hi
    subst hanswer
    rfl
  have hnodup := (List.nodup_append.mp h.nodup).1
  have hrefused : Inquiry.grant? feed ⟨.start, refused, .error e⟩ = none := rfl
  rw [SlotWatch.granted_eq, SlotWatch.granted_eq, h.inquiries_eq, htold]
  simp only [List.filterMap_append, filterMap_grant_ok _ feed hnodup, List.filterMap_cons,
    List.filterMap_nil, hrefused, List.reverse_append]
  split <;> rfl

/-- If what was active before are the observed feeds, they are so again. -/
theorem active_iff (h : Retracted slot e b b' begun refused told)
    (hok : ∀ i ∈ told, i.answer = .ok ())
    (hactive : ∀ feed, Active b.trace feed ↔ b.registry.observes feed = true) (feed : Feed) :
    Active b'.trace feed ↔ b.registry.observes feed = true := by
  have hgranted := h.granted_eq hok feed
  by_cases hfeed : feed ∈ begun
  · have hidle := h.unobserved feed (List.mem_append_left _ hfeed)
    rw [if_pos hfeed] at hgranted
    simp [Active, hgranted, hidle]
  · rw [if_neg hfeed] at hgranted
    exact (active_iff_of_granted_eq hgranted).trans (hactive feed)

end Retracted

/-- If a start is refused, those made before it are told to stop again. -/
theorem retracted_startAll {slot : Slot} {b : Switchboard σ ε} {e : Failure}
    (h : (b.startAll S [] (b.registry.arrivals slot)).1 = .error e) :
    ∃ begun refused told,
      Retracted slot e b (b.startAll S [] (b.registry.arrivals slot)).2 begun refused told := by
  obtain ⟨begun, refused, others, hfeeds, told, htold, hlog⟩ := inquiries_startAll_of_error S h
  have hsub : ∀ feed ∈ begun ++ [refused], feed ∈ b.registry.arrivals slot := by
    intro feed hfeed
    rw [hfeeds, List.append_cons]
    exact List.mem_append_left _ hfeed
  have hnodup := b.registry.nodup_arrivals slot
  rw [hfeeds, List.append_cons] at hnodup
  refine ⟨begun, refused, told, hlog, htold, (List.nodup_append.mp hnodup).1, ?_, ?_⟩
  · intro feed hfeed
    obtain ⟨⟨r, -, -, rfl⟩, -⟩ := Registry.mem_arrivals.mp (hsub feed hfeed)
    rfl
  · exact fun feed hfeed => Registry.not_observes_of_mem_arrivals (hsub feed hfeed)

/-! ## all or nothing -/

/-- **The default slot moves altogether or not at all**, on every board that a run can reach
and whatever the source refuses.

* If the move succeeds, the registrations without a selector are observed on the new slot,
  and of the registry nothing else but the default slot has changed.
* If it fails, the registry is as it was.  Either the slot is none of the phone and the
  source has not been asked, or the source has refused a start on the slot, with the failure
  that is returned, and has been told to stop again exactly what it had started before: feeds
  on the slot that no live registration observes.  If it does so, and what was active were
  the observed feeds, these are what is active. -/
theorem default_moves_all_or_nothing {settings : SlotSettings} {source : σ}
    {b : Switchboard σ ε} (h : Reaches S (fresh settings source) b) (slot : Slot) :
    ((b.setDefault S slot).1 = .ok () →
      (b.setDefault S slot).2.registry = b.registry.settledOn slot) ∧
    ∀ e, (b.setDefault S slot).1 = .error e →
      (b.setDefault S slot).2.registry = b.registry ∧
        ((slot < 0 ∨ b.registry.slotCount ≤ slot) ∧
            inquiries (b.setDefault S slot).2.trace = inquiries b.trace ∨
          ∃ begun refused told, Retracted slot e b (b.setDefault S slot).2 begun refused told ∧
            ((∀ i ∈ told, i.answer = .ok ()) →
              (∀ feed, Active b.trace feed ↔ b.registry.observes feed = true) →
              ∀ feed, Active (b.setDefault S slot).2.trace feed ↔
                (b.setDefault S slot).2.registry.observes feed = true)) := by
  have hcases := moving S slot b
  constructor
  · intro hok
    rw [hok] at hcases
    generalize (b.setDefault S slot).2 = b' at hcases
    cases hcases with
    | stayed _ hs =>
        subst hs
        exact h.sound.settledOn_defaultSlot.symm
    | moved =>
        rw [stopAll_registry, relocated_registry]
        exact Registry.moveDefault_eq_settledOn b.registry slot
  · intro e he
    rw [he] at hcases
    generalize (b.setDefault S slot).2 = b' at hcases
    cases hcases with
    | outside hslot => exact ⟨rfl, .inl ⟨hslot, rfl⟩⟩
    | refused _ _ ha =>
        have hregistry := startAll_registry S [] (b.registry.arrivals slot) b
        obtain ⟨begun, refused, told, hretracted⟩ := retracted_startAll ha
        refine ⟨hregistry, .inr ⟨begun, refused, told, hretracted, fun hok hactive => ?_⟩⟩
        rw [hregistry]
        exact hretracted.active_iff hok hactive

/-! ### a sample move

Two kinds have to be started on the other slot, and the source refuses the second; a third
is observed there already. -/

namespace Sample

/-- A bench that will not start one kind on the other slot. -/
def wary : Bench :=
  { bench with refusals := [(("start", (1, .voiceMail)), .reported .systemInternal "busy")] }

def followers : List (Command Bench.Control) :=
  [ask (.on .callForwarding "first" none .repeating),
    ask (.on .voiceMail "second" none .repeating), ask (.on .simState "third" none .oneShot),
    ask (.on .simState "fourth" (some ⟨1⟩) .repeating)]

def following (source : Bench) : Switchboard Bench Bench.Control :=
  run Bench.source react 0 followers (fresh settings source)

theorem reaches_following (source : Bench) :
    Reaches Bench.source (fresh settings source) (following source) :=
  (settles_run react 0 followers (fresh settings source)).1

/-- The board after the attempt to move to the other slot. -/
def attempted (source : Bench) : Switchboard Bench Bench.Control :=
  ((following source).setDefault Bench.source 1).2

end Sample

/-- On one bench the default slot moves; on the other it does not, and what was started for
the move is stopped again. -/
theorem default_moves_all_or_nothing_following :
    Reaches Bench.source (fresh Sample.settings Sample.bench) (Sample.following Sample.bench) ∧
      ((Sample.following Sample.bench).setDefault Bench.source 1).1 = .ok () ∧
      (Sample.attempted Sample.bench).registry =
        (Sample.following Sample.bench).registry.settledOn 1 ∧
      (Sample.attempted Sample.bench).registry.live.map (·.observed) = [1, 1, 1, 1] ∧
      Reaches Bench.source (fresh Sample.settings Sample.wary) (Sample.following Sample.wary) ∧
      ((Sample.following Sample.wary).setDefault Bench.source 1).1 =
        .error (.reported .systemInternal "busy") ∧
      (Sample.attempted Sample.wary).registry = (Sample.following Sample.wary).registry ∧
      (∃ begun refused told, Retracted 1 (.reported .systemInternal "busy")
        (Sample.following Sample.wary) (Sample.attempted Sample.wary) begun refused told) ∧
      (inquiries (Sample.attempted Sample.wary).trace).map (fun i => (i.request, i.feed)) =
        (inquiries (Sample.following Sample.wary).trace).map (fun i => (i.request, i.feed)) ++
          [(.start, (1, .callForwarding)), (.start, (1, .voiceMail)),
            (.stop, (1, .callForwarding))] :=
  have hmoves := default_moves_all_or_nothing (Sample.reaches_following Sample.bench) 1
  have hstays := default_moves_all_or_nothing (Sample.reaches_following Sample.wary) 1
  have hrefused : ((Sample.following Sample.wary).setDefault Bench.source 1).1 =
      .error (.reported .systemInternal "busy") := rfl
  have hasked := (hstays.2 _ hrefused).2.resolve_left fun h => absurd h.1 (by decide)
  have ⟨begun, refused, told, hretracted, _⟩ := hasked
  ⟨Sample.reaches_following _, rfl, hmoves.1 rfl, rfl, Sample.reaches_following _, hrefused,
    (hstays.2 _ hrefused).1, ⟨begun, refused, told, hretracted⟩, rfl⟩

end Switchboard

end SlotWatch

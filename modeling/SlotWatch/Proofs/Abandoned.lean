import SlotWatch.Proofs.Failing
import SlotWatch.Proofs.Idle
import SlotWatch.Proofs.Inquiry

/-!
# SlotWatch.Proofs.Abandoned

What the source is told about feeds that have been abandoned: observed on behalf of some
live registration before, and on behalf of none afterwards (`Abandons`).

1. Removals, moves of the default slot and publishes tell it to stop abandoned feeds, in
   order, and to stop no other.
2. They do so up to the first refusal.  Unless the source refuses one, each abandoned feed
   is stopped once; if it does, those behind it are never told.
-/

namespace SlotWatch

namespace Switchboard

variable {σ ε : Type} {S : Source σ ε}

/-! ## abandoned feeds -/

/-- From `b` to `b'` the feeds `left` have been abandoned, and the source was `told` to stop
them one after the other, until it refused.  Before, it may have been asked to start some. -/
structure Abandons (b b' : Switchboard σ ε) (left : List Feed) (told : List Inquiry) : Prop where
  ascending : Feed.Ascending left
  mem_iff (feed) : feed ∈ left ↔
    b.registry.observes feed = true ∧ ¬ b'.registry.observes feed = true
  stopping : Stopping left told
  inquiries_eq : ∃ begun : List Feed, inquiries b'.trace =
    inquiries b.trace ++ begun.map (Inquiry.ok .start) ++ told

namespace Abandons

variable {b b' : Switchboard σ ε} {left : List Feed} {told : List Inquiry}

/-- The source is told of no feed twice. -/
theorem nodup_told (h : Abandons b b' left told) : (told.map (·.feed)).Nodup :=
  h.ascending.nodup.sublist h.stopping.isPrefix.sublist

/-- Unless the source refuses, it is told of every abandoned feed. -/
theorem told_iff_of_ok (h : Abandons b b' left told) (hok : ∀ i ∈ told, i.answer = .ok ())
    (feed : Feed) : feed ∈ told.map (·.feed) ↔
      b.registry.observes feed = true ∧ ¬ b'.registry.observes feed = true := by
  rw [h.stopping.all_of_ok hok]
  exact h.mem_iff feed

/-- Where nothing has been asked and nothing else is observed, nothing has been abandoned. -/
theorem nothing (hregistry : b'.registry = b.registry)
    (hlog : inquiries b'.trace = inquiries b.trace) : Abandons b b' [] [] where
  ascending := List.Pairwise.nil
  mem_iff feed := by simp [hregistry]
  stopping := .done
  inquiries_eq := ⟨[], by simp [hlog]⟩

/-- What changes neither the live list nor what has been asked makes no difference. -/
theorem congr (h : Abandons b b' left told) {b'' : Switchboard σ ε}
    (hlive : b''.registry.live = b'.registry.live)
    (hlog : inquiries b''.trace = inquiries b'.trace) : Abandons b b'' left told where
  ascending := h.ascending
  mem_iff feed := by
    have hobserves : b''.registry.observes feed = b'.registry.observes feed := by
      unfold Registry.observes
      rw [hlive]
    rw [hobserves]
    exact h.mem_iff feed
  stopping := h.stopping
  inquiries_eq := by
    rw [hlog]
    exact h.inquiries_eq

/-- That a command has been completed makes no difference. -/
theorem did (h : Abandons b b' left told) (l : Option String) (c : Command ε) (o : Outcome σ) :
    Abandons b (b'.note (.did l c o)) left told :=
  h.congr rfl (inquiries_cons_of_none rfl b'.trace)

end Abandons

/-- Whether from `b` to `b'` the source is told to stop what has been abandoned: in order and
each feed once, as far as it does not refuse. -/
def StopsAbandoned (b b' : Switchboard σ ε) : Prop :=
  ∃ left told, Abandons b b' left told ∧ (told.map (·.feed)).Nodup ∧
    ((∀ i ∈ told, i.answer = .ok ()) → ∀ feed, feed ∈ told.map (·.feed) ↔
      b.registry.observes feed = true ∧ ¬ b'.registry.observes feed = true)

/-- The feeds that were abandoned are those that the source is told to stop. -/
theorem Abandons.stopsAbandoned {b b' : Switchboard σ ε} {left : List Feed}
    {told : List Inquiry} (h : Abandons b b' left told) : StopsAbandoned b b' :=
  ⟨left, told, h, h.nodup_told, h.told_iff_of_ok⟩

/-! ## operations that abandon feeds -/

/-- A removal abandons what it releases. -/
theorem abandons_withdraw (selected : Registration → Bool) (b : Switchboard σ ε) :
    ∃ told, Abandons b (b.withdraw S selected).2 (b.registry.withdraw selected).released told := by
  obtain ⟨told, hstopping, hlog⟩ :=
    inquiries_stopAll S (b.registry.withdraw selected).released (b.struck selected)
  refine ⟨told, Feed.ascending_ascending _, fun feed => ?_, hstopping, [], ?_⟩
  · rw [withdraw_registry]
    exact Registry.mem_released_withdraw
  · rw [withdraw_eq, hlog, struck_trace, inquiries_cons_of_none rfl, List.map_nil, List.append_nil]

/-- A move that succeeds abandons what it leaves, after the source has started what it needs. -/
theorem abandons_setDefault {slot : Slot} {b : Switchboard σ ε}
    (h : (b.setDefault S slot).1 = .ok ()) :
    ∃ left told, Abandons b (b.setDefault S slot).2 left told := by
  have hcases := moving S slot b
  rw [h] at hcases
  generalize (b.setDefault S slot).2 = b' at hcases
  cases hcases with
  | stayed => exact ⟨[], [], .nothing rfl rfl⟩
  | moved _ _ ha =>
      obtain ⟨told, hstopping, hlog⟩ :=
        inquiries_stopAll S (b.registry.moveDefault slot).2 (b.relocated S slot)
      refine ⟨_, told, Feed.ascending_ascending _, fun feed => ?_, hstopping,
        b.registry.arrivals slot, ?_⟩
      · rw [stopAll_registry, relocated_registry]
        exact Registry.mem_released_moveDefault
      · rw [hlog, relocated_trace, inquiries_startAll_of_ok S ha]

/-- A publish abandons what its one-shots release. -/
theorem abandons_launch (kind : Kind) (slot : Slot) (p : Payload) (b : Switchboard σ ε) :
    ∃ told, Abandons b (b.launch S kind slot p) (b.registry.collect kind slot).released told := by
  obtain ⟨told, hstopping, hlog⟩ :=
    inquiries_stopAll S (b.registry.collect kind slot).released (b.gathered kind slot p)
  refine ⟨told, Feed.ascending_ascending _, fun feed => ?_, hstopping, [], ?_⟩
  · rw [launch_registry]
    exact Registry.mem_released_collect
  · rw [launch_eq, hlog, gathered_trace, inquiries_cons_of_none rfl, List.map_nil,
      List.append_nil]

/-- Calls ask for nothing. -/
theorem inquiries_handed (p : Payload) (called : List Registration)
    (trace : List (Event σ ε)) :
    inquiries ((called.map (·.handed p)).reverse ++ trace) = inquiries trace := by
  refine inquiries_append_of_none (fun e he => ?_) trace
  obtain ⟨r, -, rfl⟩ := List.mem_map.mp (List.mem_reverse.mp he)
  unfold Registration.handed
  split <;> rfl

/-- A publish to listeners that perform no command. -/
theorem abandons_publish {react : React σ ε} (hidle : Idle react) (limit : Nat) (kind : Kind)
    (slot : Option Slot) (p : Payload) (b : Switchboard σ ε) :
    ∃ left told, Abandons b (b.publish S (hear S react limit) kind slot p).2 left told := by
  unfold publish
  cases b.checkPublish kind slot p with
  | error e => exact ⟨[], [], .nothing rfl rfl⟩
  | ok u =>
      obtain ⟨told, hlaunch⟩ :=
        abandons_launch (S := S) kind (slot.getD b.registry.defaultSlot) p b
      obtain ⟨hlulled, htrace⟩ := deliverAll_of_idle (S := S) hidle limit p
        (b.audience kind (slot.getD b.registry.defaultSlot))
        (b.launch S kind (slot.getD b.registry.defaultSlot) p)
      refine ⟨_, told, hlaunch.congr hlulled.live_eq ?_⟩
      exact (congrArg inquiries htrace).trans (inquiries_handed p _ _)

/-! ## what the source is told -/

/-- **Abandoned feeds are stopped in order, up to the first refusal**, on every board.

* A removal abandons feeds, tells the source to stop them and asks it for nothing else; so
  does a move of the default slot that succeeds, which has asked for starts before.
* A publish does so when it begins, before it calls anybody, and if its listeners perform no
  command it asks the source for nothing else. -/
theorem abandoned_stopped_until_refusal (b : Switchboard σ ε) (invoke : Invoke σ ε)
    (l : Option String) (c : Command ε) :
    (∀ a, c.action = .ok a → a.isRemoval = true → StopsAbandoned b (b.obey S invoke l c).2) ∧
    (∀ slot, c.action = .ok (.setDefault slot) → (b.obey S invoke l c).1 = .ok .done →
      StopsAbandoned b (b.obey S invoke l c).2) ∧
    ∀ kind slot p, c.action = .ok (.publish kind slot p) →
      StopsAbandoned b (b.launch S kind (slot.getD b.registry.defaultSlot) p) ∧
      ∀ react limit, Idle react → StopsAbandoned b (b.obey S (hear S react limit) l c).2 := by
  refine ⟨fun a hc ha => ?_, fun slot hc ho => ?_, fun kind slot p hc => ⟨?_, ?_⟩⟩
  · rcases Action.removes_or_unknown ha with hremoves | ⟨event, listener, rfl, hevent⟩
    · rw [obey_removal invoke l hc hremoves]
      obtain ⟨told, h⟩ := abandons_withdraw (S := S) (a.removes ·) b
      exact (h.did l c _).stopsAbandoned
    · simp only [obey, attempt, hc, perform_unknown S invoke hevent]
      exact ((Abandons.nothing rfl rfl).did l c _).stopsAbandoned
  · have hset : (b.setDefault S slot).1 = .ok () := by
      simp only [obey, attempt, hc, perform, answered] at ho
      cases h : (b.setDefault S slot).1 with
      | ok u => rfl
      | error e =>
          rw [h] at ho
          contradiction
    obtain ⟨left, told, h⟩ := abandons_setDefault hset
    simp only [obey, attempt, hc, perform, answered]
    exact (h.did l c _).stopsAbandoned
  · obtain ⟨told, h⟩ := abandons_launch (S := S) kind (slot.getD b.registry.defaultSlot) p b
    exact h.stopsAbandoned
  · intro react limit hidle
    obtain ⟨left, told, h⟩ := abandons_publish (S := S) hidle limit kind slot p b
    simp only [obey, attempt, hc, perform, answered]
    exact (h.did l c _).stopsAbandoned

/-! ### a sample removal

One kind is observed on two slots.  The source will not stop the first. -/

namespace Sample

def spanning : List (Command Bench.Control) :=
  [ask (.on .voiceMail "first" none .repeating),
    ask (.on .voiceMail "second" (some ⟨1⟩) .repeating)]

/-- Both slots are observed. -/
def spanned : Switchboard Bench Bench.Control :=
  run Bench.source react 0 spanning (fresh settings clinging)

/-- The board after the attempt to remove every listener. -/
def vacated : Switchboard Bench Bench.Control :=
  (spanned.obey Bench.source (hear Bench.source react 0) none clear).2

end Sample

/-- Removing every listener abandons two feeds. -/
theorem abandoned_stopped_until_refusal_spanned :
    Sample.clear.action = .ok (.off .voiceMail none) ∧
      StopsAbandoned Sample.spanned Sample.vacated :=
  have h := abandoned_stopped_until_refusal (S := Bench.source) Sample.spanned
    (hear Bench.source Sample.react 0) none Sample.clear
  ⟨rfl, h.1 _ rfl rfl⟩

/-- **A feed can be abandoned without the source being told**: it has refused to stop the one
before. -/
theorem abandoned_never_stopped :
    Reaches Bench.source (fresh Sample.settings Sample.clinging) Sample.spanned ∧
      Sample.spanned.registry.observes (1, .voiceMail) = true ∧
      Sample.vacated.registry.observes (1, .voiceMail) = false ∧
      (inquiries Sample.vacated.trace).map (fun i => (i.request, i.feed)) =
        [(.start, (0, .voiceMail)), (.start, (1, .voiceMail)), (.stop, (0, .voiceMail))] :=
  ⟨(settles_run Sample.react 0 Sample.spanning (fresh Sample.settings Sample.clinging)).1,
    rfl, rfl, rfl⟩

end Switchboard

end SlotWatch

import SlotWatch.Proofs.Granting
import SlotWatch.Proofs.Idle

/-!
# SlotWatch.Proofs.Aspect

What shows of a switchboard to whom asks about one kind only (`Switchboard.aspect`): the live
registrations of the kind, the slots, what the source has been asked about the kind, and what
the listeners of the kind have been handed.  Registrations show under other ids, and channels
without their serial numbers (`Registration.seen`).

1. A source that grants everything is asked to start what is observed after an operation and
   was not before, and to stop what was and is not (`Shifts`).  Of one kind, this can be told
   from its registrations alone (`filter_gained`).
2. So what an operation does to the aspect of a kind can be told from this aspect
   (`Aspect.become`).  There is one lemma for each operation.
-/

namespace SlotWatch

variable {σ ε : Type}

/-! ## registrations of a kind -/

/-- The callback, without the serial number of a channel. -/
def Callback.anonymous : Callback → Callback
  | channel _ kind => channel 0 kind
  | callback => callback

namespace Registration

/-- The registration under another id, and without the serial number of a channel. -/
def seen (rename : Nat → Nat) (r : Registration) : Registration :=
  { r with id := rename r.id, callback := r.callback.anonymous }

variable (rename : Nat → Nat) (r : Registration)

/-- Moving a registration moves what is seen of it. -/
@[simp] theorem moved_seen (slot : Slot) :
    (r.seen rename).moved slot = (r.moved slot).seen rename := by
  have hfollows : (r.seen rename).follows slot = r.follows slot := rfl
  unfold moved
  rw [hfollows]
  split <;> rfl

/-- Moving changes no kind. -/
theorem moved_kind (slot : Slot) : (r.moved slot).kind = r.kind := by
  unfold moved
  split <;> rfl

end Registration

/-- The registrations of a kind, as they are seen. -/
def view (kind : Kind) (rename : Nat → Nat) (live : List Registration) : List Registration :=
  (live.filter (·.kind == kind)).map (Registration.seen rename)

section

variable {kind : Kind} {rename : Nat → Nat} {live : List Registration}

/-- What is seen is registrations of the kind. -/
theorem mem_view {s : Registration} :
    s ∈ view kind rename live ↔ ∃ r ∈ live, r.kind = kind ∧ r.seen rename = s := by
  simp [view, and_assoc]

theorem view_append (live' : List Registration) :
    view kind rename (live ++ live') = view kind rename live ++ view kind rename live' := by
  simp [view]

theorem view_of_kind_ne {r : Registration} (h : r.kind ≠ kind) : view kind rename [r] = [] := by
  simp [view, h]

theorem view_of_kind_eq {r : Registration} (h : r.kind = kind) :
    view kind rename [r] = [r.seen rename] := by
  simp [view, h]

/-- Registrations of the kind are all seen. -/
theorem length_view (h : ∀ r ∈ live, r.kind = kind) :
    (view kind rename live).length = live.length := by
  rw [view, List.length_map, List.filter_eq_self.mpr fun r hr => beq_iff_eq.mpr (h r hr)]

/-- Those that are selected can be told from how they are seen. -/
theorem view_filter {p q : Registration → Bool}
    (h : ∀ r ∈ live, r.kind = kind → p r = q (r.seen rename)) :
    view kind rename (live.filter p) = (view kind rename live).filter q := by
  unfold view
  rw [List.filter_map, List.filter_filter, List.filter_filter]
  refine congrArg _ (List.filter_congr fun r hr => ?_)
  by_cases hkind : r.kind = kind
  · simp [hkind, h r hr hkind]
  · rw [beq_eq_false_iff_ne.mpr hkind, Bool.false_and, Function.comp_apply, Bool.and_false]

/-- To move registrations is to move what is seen of them. -/
theorem view_map_moved (slot : Slot) :
    view kind rename (live.map (Registration.moved slot)) =
      (view kind rename live).map (Registration.moved slot) := by
  simp [view, List.filter_map, Function.comp_def, Registration.moved_kind]

end

/-! ## what is observed anew -/

namespace Feed

/-- What registrations observe and others before them did not. -/
def gained (before after : List Registration) : List Feed :=
  ascending ((after.map (·.feed)).filter fun feed => !before.any (·.feed == feed))

/-- A feed is gained by whoever observes it if nobody has before. -/
theorem mem_gained {before after : List Registration} {feed : Feed} :
    feed ∈ gained before after ↔
      (∃ r ∈ after, r.feed = feed) ∧ ¬ ∃ r ∈ before, r.feed = feed := by
  simp [gained]

/-- Nothing is gained where everything was observed before. -/
theorem gained_eq_nil {before after : List Registration}
    (h : ∀ r ∈ after, ∃ s ∈ before, s.feed = r.feed) : gained before after = [] := by
  refine List.eq_nil_iff_forall_not_mem.mpr fun feed hfeed => ?_
  obtain ⟨⟨r, hr, rfl⟩, hnew⟩ := mem_gained.mp hfeed
  exact hnew (h r hr)

/-- An ascending list of what is observed anew. -/
theorem Ascending.eq_gained {before after : List Registration} {feeds : List Feed}
    (h : Ascending feeds)
    (hmem : ∀ feed, feed ∈ feeds ↔
      (∃ r ∈ after, r.feed = feed) ∧ ¬ ∃ r ∈ before, r.feed = feed) :
    feeds = gained before after :=
  h.eq_of_mem_iff (ascending_ascending _) fun feed => (hmem feed).trans mem_gained.symm

/-- What is observed anew of one kind can be told from the registrations of the kind. -/
theorem filter_gained (kind : Kind) (rename : Nat → Nat) (before after : List Registration) :
    (gained before after).filter (·.2 == kind) =
      gained (view kind rename before) (view kind rename after) := by
  have hviewed (live : List Registration) (feed : Feed) (hkind : feed.2 = kind) :
      (∃ s ∈ view kind rename live, s.feed = feed) ↔ ∃ r ∈ live, r.feed = feed := by
    constructor
    · rintro ⟨s, hs, rfl⟩
      obtain ⟨r, hr, -, rfl⟩ := mem_view.mp hs
      exact ⟨r, hr, rfl⟩
    · rintro ⟨r, hr, rfl⟩
      exact ⟨_, mem_view.mpr ⟨r, hr, hkind, rfl⟩, rfl⟩
  refine Ascending.eq_gained ((ascending_ascending _).filter _) fun feed => ?_
  rw [List.mem_filter, mem_gained, beq_iff_eq]
  constructor
  · rintro ⟨⟨hafter, hbefore⟩, hkind⟩
    rw [hviewed after feed hkind, hviewed before feed hkind]
    exact ⟨hafter, hbefore⟩
  · rintro ⟨⟨s, hs, rfl⟩, hbefore⟩
    obtain ⟨r, hr, hkind, rfl⟩ := mem_view.mp hs
    rw [hviewed before _ hkind] at hbefore
    exact ⟨⟨⟨r, hr, rfl⟩, hbefore⟩, hkind⟩

end Feed

/-! ## what is handed over -/

/-- The payload that an event says a registration has been handed. -/
def Event.handover? : Event σ ε → Option (Registration × Payload)
  | .delivered r p => some (r, p)
  | _ => none

/-- What registrations have been handed, in order. -/
def handovers (trace : List (Event σ ε)) : List (Registration × Payload) :=
  (trace.filterMap Event.handover?).reverse

theorem handovers_story (trace : List (Event σ ε)) : handovers (story trace) = handovers trace :=
  congrArg List.reverse
    (filterMap_story (fun e he => by cases e <;> first | rfl | contradiction) trace)

theorem handovers_eq_of_story_eq {t t' : List (Event σ ε)} (h : story t' = story t) :
    handovers t' = handovers t := by
  rw [← handovers_story, h, handovers_story]

theorem handovers_cons_of_none {e : Event σ ε} (h : e.handover? = none)
    (es : List (Event σ ε)) : handovers (e :: es) = handovers es := by
  rw [handovers, List.filterMap_cons_none h, handovers]

/-- A delivery hands over to each registration in order. -/
theorem handovers_delivered (rs : List Registration) (p : Payload) (es : List (Event σ ε)) :
    handovers ((rs.map (.delivered · p)).reverse ++ es) = handovers es ++ rs.map (·, p) := by
  have hhandover : Event.handover? (σ := σ) (ε := ε) ∘ (.delivered · p) = some ∘ (·, p) := rfl
  rw [handovers, List.filterMap_append, List.filterMap_reverse, List.reverse_append,
    List.reverse_reverse, List.filterMap_map, hhandover, List.filterMap_eq_map, ← handovers]

theorem inquiries_delivered (rs : List Registration) (p : Payload) (es : List (Event σ ε)) :
    inquiries ((rs.map (.delivered · p)).reverse ++ es) = inquiries es := by
  refine inquiries_append_of_none (fun e he => ?_) es
  obtain ⟨r, -, rfl⟩ := List.mem_map.mp (List.mem_reverse.mp he)
  rfl

/-! ## aspects -/

/-- What shows of a switchboard to whom asks about one kind only. -/
structure Aspect where
  live : List Registration
  slotCount : Slot
  defaultSlot : Slot
  inquiries : List Inquiry
  handovers : List (Registration × Payload)

namespace Aspect

/-- The aspect with another default slot and other live registrations.  The source has been
asked to start what these observe anew, and to stop what they do not observe any more. -/
def become (a : Aspect) (slot : Slot) (live : List Registration) : Aspect :=
  { a with
    live
    defaultSlot := slot
    inquiries := a.inquiries ++ (Feed.gained a.live live).map (.ok .start) ++
      (Feed.gained live a.live).map (.ok .stop) }

/-- The registrations that an event is for. -/
def audience (a : Aspect) (kind : Kind) (slot : Slot) : List Registration :=
  a.live.filter (·.hears kind slot a.defaultSlot)

/-- The aspect after a publish: its one-shots have left, and all it is for have been handed the
payload. -/
def publish (a : Aspect) (kind : Kind) (slot : Slot) (p : Payload) : Aspect :=
  { a.become a.defaultSlot
      (a.live.filter fun r => !(r.hears kind slot a.defaultSlot && r.mode == .oneShot)) with
    handovers := a.handovers ++ (a.audience kind slot).map (·, p) }

/-- An aspect becomes itself where nothing has changed. -/
theorem become_self (a : Aspect) : a.become a.defaultSlot a.live = a := by
  have hnothing : Feed.gained a.live a.live = [] := Feed.gained_eq_nil fun r hr => ⟨r, hr, rfl⟩
  simp [become, hnothing]

/-- A publish that is for none of the registrations. -/
theorem publish_of_kind_ne {a : Aspect} {about : Kind} (h : ∀ r ∈ a.live, r.kind ≠ about)
    (slot : Slot) (p : Payload) : a.publish about slot p = a := by
  have hdeaf : ∀ r ∈ a.live, r.hears about slot a.defaultSlot = false := by
    intro r hr
    simp [Registration.hears, h r hr]
  have hnobody : a.audience about slot = [] :=
    List.filter_eq_nil_iff.mpr fun r hr => by simp [hdeaf r hr]
  have hall : (a.live.filter fun r =>
      !(r.hears about slot a.defaultSlot && r.mode == .oneShot)) = a.live :=
    List.filter_eq_self.mpr fun r hr => by simp [hdeaf r hr]
  rw [publish, hnobody, hall, become_self, List.map_nil, List.append_nil]

end Aspect

namespace Switchboard

/-- The aspect of a kind. -/
def aspect (kind : Kind) (rename : Nat → Nat) (b : Switchboard σ ε) : Aspect where
  live := view kind rename b.registry.live
  slotCount := b.registry.slotCount
  defaultSlot := b.registry.defaultSlot
  inquiries := (inquiries b.trace).filter (·.feed.2 == kind)
  handovers := ((handovers b.trace).filter (·.1.kind == kind)).map fun (r, p) => (r.seen rename, p)

variable {S : Source σ ε} {b b' : Switchboard σ ε} {kind : Kind} {rename : Nat → Nat}

/-- Neither the source nor an inbox shows in an aspect. -/
theorem aspect_of_alike (h : Alike b b') : b'.aspect kind rename = b.aspect kind rename := by
  rw [aspect, h.registry, h.trace, ← aspect]

/-- An event that neither asks nor hands over does not show in an aspect. -/
theorem aspect_note {e : Event σ ε} (hinquiry : e.inquiry? = none) (hhandover : e.handover? = none)
    (b : Switchboard σ ε) : (b.note e).aspect kind rename = b.aspect kind rename := by
  rw [aspect, note_trace, inquiries_cons_of_none hinquiry, handovers_cons_of_none hhandover,
    note_registry, ← aspect]

/-- Registrations are handed a payload, and nothing else that shows has changed. -/
theorem aspect_of_lulled (h : Lulled b b') {rs : List Registration} {p : Payload}
    (htrace : b'.trace = (rs.map (.delivered · p)).reverse ++ b.trace) :
    b'.aspect kind rename =
      { b.aspect kind rename with
        handovers := (b.aspect kind rename).handovers ++ (view kind rename rs).map (·, p) } := by
  have hhanded : ((rs.map (·, p)).filter fun handover => handover.1.kind == kind).map
      (fun handover => (handover.1.seen rename, handover.2)) =
      (view kind rename rs).map (·, p) := by
    rw [List.filter_map, List.map_map, view, List.map_map]
    rfl
  simp only [aspect, h.live_eq, h.slotCount_eq, h.defaultSlot_eq, htrace, inquiries_delivered,
    handovers_delivered, List.filter_append, List.map_append, hhanded]

/-- From `b` to `b'` nobody has been called, and the source has been asked to start what is
observed anew, and to stop what is not observed any more. -/
structure Shifts (b b' : Switchboard σ ε) : Prop where
  slotCount_eq : b'.registry.slotCount = b.registry.slotCount
  handovers_eq : handovers b'.trace = handovers b.trace
  inquiries_eq : inquiries b'.trace =
    inquiries b.trace ++ (Feed.gained b.registry.live b'.registry.live).map (.ok .start) ++
      (Feed.gained b'.registry.live b.registry.live).map (.ok .stop)

/-- What shows after a shift are the default slot and the live list, and what was asked on the
way. -/
theorem Shifts.aspect_eq (h : Shifts b b') :
    b'.aspect kind rename =
      (b.aspect kind rename).become b'.registry.defaultSlot
        (view kind rename b'.registry.live) := by
  have hasked (request : Request) (before after : List Registration) :
      ((Feed.gained before after).map (Inquiry.ok request)).filter (·.feed.2 == kind) =
        (Feed.gained (view kind rename before) (view kind rename after)).map (.ok request) := by
    rw [← Feed.filter_gained, List.filter_map]
    rfl
  simp only [aspect, Aspect.become, h.slotCount_eq, h.handovers_eq, h.inquiries_eq,
    List.filter_append, hasked]

/-! ## what the source is asked -/

/-- Registrations leave, which the event `e` tells of, and what they have `left` is stopped. -/
theorem shifts_of_left {e : Event σ ε} {left : List Feed} (htrace : b'.trace = e :: b.trace)
    (hinquiry : e.inquiry? = none) (hhandover : e.handover? = none)
    (hslots : b'.registry.slotCount = b.registry.slotCount)
    (hlive : b'.registry.live ⊆ b.registry.live) (hascending : Feed.Ascending left)
    (hleft : ∀ feed, feed ∈ left ↔ b.registry.observes feed ∧ ¬ b'.registry.observes feed) :
    Shifts b (b'.granting .stop left) := by
  have hnone : Feed.gained b.registry.live b'.registry.live = [] :=
    Feed.gained_eq_nil fun r hr => ⟨r, hlive hr, rfl⟩
  have hstopped : left = Feed.gained b'.registry.live b.registry.live := by
    refine hascending.eq_gained fun feed => ?_
    rw [← Registry.observes_iff, ← Registry.observes_iff, hleft]
  refine ⟨hslots, ?_, ?_⟩
  · rw [handovers_eq_of_story_eq (story_granting _ _ _), htrace, handovers_cons_of_none hhandover]
  · rw [inquiries_granting, htrace, inquiries_cons_of_none hinquiry, granting_registry, hnone,
      ← hstopped, List.map_nil, List.append_nil]

section

variable (hS : S.Grants b.source)
include hS

/-- A new registration has its feed started, if it is observed anew. -/
theorem shifts_register {callback : Callback} {about : Kind} {options : Option Options}
    {mode : Mode} {selector : Option Slot} (hs : b.registry.selector about options = .ok selector)
    (hd : b.registry.duplicate? about selector callback mode = none) :
    Shifts b (b.register S callback about options mode).2 := by
  have hnone : Feed.gained (b.registry.add about selector callback mode).live b.registry.live =
      [] := Feed.gained_eq_nil fun r hr => ⟨r, Registry.mem_live_add.mpr (.inl hr), rfl⟩
  have hstarted : (if b.registry.observes (selector.getD b.registry.defaultSlot, about) then []
      else [(selector.getD b.registry.defaultSlot, about)]) =
      Feed.gained b.registry.live (b.registry.add about selector callback mode).live := by
    cases ho : b.registry.observes (selector.getD b.registry.defaultSlot, about) with
    | true =>
        refine (Feed.gained_eq_nil fun r hr => ?_).symm
        rcases Registry.mem_live_add.mp hr with hr | rfl
        · exact ⟨r, hr, rfl⟩
        · exact Registry.observes_iff.mp ho
    | false =>
        refine Feed.Ascending.eq_gained (List.pairwise_singleton _ _) fun feed => ?_
        rw [← Registry.observes_iff, ← Registry.observes_iff, Registry.observes_add,
          if_neg Bool.false_ne_true, List.mem_singleton]
        constructor
        · rintro rfl
          exact ⟨.inr rfl, by simp [ho]⟩
        · exact fun h => h.1.resolve_left h.2
  rw [register_of_grants hS hs hd]
  refine ⟨rfl, handovers_eq_of_story_eq (story_granting _ _ _), ?_⟩
  simp only [inquiries_granting, hnone, hstarted, List.map_nil, List.append_nil]

/-- A removal has stopped what is not observed any more. -/
theorem shifts_withdraw (selected : Registration → Bool) :
    Shifts b (b.withdraw S selected).2 := by
  rw [withdraw_of_grants hS]
  exact shifts_of_left rfl rfl rfl rfl
    (fun r hr => (Registry.mem_live_withdraw.mp hr).1) (Feed.ascending_ascending _)
    fun _ => Registry.mem_released_withdraw

/-- The beginning of a publish has stopped what is not observed any more. -/
theorem shifts_launch (about : Kind) (slot : Slot) (p : Payload) :
    Shifts b (b.launch S about slot p) := by
  rw [launch_of_grants hS]
  exact shifts_of_left rfl rfl rfl rfl
    (fun r hr => (Registry.mem_live_collect.mp hr).1) (Feed.ascending_ascending _)
    fun _ => Registry.mem_released_collect

/-- A move has started what is observed anew, and stopped what is not observed any more. -/
theorem shifts_setDefault {slot : Slot} (hslot : ¬ (slot < 0 ∨ b.registry.slotCount ≤ slot))
    (hne : b.registry.defaultSlot ≠ slot) : Shifts b (b.setDefault S slot).2 := by
  have harrivals : b.registry.arrivals slot =
      Feed.gained b.registry.live (b.registry.moveDefault slot).1.live := by
    refine Feed.Ascending.eq_gained (Feed.ascending_ascending _) fun feed => ?_
    rw [← Registry.observes_iff, ← Registry.observes_iff, Registry.observes_moveDefault_iff,
      Registry.mem_released_moveDefault]
    constructor
    · intro h
      have hnew := Registry.not_observes_of_mem_arrivals h
      exact ⟨⟨.inr h, fun hleft => hnew hleft.1⟩, hnew⟩
    · exact fun h => h.1.1.resolve_left h.2
  have hleft : (b.registry.moveDefault slot).2 =
      Feed.gained (b.registry.moveDefault slot).1.live b.registry.live := by
    refine Feed.Ascending.eq_gained (Feed.ascending_ascending _) fun feed => ?_
    rw [← Registry.observes_iff, ← Registry.observes_iff]
    exact Registry.mem_released_moveDefault
  rw [setDefault_of_grants hS hslot hne]
  refine ⟨rfl, ?_, ?_⟩
  · exact handovers_eq_of_story_eq ((story_granting _ _ _).trans (story_granting _ _ _))
  · simp only [inquiries_granting, granting_registry, ← harrivals, ← hleft]

/-! ## operations -/

/-- A registration that is fit and new is put at the end, where it is of the kind. -/
theorem aspect_register {callback : Callback} {about : Kind} {options : Option Options}
    {mode : Mode} {selector : Option Slot} (hs : b.registry.selector about options = .ok selector)
    (hd : b.registry.duplicate? about selector callback mode = none) :
    (b.register S callback about options mode).2.aspect kind rename =
      (b.aspect kind rename).become b.registry.defaultSlot
        ((b.aspect kind rename).live ++
          view kind rename [b.registry.made about selector callback mode]) := by
  rw [(shifts_register hS hs hd).aspect_eq, register_of_grants hS hs hd]
  exact congrArg _ (view_append _)

/-- What leaves can be told from how registrations are seen. -/
theorem aspect_withdraw {selected p : Registration → Bool}
    (hp : ∀ r ∈ b.registry.live, r.kind = kind → selected r = p (r.seen rename)) :
    (b.withdraw S selected).2.aspect kind rename =
      (b.aspect kind rename).become b.registry.defaultSlot
        ((b.aspect kind rename).live.filter fun r => !p r) := by
  have hview : view kind rename (b.registry.withdraw selected).rest.live =
      (b.aspect kind rename).live.filter fun r => !p r :=
    view_filter fun r hr hkind => congrArg (!·) (hp r hr hkind)
  rw [(shifts_withdraw hS selected).aspect_eq, withdraw_registry, hview]
  rfl

/-- A move shows as one of what is seen. -/
theorem aspect_setDefault {slot : Slot} (hslot : ¬ (slot < 0 ∨ b.registry.slotCount ≤ slot))
    (hne : b.registry.defaultSlot ≠ slot) :
    (b.setDefault S slot).2.aspect kind rename =
      (b.aspect kind rename).become slot
        ((b.aspect kind rename).live.map (Registration.moved slot)) := by
  rw [(shifts_setDefault hS hslot hne).aspect_eq, setDefault_of_grants hS hslot hne]
  exact congrArg _ (view_map_moved slot)

/-- The beginning of a publish shows in the one-shots that leave. -/
theorem aspect_launch (about : Kind) (slot : Slot) (p : Payload) :
    (b.launch S about slot p).aspect kind rename =
      (b.aspect kind rename).become b.registry.defaultSlot
        ((b.aspect kind rename).live.filter fun r =>
          !(r.hears about slot b.registry.defaultSlot && r.mode == .oneShot)) := by
  have hview : view kind rename (b.registry.collect about slot).rest.live =
      (b.aspect kind rename).live.filter fun r =>
        !(r.hears about slot b.registry.defaultSlot && r.mode == .oneShot) :=
    view_filter fun r _ _ => rfl
  rw [(shifts_launch hS about slot p).aspect_eq, launch_registry, hview]
  rfl

omit hS in
/-- Whom an event is for can be told from how registrations are seen. -/
theorem view_roster (about : Kind) (slot : Slot) :
    view kind rename (roster b.registry about slot) =
      (b.aspect kind rename).audience about slot := by
  rw [← audience_eq]
  exact view_filter fun r _ _ => rfl

/-- A publish that is in order. -/
theorem aspect_publish {react : React σ ε} (hidle : Idle react) (limit : Nat)
    {settings : SlotSettings} {source : σ} (h : Reaches S (fresh settings source) b)
    {about : Kind} {slot : Option Slot} {p : Payload} (hp : Permitted b.registry about slot p) :
    (b.publish S (hear S react limit) about slot p).2.aspect kind rename =
      (b.aspect kind rename).publish about (slot.getD b.registry.defaultSlot) p := by
  obtain ⟨-, hlulled, htrace⟩ := publish_of_idle (S := S) hidle limit h hp
  rw [aspect_of_lulled hlulled htrace, aspect_launch hS, view_roster]
  rfl

end

end Switchboard

end SlotWatch

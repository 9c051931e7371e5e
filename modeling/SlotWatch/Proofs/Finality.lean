import SlotWatch.Proofs.Withdrawal

/-!
# SlotWatch.Proofs.Finality

Removals are exact and final.

What there is at a moment (`present`) are the live registrations and the one-shots that a
publish in progress still owes a call (`owed`): it has collected them, has not come to
them, and nobody has removed them.

1. A removal takes away those of them that it selects.  The others keep what they are,
   their order and their chances of being called (`Without`).
2. No event on the trace is a call of what an earlier one has removed (`Final`).
-/

namespace SlotWatch

variable {σ ε : Type}

/-! ## no call after a removal -/

/-- Whether an event is no call of what an earlier one has removed. -/
def Final (later earlier : Event σ ε) : Prop :=
  ∀ c, later.called? = some c → ∀ r ∈ earlier.removed, r.id ≠ c.id

/-- What is no call is final. -/
theorem final_of_not_call {e : Event σ ε} (h : e.called? = none) (earlier : Event σ ε) :
    Final e earlier := by
  intro c hc
  rw [h] at hc
  contradiction

/-- Whoever an event on the trace removes is on the record. -/
theorem mem_removals_of_mem {e : Event σ ε} {es : List (Event σ ε)} (he : e ∈ es)
    {r : Registration} (hr : r ∈ e.removed) : r ∈ removals es :=
  List.mem_flatMap.mpr ⟨e, he, hr⟩

namespace Switchboard

variable {S : Source σ ε}

/-- The roster is orderly, and all removals were final. -/
def InFinalOrder (g : Registry) (due : List Registration) (story : List (Event σ ε)) : Prop :=
  InOrder g due story ∧ story.Pairwise Final

/-- Whoever is called is armed, and whoever was removed is not. -/
theorem upheld_inFinalOrder : Upheld (InFinalOrder : _ → _ → List (Event σ ε) → Prop) where
  remark e he h :=
    ⟨upheld_inOrder.remark e he h.1, List.pairwise_cons.mpr
      ⟨fun _ _ => final_of_not_call (isIdle_of_isRemark he).1 _, h.2⟩⟩
  add hc hs hd h := ⟨upheld_inOrder.add hc hs hd h.1, h.2⟩
  withdraw selected h :=
    ⟨upheld_inOrder.withdraw selected h.1, List.pairwise_cons.mpr
      ⟨fun _ _ => final_of_not_call rfl _, h.2⟩⟩
  moveDefault hslot h := ⟨upheld_inOrder.moveDefault hslot h.1, h.2⟩
  collect slot hp h :=
    ⟨upheld_inOrder.collect slot hp h.1, List.pairwise_cons.mpr
      ⟨fun _ _ => final_of_not_call rfl _, h.2⟩⟩
  skip ha h := ⟨upheld_inOrder.skip ha h.1, h.2⟩
  call {g r due t p} ha hk h := by
    -- what is called is armed, so it has not been removed
    have hkept : ∀ s ∈ removals t, s.id ≠ r.id := (h.1.2.mem_armed.mp ha).2.2.1
    refine ⟨upheld_inOrder.call ha hk h.1, List.pairwise_cons.mpr ⟨fun e he c hc s hs => ?_, h.2⟩⟩
    rw [called?_handed, Option.some.injEq] at hc
    rw [← hc]
    exact hkept s (mem_removals_of_mem he hs)

/-- **What has been removed is not called any more.** -/
theorem Reaches.not_called_of_removed {settings : SlotSettings} {source : σ}
    {b : Switchboard σ ε} (h : Reaches S (fresh settings source) b)
    {later earlier : List (Event σ ε)} (htrace : b.trace = later ++ earlier) {r c : Registration}
    (hr : r ∈ removals earlier) (hc : c ∈ calls later) : c.id ≠ r.id := by
  have hstart : InFinalOrder (.ofSettings settings) [] ([] : List (Event σ ε)) :=
    ⟨⟨.ofSettings settings, .ofSettings settings⟩, List.Pairwise.nil⟩
  have hfinal := (upheld_inFinalOrder.reaches h hstart).2
  have hstory : story b.trace = story later ++ story earlier := by
    rw [htrace, story, List.filter_append]
    rfl
  rw [← removals_story] at hr
  rw [← calls_story] at hc
  obtain ⟨e, he, hr⟩ := List.mem_flatMap.mp hr
  obtain ⟨e', he', hc⟩ := List.mem_filterMap.mp hc
  rw [hstory, List.pairwise_append] at hfinal
  exact (hfinal.2.2 e' he' e he c hc r hr).symm

/-! ## what there is -/

/-- The one-shots that a publish in progress still owes a call: it has not come to them,
and nobody has removed them. -/
def owed (b : Switchboard σ ε) : List Registration :=
  b.running.flatten.filter fun r =>
    r.mode == .oneShot && !(removals b.trace).any (·.id == r.id)

/-- The registrations there are: the live ones, and the one-shots still owed a call. -/
def present (b : Switchboard σ ε) : List Registration :=
  b.registry.live ++ b.owed

/-- Owed a call are one-shots due that nobody has removed. -/
theorem mem_owed {b : Switchboard σ ε} {r : Registration} :
    r ∈ b.owed ↔
      r ∈ b.running.flatten ∧ r.mode = .oneShot ∧ ∀ s ∈ removals b.trace, s.id ≠ r.id := by
  rw [owed, List.mem_filter]
  simp

/-- Ids are counted from one. -/
def Numbered (g : Registry) (due : List Registration) (_ : List (Event σ ε)) : Prop :=
  0 < g.nextId ∧ ∀ r, g.Knows due r → 0 < r.id

/-- Ids are given out from one upwards. -/
theorem upheld_numbered : Upheld (Numbered : _ → _ → List (Event σ ε) → Prop) where
  remark _ _ h := h
  add _ _ _ h := by
    refine ⟨Nat.succ_pos _, fun r hr => ?_⟩
    rcases Registry.knows_of_knows_add hr with hr | rfl
    · exact h.2 r hr
    · exact h.1
  withdraw _ h := ⟨h.1, fun r hr => h.2 r (Registry.knows_of_knows_withdraw hr)⟩
  moveDefault _ h := by
    refine ⟨h.1, fun r hr => ?_⟩
    obtain ⟨s, hs, hid, -⟩ := Registry.knows_of_knows_moveDefault hr
    exact hid ▸ h.2 s hs
  collect _ _ h := ⟨h.1, fun r hr => h.2 r (Registry.knows_of_knows_collect hr)⟩
  skip _ h := by
    refine ⟨?_, fun r hr => h.2 r (Registry.knows_of_knows_claim hr)⟩
    rw [Registry.claim_nextId]
    exact h.1
  call _ _ h := by
    refine ⟨?_, fun r hr => h.2 r (Registry.knows_of_knows_claim hr)⟩
    rw [Registry.claim_nextId]
    exact h.1

/-- No registration has the id zero, nor one that is still to be given out. -/
theorem Reaches.numbered {settings : SlotSettings} {source : σ} {b : Switchboard σ ε}
    (h : Reaches S (fresh settings source) b) :
    Numbered b.registry b.running.flatten (story b.trace) := by
  refine upheld_numbered.reaches h ⟨Nat.one_pos, fun r hr => ?_⟩
  simp [Registry.Knows, Registry.ofSettings] at hr

/-- **The one-shots still owed a call are those that wait.** -/
theorem Reaches.mem_owed_iff {settings : SlotSettings} {source : σ} {b : Switchboard σ ε}
    (h : Reaches S (fresh settings source) b) {r : Registration} :
    r ∈ b.owed ↔ r ∈ b.registry.waiting := by
  obtain ⟨horder, hrecord⟩ := h.inOrder
  rw [mem_owed, horder.mem_waiting]
  refine and_congr_right fun hdue => and_congr_right fun hmode => ?_
  -- a one-shot that is due has not been called
  have hcalled : ∀ c ∈ calls b.trace, c.mode = .oneShot → c.id ≠ r.id := by
    intro c hc _ hid
    rw [← calls_story] at hc
    have hrepeating := (hrecord.known_call (.inr hdue) hc hid).2
    rw [hmode] at hrepeating
    contradiction
  have hpos := h.numbered.2 r (.inr hdue)
  have hlt := horder.lt_nextId (.inr hdue)
  rw [hrecord.mem_armed, removals_story, calls_story]
  exact ⟨fun hkept => ⟨hpos, hlt, hkept, hcalled⟩, fun ha => ha.2.2.1⟩

/-- A one-shot is owed one call. -/
theorem Reaches.nodup_owed {settings : SlotSettings} {source : σ} {b : Switchboard σ ε}
    (h : Reaches S (fresh settings source) b) : (b.owed.map (·.id)).Nodup := by
  have hsub : b.owed.Sublist (b.running.flatten.filter (·.mode == .oneShot)) := by
    have hsplit : b.owed = (b.running.flatten.filter (·.mode == .oneShot)).filter
        fun r => !(removals b.trace).any (·.id == r.id) := by
      rw [owed, List.filter_filter]
      simp only [Bool.and_comm]
    rw [hsplit]
    exact List.filter_sublist
  exact h.inOrder.1.nodup_due.sublist (hsub.map _)

/-- Every id stands for one of the registrations there are. -/
theorem Reaches.nodup_present {settings : SlotSettings} {source : σ} {b : Switchboard σ ε}
    (h : Reaches S (fresh settings source) b) : (b.present.map (·.id)).Nodup := by
  rw [present, List.map_append, List.nodup_append]
  refine ⟨h.inOrder.1.nodup_live, h.nodup_owed, fun a ha c hc => ?_⟩
  obtain ⟨r, hr, rfl⟩ := List.mem_map.mp ha
  obtain ⟨s, hs, rfl⟩ := List.mem_map.mp hc
  obtain ⟨hdue, hmode, -⟩ := mem_owed.mp hs
  exact h.inOrder.1.ne_of_due hdue hmode hr

/-- Owed a call are exactly the one-shots that wait. -/
theorem Reaches.present_perm {settings : SlotSettings} {source : σ} {b : Switchboard σ ε}
    (h : Reaches S (fresh settings source) b) :
    b.present.Perm (b.registry.live ++ b.registry.waiting) := by
  have howed : b.owed.Perm b.registry.waiting :=
    (List.perm_ext_iff_of_nodup h.nodup_owed.of_map h.inOrder.1.nodup_waiting).mpr
      fun _ => h.mem_owed_iff
  exact howed.append_left _

/-- What a removal takes away are the selected ones of the registrations there are. -/
theorem Reaches.removed_perm {settings : SlotSettings} {source : σ} {b : Switchboard σ ε}
    (h : Reaches S (fresh settings source) b) (selected : Registration → Bool) :
    (b.registry.withdraw selected).removed.Perm (b.present.filter selected) := by
  rw [h.inOrder.1.removed_withdraw]
  exact (h.present_perm.filter selected).symm

/-- A removal takes all that are selected, live or owed a call, and nobody else. -/
theorem Reaches.mem_removed_iff {settings : SlotSettings} {source : σ} {b : Switchboard σ ε}
    (h : Reaches S (fresh settings source) b) {selected : Registration → Bool}
    {r : Registration} :
    r ∈ (b.registry.withdraw selected).removed ↔ r ∈ b.present ∧ selected r = true := by
  rw [(h.removed_perm selected).mem_iff, List.mem_filter]

/-! ## what a removal leaves -/

/-- Whether `b'` is `b` without what is `gone`: nothing else has left or changed places,
nobody has been called, and what is not gone has the same calls ahead. -/
structure Without (gone : Registration → Prop) [DecidablePred gone] (b b' : Switchboard σ ε) :
    Prop where
  live_eq : b'.registry.live = b.registry.live.filter (¬ gone ·)
  owed_eq : b'.owed = b.owed.filter (¬ gone ·)
  running_eq : b'.running = b.running
  defaultSlot_eq : b'.registry.defaultSlot = b.registry.defaultSlot
  calls_eq : calls b'.trace = calls b.trace
  audience_eq (kind : Kind) (slot : Slot) :
    b'.audience kind slot = (b.audience kind slot).filter (¬ gone ·)
  comeTo_eq (r : Registration) (rs : List Registration) :
    (∀ s ∈ b.present, gone s → s.id ≠ r.id) → (b'.comeTo r rs).1 = (b.comeTo r rs).1

section
variable {gone : Registration → Prop} [DecidablePred gone]

/-- What it was is a matter of the registry, of what is due and of the story. -/
theorem Without.of_eq {b b' b'' : Switchboard σ ε} (h : Without gone b b')
    (hregistry : b''.registry = b'.registry) (hrunning : b''.running = b'.running)
    (hcalls : calls b''.trace = calls b'.trace)
    (hremovals : removals b''.trace = removals b'.trace) : Without gone b b'' where
  live_eq := by rw [hregistry, h.live_eq]
  owed_eq := by rw [← h.owed_eq, owed, owed, hrunning, hremovals]
  running_eq := by rw [hrunning, h.running_eq]
  defaultSlot_eq := by rw [hregistry, h.defaultSlot_eq]
  calls_eq := by rw [hcalls, h.calls_eq]
  audience_eq kind slot := by rw [← h.audience_eq, audience, audience, hregistry]
  comeTo_eq r rs hr := by rw [← h.comeTo_eq r rs hr, comeTo, comeTo, hregistry]

/-- Whoever is removed is owed no call any more. -/
theorem owed_withdraw {settings : SlotSettings} {source : σ} {b : Switchboard σ ε}
    (h : Reaches S (fresh settings source) b) :
    (b.withdraw S (gone ·)).2.owed = b.owed.filter (¬ gone ·) := by
  rw [owed, owed, withdraw_running, List.filter_filter, removals_withdraw]
  refine List.filter_congr fun r hdue => ?_
  by_cases hr : r ∈ b.owed
  · have hwaiting := h.mem_owed_iff.mp hr
    obtain ⟨-, hmode, hkept⟩ := mem_owed.mp hr
    have hgone : (∀ s ∈ (b.registry.withdraw (gone ·)).removed, s.id ≠ r.id) ↔ ¬ gone r := by
      constructor
      · intro hids hg
        have hremoved : r ∈ (b.registry.withdraw (gone ·)).removed :=
          h.mem_removed_iff.mpr ⟨List.mem_append_right _ hr, decide_eq_true hg⟩
        exact hids r hremoved rfl
      · intro hg s hs
        exact h.inOrder.1.ne_of_mem_removed (.inr hwaiting) (decide_eq_false hg) hs
    rw [Bool.eq_iff_iff]
    simp only [hmode, beq_self_eq_true, List.any_append, Bool.not_or, Bool.true_and,
      Bool.and_eq_true, Bool.not_eq_true', List.any_eq_false, beq_iff_eq, decide_eq_true_eq]
    exact and_congr_left fun _ => hgone
  · have howed : (r.mode == .oneShot && !(removals b.trace).any (·.id == r.id)) = false := by
      rw [← Bool.not_eq_true]
      exact fun hf => hr (List.mem_filter.mpr ⟨hdue, hf⟩)
    rw [howed, Bool.and_false, List.any_append, Bool.not_or, Bool.and_left_comm, howed,
      Bool.and_false]

/-- A removal disarms nobody who stays. -/
theorem armed_withdraw {settings : SlotSettings} {source : σ} {b : Switchboard σ ε}
    (h : Reaches S (fresh settings source) b) {r : Registration}
    (hr : ∀ s ∈ b.present, gone s → s.id ≠ r.id) :
    r.id ∈ (b.registry.withdraw (gone ·)).rest.armed ↔ r.id ∈ b.registry.armed := by
  rw [Registry.Orderly.mem_armed_withdraw]
  refine and_iff_left fun s hs => ?_
  obtain ⟨hs, hg⟩ := h.mem_removed_iff.mp hs
  exact hr s hs (of_decide_eq_true hg)

/-- A removal leaves everything but those whom it removes. -/
theorem without_withdraw {settings : SlotSettings} {source : σ} {b : Switchboard σ ε}
    (h : Reaches S (fresh settings source) b) :
    Without gone b (b.withdraw S (gone ·)).2 where
  live_eq := by
    rw [withdraw_registry]
    exact List.filter_congr fun r _ => (decide_not ..).symm
  owed_eq := owed_withdraw h
  running_eq := withdraw_running S _ b
  defaultSlot_eq := by
    rw [withdraw_registry]
    rfl
  calls_eq := calls_withdraw S _ b
  audience_eq kind slot := by
    simp only [audience, withdraw_registry, Registry.collect, Registry.withdraw,
      List.filter_filter, Bool.and_comm, decide_not]
  comeTo_eq r rs hr := by
    rw [Bool.eq_iff_iff, comeTo_armed, comeTo_armed, withdraw_registry]
    exact armed_withdraw h hr

end

/-- A removal that selects nothing leaves everything as it is; only the trace tells of it. -/
theorem withdraw_of_none_present {settings : SlotSettings} {source : σ} {b : Switchboard σ ε}
    (h : Reaches S (fresh settings source) b) {selected : Registration → Bool}
    (hnone : ∀ r ∈ b.present, selected r = false) :
    b.withdraw S selected = (.ok [], b.note (.withdrawn [])) := by
  have hregistry : b.registry.withdraw selected = ⟨[], [], b.registry⟩ :=
    Registry.withdraw_of_none fun r hr => hnone r (h.present_perm.mem_iff.mpr hr)
  simp only [withdraw, hregistry, stopAll]

/-! ## exact and final -/

/-- Whoever is not gone is still there. -/
theorem present_of_without {gone : Registration → Prop} [DecidablePred gone]
    {b b' : Switchboard σ ε} (h : Without gone b b') :
    b'.present = b.present.filter (¬ gone ·) := by
  rw [present, present, h.live_eq, h.owed_eq, List.filter_append]

section
variable {settings : SlotSettings} {source : σ} {b : Switchboard σ ε} {a : Action ε}

/-- The answer tells how many of the registrations there are have been removed. -/
theorem tally_of_ok (h : Reaches S (fresh settings source) b) {invoke : Invoke σ ε}
    (ha : ∃ r, a.removes r) {reply : Reply σ} (ho : (b.perform S invoke a).1 = .ok reply) :
    reply = a.tally (b.present.countP (a.removes ·)) := by
  rw [perform_removal S invoke ha, answered] at ho
  cases hw : (b.withdraw S (a.removes ·)).1 with
  | error e => rw [hw] at ho; contradiction
  | ok removed =>
      have hlength : removed.length = b.present.countP (a.removes ·) := by
        rw [removed_of_withdraw_ok hw, (h.removed_perm _).length_eq, List.countP_eq_length_filter]
      rw [hw] at ho
      cases ho
      exact congrArg a.tally hlength

/-- To obey a command to remove is to remove and to note it. -/
theorem obey_removal (invoke : Invoke σ ε) (l : Option String) {c : Command ε}
    (hc : c.action = .ok a) (ha : ∃ r, a.removes r) (b : Switchboard σ ε) :
    (b.obey S invoke l c).2 =
      (b.withdraw S (a.removes ·)).2.note (.did l c (b.obey S invoke l c).1) := by
  simp only [obey, attempt, hc, perform_removal S invoke ha]
  rfl

/-- The board after a command that removes. -/
theorem without_obey (h : Reaches S (fresh settings source) b) (invoke : Invoke σ ε)
    (l : Option String) {c : Command ε} (hc : c.action = .ok a) (ha : ∃ r, a.removes r) :
    Without (a.removes ·) b (b.obey S invoke l c).2 := by
  have hwithdraw : Without (a.removes ·) b (b.withdraw S (a.removes ·)).2 := without_withdraw h
  rw [obey_removal invoke l hc ha]
  exact hwithdraw.of_eq rfl rfl rfl rfl

/-- The removals of a command are on the record. -/
theorem removals_obey (invoke : Invoke σ ε) (l : Option String) {c : Command ε}
    (hc : c.action = .ok a) (ha : ∃ r, a.removes r) (b : Switchboard σ ε) :
    removals (b.obey S invoke l c).2.trace =
      (b.registry.withdraw (a.removes ·)).removed ++ removals b.trace := by
  rw [obey_removal invoke l hc ha, note_trace, removals_cons_of_isIdle ⟨rfl, rfl⟩,
    removals_withdraw]

/-- What a command has removed is not called any more. -/
theorem not_called_of_obey (h : Reaches S (fresh settings source) b) (invoke : Invoke σ ε)
    (l : Option String) {c : Command ε} (hc : c.action = .ok a) {m : Switchboard σ ε}
    (hm : Reaches S (b.obey S invoke l c).2 m) {later : List (Event σ ε)}
    (htrace : m.trace = later ++ (b.obey S invoke l c).2.trace) {r : Registration}
    (hr : r ∈ b.present) (hremoves : a.removes r) {called : Registration}
    (hcalled : called ∈ calls later) : called.id ≠ r.id := by
  have hquiet : c.quiet = true := Command.quiet_of_removes ⟨a, hc, hremoves⟩
  have hremoved : r ∈ removals (b.obey S invoke l c).2.trace := by
    rw [removals_obey invoke l hc ⟨r, hremoves⟩]
    exact List.mem_append_left _ (h.mem_removed_iff.mpr ⟨hr, decide_eq_true hremoves⟩)
  have hreach : Reaches S (fresh settings source) m :=
    (h.tail (.obey invoke l c hquiet b)).trans hm
  exact hreach.not_called_of_removed htrace hremoved hcalled

/-- A command that removes, given once more, finds nothing and asks the source nothing. -/
theorem obey_again (h : Reaches S (fresh settings source) b) (invoke : Invoke σ ε)
    (l l' : Option String) {c : Command ε} (hc : c.action = .ok a) (ha : ∃ r, a.removes r) :
    (b.obey S invoke l c).2.obey S invoke l' c =
      (.ok (a.tally 0), ((b.obey S invoke l c).2.note (.withdrawn [])).note
        (.did l' c (.ok (a.tally 0)))) := by
  have hquiet : c.quiet = true := ha.elim fun r hr => Command.quiet_of_removes ⟨a, hc, hr⟩
  have hreach : Reaches S (fresh settings source) (b.obey S invoke l c).2 :=
    h.tail (.obey invoke l c hquiet b)
  have hnone : ∀ r ∈ (b.obey S invoke l c).2.present, decide (a.removes r) = false := by
    intro r hr
    rw [present_of_without (without_obey h invoke l hc ha)] at hr
    simpa using (List.mem_filter.mp hr).2
  have hagain : (b.obey S invoke l c).2.perform S invoke a =
      (.ok (a.tally 0), (b.obey S invoke l c).2.note (.withdrawn [])) := by
    rw [perform_removal S invoke ha, withdraw_of_none_present hreach hnone]
    rfl
  rw [obey, attempt, hc]
  simp only [hagain]

/-- **A removal is exact and final**, on every board that a run can reach, with any number
of publishes in progress.  When a command that is there to remove registrations succeeds,

* it answers with how many of those there are it asks for, each with an id of its own;
* these have left, and the others are as they were;
* none of these is called after that, whatever is done;
* given once more it answers that there is nothing, and the source is not asked. -/
theorem removal_exact_and_final (h : Reaches S (fresh settings source) b)
    (invoke : Invoke σ ε) (l : Option String) {c : Command ε} (hc : c.action = .ok a)
    (ha : a.isRemoval = true) {reply : Reply σ} (ho : (b.obey S invoke l c).1 = .ok reply) :
    reply = a.tally (b.present.countP (a.removes ·)) ∧ (b.present.map (·.id)).Nodup ∧
      Without (a.removes ·) b (b.obey S invoke l c).2 ∧
      (∀ m later, Reaches S (b.obey S invoke l c).2 m →
        m.trace = later ++ (b.obey S invoke l c).2.trace →
        ∀ r ∈ b.present, a.removes r → ∀ called ∈ calls later, called.id ≠ r.id) ∧
      ∀ l', (b.obey S invoke l c).2.obey S invoke l' c =
        (.ok (a.tally 0), ((b.obey S invoke l c).2.note (.withdrawn [])).note
          (.did l' c (.ok (a.tally 0)))) := by
  have hperform : (b.perform S invoke a).1 = .ok reply := by
    simpa only [obey, attempt, hc] using ho
  have hsome : ∃ r, a.removes r := by
    rcases Action.removes_or_unknown ha with hsome | ⟨event, listener, rfl, hevent⟩
    · exact hsome
    · rw [perform_unknown S invoke hevent] at hperform
      contradiction
  refine ⟨tally_of_ok h hsome hperform, h.nodup_present, without_obey h invoke l hc hsome, ?_, ?_⟩
  · exact fun m later hm htrace r hr hremoves called hcalled =>
      not_called_of_obey h invoke l hc hm htrace hr hremoves hcalled
  · exact fun l' => obey_again h invoke l l' hc hsome

end

/-! ### a sample removal

A listener is called, and removes another one from a publish that is for both. -/

namespace Sample

def crowd : List (Command Bench.Control) :=
  [ask (.on .voiceMail "first" none .repeating), ask (.on .voiceMail "late" none .oneShot),
    ask (.on .voiceMail "late" (some ⟨1⟩) .repeating)]

def first : Registration :=
  { id := 1, kind := .voiceMail, selector := none, observed := 0
    callback := .typed "first" .voiceMail, mode := .repeating }

def late : Registration :=
  { id := 2, kind := .voiceMail, selector := none, observed := 0
    callback := .typed "late" .voiceMail, mode := .oneShot }

/-- The three registrations have been made. -/
def crowded : Switchboard Bench Bench.Control :=
  run Bench.source react 0 crowd (fresh settings bench)

/-- A publish has called the first of the two registrations that it is for. -/
def midway : Switchboard Bench Bench.Control :=
  (((crowded.launch Bench.source .voiceMail 0 (.voiceMail true)).comeTo first [late]).2.hand
    first (.voiceMail true)).2

theorem reaches_midway : Reaches Bench.source (fresh settings bench) midway := by
  have hcrowded : Reaches Bench.source (fresh settings bench) crowded :=
    (settles_run react 0 crowd (fresh settings bench)).1
  have hlaunch : Advance Bench.source crowded
      (crowded.launch Bench.source .voiceMail 0 (.voiceMail true)) :=
    .launch (p := .voiceMail true) 0 rfl crowded
  have hrunning : (crowded.launch Bench.source .voiceMail 0 (.voiceMail true)).running =
      (first :: [late]) :: [] := rfl
  have hcall : Advance Bench.source (crowded.launch Bench.source .voiceMail 0 (.voiceMail true))
      midway :=
    .call hrunning (by decide) rfl
  exact (hcrowded.tail hlaunch).tail hcall

/-- Remove the listener "late". -/
def dismiss : Action Bench.Control := .off .voiceMail (some "late")

end Sample

/-- The one-shot that the publish has not come to counts like the live registration. -/
theorem removal_exact_and_final_midway :
    Reaches Bench.source (fresh Sample.settings Sample.bench) Sample.midway ∧
      Sample.dismiss.isRemoval = true ∧
      (Sample.midway.obey Bench.source (hear Bench.source Sample.react 0) (some "first")
        (Sample.ask Sample.dismiss)).1 = .ok (.count 2) ∧
      (.count 2 : Reply Bench) =
        Sample.dismiss.tally (Sample.midway.present.countP (Sample.dismiss.removes ·)) ∧
      Without (Sample.dismiss.removes ·) Sample.midway
        (Sample.midway.obey Bench.source (hear Bench.source Sample.react 0) (some "first")
          (Sample.ask Sample.dismiss)).2 :=
  have hreach := Sample.reaches_midway
  have hok : (Sample.midway.obey Bench.source (hear Bench.source Sample.react 0) (some "first")
      (Sample.ask Sample.dismiss)).1 = .ok (.count 2) := rfl
  have hexact := removal_exact_and_final hreach _ _ (a := Sample.dismiss) rfl rfl hok
  ⟨hreach, rfl, hok, hexact.1, hexact.2.2.1⟩

end Switchboard

end SlotWatch

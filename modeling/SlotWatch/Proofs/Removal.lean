import SlotWatch.Proofs.Record

/-!
# SlotWatch.Proofs.Removal

What becomes of a registration between a moment at which it is live and its turn in a
publish.  It is not armed then just if a command completed in between has asked for its
removal (`mem_armed_iff`):

1. a command that asks for it finds it, wherever it is: armed, it is live or waits;
2. nothing else disarms it before its turn.

The commands are read off the trace, like calls and removals.
-/

namespace SlotWatch

variable {σ ε : Type}

/-! ## completed commands -/

/-- The command that an event is the completion of. -/
def Event.completed? : Event σ ε → Option (Command ε)
  | .did _ c _ => some c
  | _ => none

/-- The commands that were completed, latest first. -/
def completed (trace : List (Event σ ε)) : List (Command ε) :=
  trace.filterMap Event.completed?

@[simp] theorem completed_story (trace : List (Event σ ε)) :
    completed (story trace) = completed trace :=
  filterMap_story (fun e he => by cases e <;> first | rfl | contradiction) trace

theorem completed_cons_of_none {e : Event σ ε} (h : e.completed? = none)
    (es : List (Event σ ε)) : completed (e :: es) = completed es :=
  List.filterMap_cons_none h

@[simp] theorem completed?_handed (r : Registration) (p : Payload) :
    (r.handed p : Event σ ε).completed? = none := by
  unfold Registration.handed
  split <;> rfl

/-- What a command asks to be removed is up to the id and the terms. -/
theorem Command.removes_congr {r s : Registration} (hid : r.id = s.id)
    (hterms : r.terms = s.terms) (c : Command ε) : c.removes r ↔ c.removes s := by
  have hkind := Registration.kind_eq_of_terms_eq hterms
  have hcallback := Registration.callback_eq_of_terms_eq hterms
  refine exists_congr fun a => and_congr_right fun _ => ?_
  cases a <;> simp only [Action.removes, hid, hkind, hcallback]

namespace Switchboard

variable {S : Source σ ε}

/-! ## what a step completes -/

/-- What calls nobody either removes nobody or removes exactly whom it asks for. -/
theorem Change.story_cases {removes : Registration → Prop} {b b' : Switchboard σ ε}
    (h : Change S removes b b') :
    (story b'.trace = story b.trace ∧ ∀ r, ¬ removes r) ∨
      ∃ selected, (∀ r, selected r = true ↔ removes r) ∧
        story b'.trace = .withdrawn (b.registry.withdraw selected).removed :: story b.trace ∧
        b'.registry = (b.registry.withdraw selected).rest := by
  cases h with
  | nothing hn h => exact .inl ⟨by rw [h.trace], hn⟩
  | register callback kind _ hn h =>
      exact .inl ⟨by rw [h.trace, (registering S callback kind _ _ b).story_eq], hn⟩
  | withdraw hs h =>
      refine .inr ⟨_, hs, ?_, ?_⟩
      · rw [h.trace, story_withdraw]
      · rw [h.registry, withdraw_registry]
  | setDefault hn h => exact .inl ⟨by rw [h.trace, (moving S _ b).story_eq], hn⟩

/-- What a step that completes `done` does to registrations: either nothing is removed
and nothing was to be, or a command has removed what it asks for. -/
inductive Completes (c c' : Switchboard σ ε) : List (Command ε) → Prop where
  | keeping (hn : ∀ cmd ∈ done, ∀ r, ¬ cmd.removes r)
      (hr : removals c'.trace = removals c.trace) : Completes c c' done
  | removing (cmd : Command ε) (hs : ∀ r, selected r = true ↔ cmd.removes r)
      (hr : removals c'.trace = (c.registry.withdraw selected).removed ++ removals c.trace)
      (hg : c'.registry = (c.registry.withdraw selected).rest) : Completes c c' [cmd]

/-- A step completes one command at most, and removes what that has asked for. -/
theorem Advance.completes {c c' : Switchboard σ ε} (h : Advance S c c') :
    ∃ done, completed c'.trace = done ++ completed c.trace ∧ Completes c c' done := by
  cases h with
  | obey invoke l cmd hc =>
      refine ⟨[cmd], ?_⟩
      have htrace : (c.obey S invoke l cmd).2.trace =
          .did l cmd (c.attempt S invoke cmd).1 :: (c.attempt S invoke cmd).2.trace := rfl
      have hremovals : removals (c.obey S invoke l cmd).2.trace =
          removals (c.attempt S invoke cmd).2.trace := rfl
      have hcompleted : completed (c.obey S invoke l cmd).2.trace =
          cmd :: completed (c.attempt S invoke cmd).2.trace := rfl
      rw [hcompleted, ← completed_story]
      rcases (change_attempt invoke c hc).story_cases with ⟨hs, hn⟩ | ⟨selected, hs, hstory, hg⟩
      · refine ⟨by rw [hs, completed_story, List.singleton_append], .keeping (by simpa) ?_⟩
        rw [hremovals, ← removals_story, hs, removals_story]
      · refine ⟨?_, .removing cmd hs ?_ hg⟩
        · rw [hstory, completed_cons_of_none rfl, completed_story, List.singleton_append]
        · rw [hremovals, ← removals_story, hstory, removals_withdrawn, removals_story]
  | report => exact ⟨[], rfl, .keeping (by simp) rfl⟩
  | launch slot hp =>
      refine ⟨[], ?_, .keeping (by simp) ?_⟩
      · rw [← completed_story, story_launch, completed_cons_of_none rfl, completed_story,
          List.nil_append]
      · rw [← removals_story, story_launch, removals_cons_of_isIdle ⟨rfl, rfl⟩, removals_story]
  | skip => exact ⟨[], rfl, .keeping (by simp) rfl⟩
  | call =>
      refine ⟨[], ?_, .keeping (by simp) ?_⟩
      · rw [(alike_hand _ _ _).trace, note_trace, completed_cons_of_none (completed?_handed _ _),
          comeTo_trace, List.nil_append]
      · rw [(alike_hand _ _ _).trace, note_trace, removals_handed, comeTo_trace]
  | land => exact ⟨[], rfl, .keeping (by simp) rfl⟩
  | remark l cmd o hc =>
      refine ⟨[cmd], rfl, .keeping (fun cmd' hcmd r hr => ?_) rfl⟩
      rw [List.mem_singleton.mp hcmd] at hr
      rw [Command.quiet_of_removes hr] at hc
      contradiction

/-! ## what becomes of a registration -/

/-- An id that has been given and is not armed stays so. -/
theorem mem_armed_of_suffix {c c' : Switchboard σ ε}
    (hc : InOrder c.registry c.running.flatten (story c.trace))
    (hc' : InOrder c'.registry c'.running.flatten (story c'.trace))
    (hs : c.trace <:+ c'.trace) {id : Nat} (hlt : id < c.registry.nextId)
    (h : id ∈ c'.registry.armed) : id ∈ c.registry.armed := by
  obtain ⟨new, htrace⟩ := hs
  obtain ⟨hpos, -, hremoved, hcalled⟩ := hc'.2.mem_armed.mp h
  rw [removals_story, ← htrace, removals, List.flatMap_append] at hremoved
  rw [calls_story, ← htrace, calls, List.filterMap_append] at hcalled
  refine hc.2.mem_armed.mpr ⟨hpos, hlt, fun r hr => ?_, fun r hr => ?_⟩
  · rw [removals_story] at hr
    exact hremoved r (List.mem_append_right _ hr)
  · rw [calls_story] at hr
    exact hcalled r (List.mem_append_right _ hr)

/-- What the commands `done` on the way from `b` to `c` mean for a registration. -/
structure Pursued (r : Registration) (b c : Switchboard σ ε) (done : List (Command ε)) :
    Prop where
  completed_eq : completed c.trace = done ++ completed b.trace
  stands : Stands r.id r.terms c.registry c.running.flatten (story c.trace)
  of_removed {s} : s ∈ removals c.trace → s.id = r.id → ∃ cmd ∈ done, cmd.removes r
  not_armed {cmd} : cmd ∈ done → cmd.removes r → r.id ∉ c.registry.armed

/-- A live registration has nothing behind it yet. -/
theorem Pursued.refl {b : Switchboard σ ε}
    (hb : InOrder b.registry b.running.flatten (story b.trace)) {r : Registration}
    (hr : r ∈ b.registry.live) : Pursued r b b [] where
  completed_eq := rfl
  stands := hb.stands (.inl hr)
  of_removed hs hid := by
    obtain ⟨-, -, hremoved, -⟩ := hb.2.mem_armed.mp (hb.1.armed_of_live hr)
    rw [removals_story] at hremoved
    exact absurd hid (hremoved _ hs)
  not_armed h := by contradiction

/-- A step on the way. -/
theorem Pursued.advance {r : Registration} {b c c' : Switchboard σ ε}
    {done new : List (Command ε)} (h : Pursued r b c done) (hstep : Advance S c c')
    (hc : InOrder c.registry c.running.flatten (story c.trace))
    (hc' : InOrder c'.registry c'.running.flatten (story c'.trace))
    (hcompleted : completed c'.trace = new ++ completed c.trace) (hnew : Completes c c' new) :
    Pursued r b c' (new ++ done) where
  completed_eq := by rw [hcompleted, h.completed_eq, List.append_assoc]
  stands := (upheld_stands r.id r.terms).kept.advance hstep h.stands
  of_removed {s} hs hid := by
    have hold : s ∈ removals c.trace → ∃ cmd ∈ new ++ done, cmd.removes r := by
      intro hs
      obtain ⟨cmd, hcmd, hremoves⟩ := h.of_removed hs hid
      exact ⟨cmd, List.mem_append_right new hcmd, hremoves⟩
    cases hnew with
    | keeping _ hr => exact hold (hr ▸ hs)
    | removing cmd hsel hr =>
        rw [hr] at hs
        rcases List.mem_append.mp hs with hs | hs
        · have hterms := h.stands.known (hc.1.knows_of_mem_removed hs) hid
          have hremoves := (hsel s).mp (hc.1.mem_removed_withdraw.mp hs).2
          exact ⟨cmd, by simp, (cmd.removes_congr hid hterms).mp hremoves⟩
        · exact hold hs
  not_armed {cmd} hcmd hremoves harmed := by
    have hbefore := mem_armed_of_suffix hc hc' (Reaches.suffix (.single hstep))
      h.stands.lt_nextId harmed
    rcases List.mem_append.mp hcmd with hcmd | hcmd
    · cases hnew with
      | keeping hn => exact hn cmd hcmd r hremoves
      | removing cmd' hsel _ hg =>
          rw [List.mem_singleton.mp hcmd] at hremoves
          rw [hg] at harmed
          obtain ⟨s, hs, hid⟩ := hc.1.of_armed hbefore
          have hknown : c.registry.Knows c.running.flatten s :=
            hs.imp_right fun hs => (hc.1.mem_waiting.mp hs).1
          have hterms := h.stands.known hknown hid
          have hselected := (hsel s).mpr ((cmd'.removes_congr hid hterms).mpr hremoves)
          have hremoved := hc.1.mem_removed_withdraw.mpr ⟨hs, hselected⟩
          exact ((Registry.Orderly.mem_armed_withdraw _ _ _).mp harmed).2 s hremoved hid
    · exact h.not_armed hcmd hremoves hbefore

/-- A registration can be followed from where it is live to wherever the run gets. -/
theorem pursued {settings : SlotSettings} {source : σ} {b c : Switchboard σ ε}
    (hb : Reaches S (fresh settings source) b) (hc : Reaches S b c) {r : Registration}
    (hr : r ∈ b.registry.live) : ∃ done, Pursued r b c done := by
  induction hc with
  | refl => exact ⟨[], .refl hb.inOrder hr⟩
  | @tail c c' hreach hstep ih =>
      obtain ⟨done, hdone⟩ := ih
      obtain ⟨new, hcompleted, hnew⟩ := hstep.completes
      have hc : Reaches S (fresh settings source) c := hb.trans hreach
      have hc' : Reaches S (fresh settings source) c' := hc.tail hstep
      exact ⟨new ++ done, hdone.advance hstep hc.inOrder hc'.inOrder hcompleted hnew⟩

/-! ## removals since a moment -/

/-- Whether a command that was completed on the way from one board to another has asked
for the removal of a registration. -/
def RemovedSince (r : Registration) (earlier later : Switchboard σ ε) : Prop :=
  ∃ l c o, .did l c o ∈ earlier.since later ∧ c.removes r

/-- The commands since a moment are those on top of the trace. -/
theorem removedSince_iff {r : Registration} {b c : Switchboard σ ε} (hs : b.trace <:+ c.trace)
    {done : List (Command ε)} (h : completed c.trace = done ++ completed b.trace) :
    RemovedSince r b c ↔ ∃ cmd ∈ done, cmd.removes r := by
  obtain ⟨between, htrace⟩ := hs
  have hsince := since_eq_reverse htrace
  rw [← htrace, completed, List.filterMap_append] at h
  rw [← List.append_cancel_right h]
  simp only [RemovedSince, hsince, List.mem_reverse, List.mem_filterMap]
  constructor
  · rintro ⟨l, cmd, o, he, hremoves⟩
    exact ⟨cmd, ⟨_, he, rfl⟩, hremoves⟩
  · rintro ⟨cmd, ⟨e, he, hcmd⟩, hremoves⟩
    cases e with
    | did l cmd' o =>
        cases hcmd
        exact ⟨l, cmd, o, he, hremoves⟩
    | _ => contradiction

/-- **What was live and is due is armed just if no command has asked for its removal
since.** -/
theorem mem_armed_iff {settings : SlotSettings} {source : σ} {b c : Switchboard σ ε}
    (hb : Reaches S (fresh settings source) b) (hc : Reaches S b c) {r : Registration}
    (hr : r ∈ b.registry.live) (hdue : r ∈ c.running.flatten) :
    r.id ∈ c.registry.armed ↔ ¬ RemovedSince r b c := by
  obtain ⟨done, hdone⟩ := pursued hb hc hr
  have hfresh : Reaches S (fresh settings source) c := hb.trans hc
  have horder := hfresh.inOrder
  rw [removedSince_iff hc.suffix hdone.completed_eq]
  constructor
  · rintro harmed ⟨cmd, hcmd, hremoves⟩
    exact hdone.not_armed hcmd hremoves harmed
  · intro hnot
    obtain ⟨hpos, -⟩ := hb.inOrder.2.mem_armed.mp (hb.inOrder.1.armed_of_live hr)
    refine horder.2.mem_armed.mpr ⟨hpos, hdone.stands.lt_nextId, fun s hs hid => ?_,
      fun s hs hmode hid => ?_⟩
    · rw [removals_story] at hs
      exact hnot (hdone.of_removed hs hid)
    · -- a call would have been the one that is still due
      obtain ⟨hterms, hrepeating⟩ := horder.2.known_call (.inr hdue) hs hid
      rw [Registration.mode_eq_of_terms_eq hterms, hrepeating] at hmode
      contradiction

end Switchboard

end SlotWatch

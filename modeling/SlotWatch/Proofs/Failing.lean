import SlotWatch.Proofs.Finality

/-!
# SlotWatch.Proofs.Failing

What a failed command leaves behind.

1. A command that asks for no removal leaves the registrations, those that wait, the
   default slot and whatever is ahead of them as they were, and calls nobody
   (`Undisturbed`).
2. A removal tells the source last.  It can fail only by the refusal of a stop, and by
   then it has been done: it leaves what it leaves when it succeeds (`Without`).
-/

namespace SlotWatch

namespace Switchboard

variable {σ ε : Type} {S : Source σ ε}

/-! ## nothing is disturbed -/

/-- Boards with the same registrations and the same ahead of them; nobody has been called
from one to the other. -/
structure Undisturbed (b b' : Switchboard σ ε) : Prop where
  registry_eq : b'.registry = b.registry
  running_eq : b'.running = b.running
  calls_eq : calls b'.trace = calls b.trace

theorem Undisturbed.refl (b : Switchboard σ ε) : Undisturbed b b := ⟨rfl, rfl, rfl⟩

theorem Undisturbed.trans {b₁ b₂ b₃ : Switchboard σ ε} (h₁ : Undisturbed b₁ b₂)
    (h₂ : Undisturbed b₂ b₃) : Undisturbed b₁ b₃ where
  registry_eq := h₂.registry_eq.trans h₁.registry_eq
  running_eq := h₂.running_eq.trans h₁.running_eq
  calls_eq := h₂.calls_eq.trans h₁.calls_eq

/-- A remark disturbs nobody. -/
theorem Undisturbed.note {b b' : Switchboard σ ε} (h : Undisturbed b b') {e : Event σ ε}
    (he : e.isRemark = true) : Undisturbed b (b'.note e) where
  registry_eq := h.registry_eq
  running_eq := h.running_eq
  calls_eq := by rw [note_trace, calls_cons_of_isIdle (isIdle_of_isRemark he), h.calls_eq]

/-- Inboxes and channels disturb nobody. -/
theorem Undisturbed.alike {b b' b'' : Switchboard σ ε} (h : Undisturbed b b')
    (ha : Alike b' b'') : Undisturbed b b'' where
  registry_eq := by rw [ha.registry, h.registry_eq]
  running_eq := by rw [ha.running, h.running_eq]
  calls_eq := by rw [ha.trace, h.calls_eq]

/-- Any later event is for the same registrations. -/
theorem Undisturbed.audience_eq {b b' : Switchboard σ ε} (h : Undisturbed b b') (kind : Kind)
    (slot : Slot) : b'.audience kind slot = b.audience kind slot := by
  rw [audience, audience, h.registry_eq]

/-! ## operations that fail -/

/-- A registration that is refused is not made. -/
theorem undisturbed_register {callback : Callback} {kind : Kind} {options : Option Options}
    {mode : Mode} {b : Switchboard σ ε} {e : Failure}
    (he : (b.register S callback kind options mode).1 = .error e) :
    Undisturbed b (b.register S callback kind options mode).2 := by
  have hcases := registering S callback kind options mode b
  have hcalls : calls (b.register S callback kind options mode).2.trace = calls b.trace := by
    rw [← calls_story, hcases.story_eq, calls_story]
  refine ⟨?_, hcases.running_eq, hcalls⟩
  rw [he] at hcases
  generalize (b.register S callback kind options mode).2 = b' at hcases
  cases hcases <;> rfl

/-- A default slot that is refused has moved nobody. -/
theorem undisturbed_setDefault {slot : Slot} {b : Switchboard σ ε} {e : Failure}
    (he : (b.setDefault S slot).1 = .error e) : Undisturbed b (b.setDefault S slot).2 := by
  have hcases := moving S slot b
  have hcalls : calls (b.setDefault S slot).2.trace = calls b.trace := by
    rw [← calls_story, hcases.story_eq, calls_story]
  refine ⟨?_, hcases.running_eq, hcalls⟩
  rw [he] at hcases
  generalize (b.setDefault S slot).2 = b' at hcases
  cases hcases with
  | outside => rfl
  | refused => exact startAll_registry S _ _ b

/-- A publish that is refused has called nobody. -/
theorem undisturbed_publish {invoke : Invoke σ ε} {kind : Kind} {slot : Option Slot}
    {p : Payload} {b : Switchboard σ ε} {e : Failure}
    (he : (b.publish S invoke kind slot p).1 = .error e) :
    Undisturbed b (b.publish S invoke kind slot p).2 := by
  unfold publish at he ⊢
  cases hp : b.checkPublish kind slot p with
  | error e' => exact .refl b
  | ok u =>
      simp only [hp] at he
      contradiction

/-- An update that is refused has called nobody, as its news would be in order. -/
theorem undisturbed_update {invoke : Invoke σ ε} {slot : Slot} {p : Payload}
    {b : Switchboard σ ε} {e : Failure} (he : (b.update S invoke slot p).1 = .error e) :
    Undisturbed b (b.update S invoke slot p).2 := by
  unfold update at he ⊢
  by_cases hkind : p.kind = .iccAccount
  · rw [if_pos hkind] at he ⊢
    exact undisturbed_publish he
  rw [if_neg hkind] at he ⊢
  cases hs : b.registry.validateSlot p.kind slot with
  | error e' => exact .refl b
  | ok u =>
      have hreport : Undisturbed b (b.report S slot p).2 := ⟨rfl, rfl, rfl⟩
      simp only [hs] at he ⊢
      rcases hnews : b.report S slot p with ⟨_ | q, b'⟩
      · simp only [hnews] at he
        contradiction
      · rw [hnews] at hreport
        simp only [hnews] at he ⊢
        exact hreport.trans (undisturbed_publish he)

/-- An answer fails only if the operation does. -/
theorem error_of_answered {α : Type} {reply : α → Reply σ}
    {result : Except Failure α × Switchboard σ ε} {e : Failure}
    (he : (answered reply result).1 = .error e) : result.1 = .error e := by
  obtain ⟨o, b⟩ := result
  cases o with
  | error e' => cases he; rfl
  | ok x => contradiction

/-- An action that asks for no removal. -/
theorem undisturbed_perform (invoke : Invoke σ ε) {b : Switchboard σ ε} {a : Action ε}
    (hn : ∀ r, ¬ a.removes r) {e : Failure} (he : (b.perform S invoke a).1 = .error e) :
    Undisturbed b (b.perform S invoke a).2 := by
  cases hremoval : a.isRemoval with
  | true =>
      rcases Action.removes_or_unknown hremoval with ⟨r, hr⟩ | ⟨event, listener, rfl, hevent⟩
      · exact absurd hr (hn r)
      · rw [perform_unknown S invoke hevent]
        exact .refl b
  | false =>
      cases a with
      | on => exact undisturbed_register (error_of_answered he)
      | subscribe event listener options mode =>
          have hfailed := error_of_answered he
          simp only [perform, answered, subscribe] at hfailed ⊢
          split at hfailed
          · exact .refl b
          · exact undisturbed_register hfailed
      | channel name kind options =>
          have hregister : (b.register S (.channel b.nextChannel kind) kind options .repeating).1 =
              .error e := by
            rw [← openChannel_outcome name]
            exact error_of_answered he
          exact (undisturbed_register hregister).alike (alike_openChannel name kind options b)
      | publish => exact undisturbed_publish (error_of_answered he)
      | update => exact undisturbed_update (error_of_answered he)
      | setDefault => exact undisturbed_setDefault (error_of_answered he)
      | validateSlot => exact .refl b
      | source => exact ⟨rfl, rfl, rfl⟩
      | _ => contradiction

/-! ## commands that fail -/

section
variable {b : Switchboard σ ε}

/-- A command that asks for no removal. -/
theorem undisturbed_obey (invoke : Invoke σ ε) (l : Option String) {c : Command ε}
    (hn : ∀ r, ¬ c.removes r) {e : Failure} (he : (b.obey S invoke l c).1 = .error e) :
    Undisturbed b (b.obey S invoke l c).2 := by
  have hattempt : Undisturbed b (b.attempt S invoke c).2 := by
    have hfailed : (b.attempt S invoke c).1 = .error e := he
    unfold attempt at hfailed ⊢
    cases hc : c.action with
    | error e' => exact .refl b
    | ok a =>
        have hkeeps : ∀ r, ¬ a.removes r := fun r hr => hn r ⟨a, hc, hr⟩
        simp only [hc] at hfailed
        exact undisturbed_perform invoke hkeeps hfailed
  exact hattempt.note rfl

/-- A removal fails with the refusal of a stop, and asks nothing more after that. -/
theorem refused_of_obey (invoke : Invoke σ ε) (l : Option String) {c : Command ε} {a : Action ε}
    (hc : c.action = .ok a) (ha : ∃ r, a.removes r) {e : Failure}
    (he : (b.obey S invoke l c).1 = .error e) :
    ∃ feed earlier, (b.obey S invoke l c).2.trace =
      .did l c (.error e) :: .asked .stop feed (.error e) :: earlier := by
  have hperform : (b.perform S invoke a).1 = .error e := by
    simpa only [obey, attempt, hc] using he
  rw [perform_removal S invoke ha] at hperform
  obtain ⟨feed, -, hhead⟩ := refused_of_withdraw_error (error_of_answered hperform)
  obtain ⟨earlier, htrace⟩ := List.head?_eq_some_iff.mp hhead
  refine ⟨feed, earlier, ?_⟩
  rw [obey_removal invoke l hc ha, note_trace, htrace, he]

/-- **A failure changes nothing but what a refused removal has removed**, on every board
that a run can reach, with any number of publishes in progress.  When a command fails,

* if it asks for no removal, the registrations, those that wait, the default slot and
  whatever is ahead of them are as they were, and nobody has been called;
* if it does, the source has refused a stop, and what is left is what the removal leaves
  when it succeeds. -/
theorem failure_changes_only_removed {settings : SlotSettings} {source : σ}
    (h : Reaches S (fresh settings source) b) (invoke : Invoke σ ε) (l : Option String)
    {c : Command ε} {e : Failure} (he : (b.obey S invoke l c).1 = .error e) :
    ((∀ r, ¬ c.removes r) →
      Undisturbed b (b.obey S invoke l c).2 ∧
        ∀ kind slot, (b.obey S invoke l c).2.audience kind slot = b.audience kind slot) ∧
    ∀ a, c.action = .ok a → (∃ r, a.removes r) →
      Without (a.removes ·) b (b.obey S invoke l c).2 ∧
        ∃ feed earlier, (b.obey S invoke l c).2.trace =
          .did l c (.error e) :: .asked .stop feed (.error e) :: earlier := by
  refine ⟨fun hn => ?_, fun a hc ha => ?_⟩
  · have hundisturbed := undisturbed_obey invoke l hn he
    exact ⟨hundisturbed, hundisturbed.audience_eq⟩
  · exact ⟨without_obey h invoke l hc ha, refused_of_obey invoke l hc ha he⟩

end

/-! ### a sample refusal

The source will not stop what the only registration observes. -/

namespace Sample

def clinging : Bench :=
  { bench with refusals := [(("stop", (0, .voiceMail)), .reported .systemInternal "busy")] }

/-- The registration has been made. -/
def held : Switchboard Bench Bench.Control :=
  run Bench.source react 0 [ask (.on .voiceMail "first" none .repeating)] (fresh settings clinging)

theorem reaches_held : Reaches Bench.source (fresh settings clinging) held :=
  (settles_run react 0 _ (fresh settings clinging)).1

/-- Remove every listener. -/
def clear : Command Bench.Control := ask (.off .voiceMail none)

/-- The board after the attempt to do so. -/
def cleared : Switchboard Bench Bench.Control :=
  (held.obey Bench.source (hear Bench.source react 0) none clear).2

/-- Make a slot beyond those of the phone the default slot. -/
def stray : Command Bench.Control := ask (.setDefault 7)

end Sample

/-- The removal fails, and the registration is gone; the move fails, and all is as it was. -/
theorem failure_changes_only_removed_held :
    Reaches Bench.source (fresh Sample.settings Sample.clinging) Sample.held ∧
      (Sample.held.obey Bench.source (hear Bench.source Sample.react 0) none Sample.clear).1 =
        .error (.reported .systemInternal "busy") ∧
      Without (Action.removes · (.off .voiceMail none : Action Bench.Control)) Sample.held
        Sample.cleared ∧
      (Sample.held.obey Bench.source (hear Bench.source Sample.react 0) none Sample.stray).1 =
        .error (.defaultSlotOutOfRange 7 2) ∧
      Undisturbed Sample.held
        (Sample.held.obey Bench.source (hear Bench.source Sample.react 0) none Sample.stray).2 :=
  have hrefused :
      (Sample.held.obey Bench.source (hear Bench.source Sample.react 0) none Sample.clear).1 =
        .error (.reported .systemInternal "busy") := rfl
  have houtside :
      (Sample.held.obey Bench.source (hear Bench.source Sample.react 0) none Sample.stray).1 =
        .error (.defaultSlotOutOfRange 7 2) := rfl
  have hkeeps : ∀ r, ¬ Sample.stray.removes r := by
    rintro r ⟨a, ha, hr⟩
    cases ha
    contradiction
  have hremoval := failure_changes_only_removed Sample.reaches_held _ none hrefused
  have hmove := failure_changes_only_removed Sample.reaches_held _ none houtside
  ⟨Sample.reaches_held, hrefused, (hremoval.2 _ rfl ⟨Sample.first, rfl, nofun⟩).1, houtside,
    (hmove.1 hkeeps).1⟩

/-- **A command can fail and leave fewer registrations than there were.** -/
theorem refused_removal_disturbs :
    Reaches Bench.source (fresh Sample.settings Sample.clinging) Sample.held ∧
      (∃ e, (Sample.held.obey Bench.source (hear Bench.source Sample.react 0) none
        Sample.clear).1 = .error e) ∧
      Sample.held.registry.live = [Sample.first] ∧ Sample.cleared.registry.live = [] ∧
      ¬ Undisturbed Sample.held Sample.cleared :=
  ⟨Sample.reaches_held, ⟨.reported .systemInternal "busy", rfl⟩, rfl, rfl, fun h => by
    have hlive := congrArg Registry.live h.registry_eq
    contradiction⟩

end Switchboard

end SlotWatch

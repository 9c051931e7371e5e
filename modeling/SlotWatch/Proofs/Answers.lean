import Mathlib.Algebra.GroupWithZero.Nat
import SlotWatch.Proofs.Finality
import SlotWatch.Proofs.OneShot
import SlotWatch.Proofs.Removal

/-!
# SlotWatch.Proofs.Answers

What commands have answered, read off the trace: the ids that were given out (`issued`),
the counts of removed registrations (`counts`) and the cancellations (`cancels`).

1. A step completes at most one command, and without one it removes nothing and gives
   out no id (`Completing`).
2. A command that calls nobody gives out the id of a live registration or the next one
   that there is (`Issuing`), so the ids given out are those below the next one
   (`Reaches.mem_issued_iff`).
3. If the source stops whatever it is asked to, removals answer how much they have
   removed, so together the answers tell how much has been removed
   (`Reaches.answers_eq_length_removals`).
-/

namespace SlotWatch

variable {σ ε : Type}

/-! ## outcomes on a trace -/

/-- The command that an event is the completion of, with its outcome. -/
def Event.outcome? : Event σ ε → Option (Command ε × Outcome σ)
  | .did _ c o => some (c, o)
  | _ => none

/-- The commands that were completed and their outcomes, latest first. -/
def outcomes (trace : List (Event σ ε)) : List (Command ε × Outcome σ) :=
  trace.filterMap Event.outcome?

/-- The id that a command for a registration was answered with. -/
def Command.issued? (c : Command ε) (o : Outcome σ) : Option Nat :=
  match c.mode?, o with
  | some _, .ok (.id id) => some id
  | _, _ => none

/-- The count that a command to remove a callback, or all callbacks, was answered with. -/
def Command.counted? (c : Command ε) (o : Outcome σ) : Option Nat :=
  match c.action, o with
  | .ok (.off ..), .ok (.count n) => some n
  | .ok (.unsubscribe ..), .ok (.count n) => some n
  | _, _ => none

/-- The id in a command to remove one registration, if it was answered that there was
one. -/
def Command.cancelled? (c : Command ε) (o : Outcome σ) : Option Nat :=
  match c.action, o with
  | .ok (.cancel id), .ok (.flag true) => some id
  | _, _ => none

/-- What can be read off the outcomes. -/
def answers (read : Command ε → Outcome σ → Option Nat) (trace : List (Event σ ε)) : List Nat :=
  (outcomes trace).filterMap fun done => read done.1 done.2

/-- The ids that were given out, those of repeated registrations again. -/
def issued (trace : List (Event σ ε)) : List Nat :=
  answers Command.issued? trace

/-- The counts that removals were answered with. -/
def counts (trace : List (Event σ ε)) : List Nat :=
  answers Command.counted? trace

/-- The ids that were cancelled. -/
def cancels (trace : List (Event σ ε)) : List Nat :=
  answers Command.cancelled? trace

theorem answers_of_eq {t t' : List (Event σ ε)} (h : outcomes t' = outcomes t)
    (read : Command ε → Outcome σ → Option Nat) : answers read t' = answers read t := by
  rw [answers, h, answers]

/-- One outcome more is one answer more at most. -/
theorem answers_of_cons {t t' : List (Event σ ε)} {c : Command ε} {o : Outcome σ}
    (h : outcomes t' = (c, o) :: outcomes t) (read : Command ε → Outcome σ → Option Nat) :
    answers read t' = (read c o).toList ++ answers read t := by
  rw [answers, h, List.filterMap_cons]
  cases read c o <;> rfl

@[simp] theorem outcomes_story (trace : List (Event σ ε)) :
    outcomes (story trace) = outcomes trace :=
  filterMap_story (fun e he => by cases e <;> first | rfl | contradiction) trace

theorem outcomes_cons_of_none {e : Event σ ε} (h : e.outcome? = none) (es : List (Event σ ε)) :
    outcomes (e :: es) = outcomes es :=
  List.filterMap_cons_none h

@[simp] theorem outcome?_handed (r : Registration) (p : Payload) :
    (r.handed p : Event σ ε).outcome? = none := by
  unfold Registration.handed
  split <;> rfl

/-- A command for no registration is given no id. -/
theorem Command.issued?_of_mode_none {c : Command ε} (hc : c.mode? = none) (o : Outcome σ) :
    c.issued? o = none := by
  simp [Command.issued?, hc]

/-- A command that publishes makes no registration. -/
theorem Command.mode?_of_not_quiet {c : Command ε} (hc : c.quiet = false) : c.mode? = none := by
  cases hmode : c.mode? with
  | none => rfl
  | some mode => simp [Command.quiet_of_mode hmode] at hc

namespace Switchboard

variable {S : Source σ ε}

/-! ## what a step completes -/

/-- What a step completes: nothing, a command that has published, or a command that
calls nobody and that the step carries out. -/
inductive Completing (S : Source σ ε) (b b' : Switchboard σ ε) : Prop where
  | nothing (ho : outcomes b'.trace = outcomes b.trace) (hr : removals b'.trace = removals b.trace)
      (hn : b'.registry.nextId = b.registry.nextId)
  | published (c : Command ε) (o : Outcome σ) (hc : c.quiet = false)
      (ho : outcomes b'.trace = (c, o) :: outcomes b.trace)
      (hr : removals b'.trace = removals b.trace) (hn : b'.registry.nextId = b.registry.nextId)
  | obeyed (invoke : Invoke σ ε) (c : Command ε) (hc : c.quiet = true)
      (ho : outcomes b'.trace = (c, (b.attempt S invoke c).1) :: outcomes b.trace)
      (ht : ∃ e, e.isIdle ∧ b'.trace = e :: (b.attempt S invoke c).2.trace)
      (hg : b'.registry = (b.attempt S invoke c).2.registry)

/-- A command that calls nobody completes no other. -/
theorem outcomes_attempt (invoke : Invoke σ ε) (b : Switchboard σ ε) {c : Command ε}
    (hc : c.quiet = true) : outcomes (b.attempt S invoke c).2.trace = outcomes b.trace := by
  rw [← outcomes_story]
  rcases (change_attempt invoke b hc).story_cases with ⟨hs, -⟩ | ⟨selected, -, hstory, -⟩
  · rw [hs, outcomes_story]
  · rw [hstory, outcomes_cons_of_none rfl, outcomes_story]

/-- A step completes nothing, a publication, or a command that it carries out itself. -/
theorem Advance.completing {b b' : Switchboard σ ε} (h : Advance S b b') : Completing S b b' := by
  cases h with
  | obey invoke l c hc =>
      have hdone : outcomes (b.obey S invoke l c).2.trace =
          (c, (b.attempt S invoke c).1) :: outcomes (b.attempt S invoke c).2.trace := rfl
      rw [outcomes_attempt invoke b hc] at hdone
      exact .obeyed invoke c hc hdone ⟨_, ⟨rfl, rfl⟩, rfl⟩ rfl
  | report => exact .nothing rfl rfl rfl
  | launch slot hp =>
      refine .nothing ?_ ?_ ?_
      · rw [← outcomes_story, story_launch, outcomes_cons_of_none rfl, outcomes_story]
      · rw [← removals_story, story_launch, removals_cons_of_isIdle ⟨rfl, rfl⟩, removals_story]
      · rw [launch_registry]
        rfl
  | skip => exact .nothing rfl rfl (Registry.claim_nextId _ _)
  | @call r rs rest _ p =>
      have halike := alike_hand r p (b.comeTo r rs).2
      refine .nothing ?_ ?_ ?_
      · rw [halike.trace, note_trace, outcomes_cons_of_none (outcome?_handed r p), comeTo_trace]
      · rw [halike.trace, note_trace, removals_handed, comeTo_trace]
      · rw [halike.registry, note_registry, comeTo_registry, Registry.claim_nextId]
  | land => exact .nothing rfl rfl rfl
  | remark l c o hc => exact .published c o hc rfl rfl rfl

/-! ## ids -/

/-- What becomes of the next id when a registration is asked for or not. -/
inductive Issuing (b : Switchboard σ ε) (id? : Option Nat) (b' : Switchboard σ ε) : Prop where
  | nothing (hid : id? = none) (hn : b'.registry.nextId = b.registry.nextId)
  /-- There was a live registration like it. -/
  | repeated (hr : r ∈ b.registry.live) (hid : id? = some r.id)
      (hn : b'.registry.nextId = b.registry.nextId)
  | made (hid : id? = some b.registry.nextId)
      (hn : b'.registry.nextId = b.registry.nextId + 1)

/-- An id that is given is the next one, or was given before. -/
theorem Registering.issuing {callback : Callback} {kind : Kind} {options : Option Options}
    {mode : Mode} {b b' b'' : Switchboard σ ε} {o : Except Failure Nat}
    (h : Registering S callback kind options mode b o b') (ha : Alike b' b'') {c : Command ε}
    (hc : c.mode?.isSome) : Issuing b (c.issued? (o.map .id : Outcome σ)) b'' := by
  obtain ⟨mode', hmode⟩ := Option.isSome_iff_exists.mp hc
  have hfailed (e : Failure) : c.issued? (.error e : Outcome σ) = none := by
    simp [Command.issued?, hmode]
  have hgiven (id : Nat) : c.issued? (.ok (.id id) : Outcome σ) = some id := by
    simp [Command.issued?, hmode]
  cases h with
  | unfit => exact .nothing (hfailed _) (by rw [ha.registry])
  | repeated _ hd =>
      exact .repeated (List.mem_of_find?_eq_some hd) (hgiven _) (by rw [ha.registry])
  | joined => exact .made (hgiven _) (by rw [ha.registry]; rfl)
  | started => exact .made (hgiven _) (by rw [ha.registry]; rfl)
  | refused => exact .nothing (hfailed _) (by rw [ha.registry, ask_registry])

/-- Removing gives out no id. -/
theorem nextId_perform_of_isRemoval (invoke : Invoke σ ε) (b : Switchboard σ ε) {a : Action ε}
    (ha : a.isRemoval = true) :
    (b.perform S invoke a).2.registry.nextId = b.registry.nextId := by
  rcases Action.removes_or_unknown ha with hremoves | ⟨event, listener, rfl, hevent⟩
  · rw [perform_removal S invoke hremoves, answered, withdraw_registry]
    rfl
  · rw [perform_unknown S invoke hevent]

/-- Moving the default slot uses up no id. -/
theorem Moving.nextId_eq {slot : Slot} {b b' : Switchboard σ ε} {o : Except Failure Unit}
    (h : Moving S slot b o b') : b'.registry.nextId = b.registry.nextId := by
  cases h with
  | outside | stayed => rfl
  | refused => rw [startAll_registry]
  | moved =>
      rw [stopAll_registry, relocated_registry]
      rfl

/-- A command that calls nobody. -/
theorem issuing_attempt (invoke : Invoke σ ε) (b : Switchboard σ ε) {c : Command ε}
    (hc : c.quiet = true) :
    Issuing b (c.issued? (b.attempt S invoke c).1) (b.attempt S invoke c).2 := by
  have hnothing (hmode : c.mode? = none)
      (hn : (b.attempt S invoke c).2.registry.nextId = b.registry.nextId) :
      Issuing b (c.issued? (b.attempt S invoke c).1) (b.attempt S invoke c).2 :=
    .nothing (Command.issued?_of_mode_none hmode _) hn
  unfold attempt at hnothing ⊢
  unfold Command.mode? at hnothing
  unfold Command.quiet at hc
  cases ha : c.action with
  | error e =>
      simp only [ha] at hnothing ⊢
      exact hnothing trivial trivial
  | ok a =>
      simp only [ha] at hc hnothing ⊢
      cases a with
      | on kind listener options mode =>
          exact (registering S _ _ _ _ b).issuing (.refl _) (by simp [Command.mode?, ha])
      | subscribe event listener options mode =>
          have hmode : c.mode? = some mode := by simp [Command.mode?, ha]
          simp only [perform, answered, subscribe]
          split
          · exact .nothing (by simp [Command.issued?, hmode, Except.map]) rfl
          · exact (registering S _ _ _ _ b).issuing (.refl _) (by simp [hmode])
      | channel name kind options =>
          simp only [perform, answered, openChannel_outcome]
          exact (registering S _ _ _ _ b).issuing (alike_openChannel name kind options b)
            (by simp [Command.mode?, ha])
      | off | unsubscribe | cancel => exact hnothing rfl (nextId_perform_of_isRemoval invoke b rfl)
      | setDefault slot => exact hnothing rfl (moving S slot b).nextId_eq
      | receive name => exact hnothing rfl (by rw [perform, (alike_receive name b).registry])
      | drop | validateSlot | listenerCount | compare | inspect | source => exact hnothing rfl rfl
      | publish | update => contradiction

/-- **The ids given out are those below the next one.** -/
theorem Reaches.mem_issued_iff {settings : SlotSettings} {source : σ} {b : Switchboard σ ε}
    (h : Reaches S (fresh settings source) b) {id : Nat} :
    id ∈ issued b.trace ↔ 0 < id ∧ id < b.registry.nextId := by
  induction h with
  | refl =>
      have hnothing : issued (fresh (ε := ε) settings source).trace = [] := rfl
      have hnext : (fresh (ε := ε) settings source).registry.nextId = 1 := rfl
      simp only [hnothing, hnext, List.not_mem_nil, false_iff]
      omega
  | @tail b b' hreach hstep ih =>
      cases hstep.completing with
      | nothing ho _ hn => rw [issued, answers_of_eq ho, ← issued, hn, ih]
      | published c o hc ho _ hn =>
          have hid := Command.issued?_of_mode_none (Command.mode?_of_not_quiet hc) o
          rw [issued, answers_of_cons ho, hid, ← issued, hn, ← ih]
          rfl
      | obeyed invoke c hc ho _ hg =>
          rw [issued, answers_of_cons ho, ← issued, hg, List.mem_append, ih]
          cases issuing_attempt (S := S) invoke b hc with
          | nothing hid hn => simp [hid, hn]
          | repeated hr hid hn =>
              have hknown : b.registry.Knows b.running.flatten _ := .inl hr
              have hpos := (Reaches.numbered hreach).2 _ hknown
              have hlt := (Reaches.inOrder hreach).1.lt_nextId hknown
              simp only [hid, hn, Option.toList_some, List.mem_singleton]
              omega
          | made hid hn =>
              have hpos := (Reaches.numbered hreach).1
              simp only [hid, hn, Option.toList_some, List.mem_singleton]
              omega

/-! ## removals -/

/-- How many registrations have been removed according to an answer. -/
def taken (c : Command ε) (o : Outcome σ) : Nat :=
  (c.counted? o).toList.sum + (c.cancelled? o).toList.length

/-- What is no removal takes nobody. -/
theorem taken_of_not_removal {c : Command ε} (hc : ∀ a, c.action = .ok a → a.isRemoval = false)
    (o : Outcome σ) : taken c o = 0 := by
  unfold taken Command.counted? Command.cancelled?
  cases ha : c.action with
  | error e => rfl
  | ok a =>
      have hremoval := hc a ha
      cases a <;> first | rfl | contradiction

/-- A removal that fails says of nobody that it was removed. -/
theorem taken_error (c : Command ε) (e : Failure) : taken c (.error e : Outcome σ) = 0 := by
  unfold taken Command.counted? Command.cancelled?
  cases c.action with
  | error e' => rfl
  | ok a => cases a <;> rfl

/-- The answer of a removal tells how much it has removed. -/
theorem taken_tally {c : Command ε} {a : Action ε} (hc : c.action = .ok a)
    (ha : ∃ r, a.removes r) {n : Nat} (hn : ∀ id, a = .cancel id → n ≤ 1) :
    taken c (.ok (a.tally n) : Outcome σ) = n := by
  obtain ⟨r, hr⟩ := ha
  unfold taken Command.counted? Command.cancelled?
  rw [hc]
  cases a with
  | off | unsubscribe => simp [Action.tally]
  | cancel id =>
      have hle := hn id rfl
      obtain rfl | rfl : n = 0 ∨ n = 1 := by omega
      · rfl
      · rfl
  | _ => contradiction

/-- There is at most one registration to cancel. -/
theorem length_removed_cancel_le_one {settings : SlotSettings} {source : σ}
    {b : Switchboard σ ε} (h : Reaches S (fresh settings source) b) (id : Nat) :
    (b.registry.withdraw ((Action.cancel id : Action ε).removes ·)).removed.length ≤ 1 := by
  have hcount : b.present.countP ((Action.cancel id : Action ε).removes ·) =
      (b.present.map (·.id)).count id := by
    rw [List.count_eq_countP, List.countP_map]
    refine List.countP_congr fun r _ => ?_
    simp only [decide_eq_true_eq, Function.comp_apply, beq_iff_eq]
    rfl
  rw [(h.removed_perm _).length_eq, ← List.countP_eq_length_filter, hcount]
  exact List.nodup_iff_count_le_one.mp h.nodup_present id

/-- A command that calls nobody and asks for no removal. -/
theorem removals_attempt_of_not_removes (invoke : Invoke σ ε) (b : Switchboard σ ε)
    {c : Command ε} (hc : c.quiet = true) (hn : ∀ r, ¬ c.removes r) :
    removals (b.attempt S invoke c).2.trace = removals b.trace := by
  rw [← removals_story]
  rcases (change_attempt invoke b hc).story_cases with ⟨hs, -⟩ | ⟨selected, hs, hstory, -⟩
  · rw [hs, removals_story]
  · have hnone : b.registry.withdraw selected = ⟨[], [], b.registry⟩ :=
      Registry.withdraw_of_none fun r _ => Bool.eq_false_iff.mpr fun hr => hn r ((hs r).mp hr)
    rw [hstory, hnone, removals_withdrawn, removals_story, List.nil_append]

/-- A command that asks for no removal is answered with none. -/
theorem taken_attempt_of_not_removes (invoke : Invoke σ ε) (b : Switchboard σ ε)
    {c : Command ε} (hn : ∀ r, ¬ c.removes r) : taken c (b.attempt S invoke c).1 = 0 := by
  cases ha : c.action with
  | error e =>
      simp only [attempt, ha]
      exact taken_error c e
  | ok a =>
      cases hremoval : a.isRemoval with
      | false =>
          refine taken_of_not_removal (fun a' ha' => ?_) _
          rw [ha] at ha'
          cases ha'
          exact hremoval
      | true =>
          simp only [attempt, ha]
          rcases Action.removes_or_unknown hremoval with ⟨r, hr⟩ | ⟨event, listener, rfl, hevent⟩
          · exact absurd ⟨a, ha, hr⟩ (hn r)
          · rw [perform_unknown S invoke hevent]
            exact taken_error c _

/-- A command that calls nobody. -/
theorem length_removals_attempt {settings : SlotSettings} {source : σ} {b : Switchboard σ ε}
    (h : Reaches S (fresh settings source) b) (invoke : Invoke σ ε) {c : Command ε}
    (hc : c.quiet = true) (hg : StopsGranted (b.attempt S invoke c).2.trace) :
    (removals (b.attempt S invoke c).2.trace).length =
      taken c (b.attempt S invoke c).1 + (removals b.trace).length := by
  by_cases hremoves : ∃ r, c.removes r
  · obtain ⟨r, a, ha, hr⟩ := hremoves
    have hattempt : b.attempt S invoke c =
        answered (fun removed => a.tally removed.length) (b.withdraw S (a.removes ·)) := by
      simp only [attempt, ha]
      exact perform_removal S invoke ⟨r, hr⟩ b
    rw [hattempt] at hg ⊢
    have hone : ∀ id, a = .cancel id →
        (b.registry.withdraw (a.removes ·)).removed.length ≤ 1 := by
      rintro id rfl
      exact length_removed_cancel_le_one h id
    have hanswer : (answered (fun removed => a.tally removed.length)
        (b.withdraw S (a.removes ·))).1 =
          .ok (a.tally (b.registry.withdraw (a.removes ·)).removed.length) := by
      rw [answered, withdraw_ok hg]
      rfl
    rw [hanswer, taken_tally ha ⟨r, hr⟩ hone, answered, removals_withdraw, List.length_append]
  · have hn : ∀ r, ¬ c.removes r := not_exists.mp hremoves
    rw [removals_attempt_of_not_removes invoke b hc hn, taken_attempt_of_not_removes invoke b hn,
      Nat.zero_add]

/-- **Together the answers of removals tell how much has been removed**, if the source
stops whatever it is asked to. -/
theorem Reaches.answers_eq_length_removals {settings : SlotSettings} {source : σ}
    {b : Switchboard σ ε} (h : Reaches S (fresh settings source) b) (hg : StopsGranted b.trace) :
    (counts b.trace).sum + (cancels b.trace).length = (removals b.trace).length := by
  induction h with
  | refl => rfl
  | @tail b b' hreach hstep ih =>
      have hbefore := ih (hg.of_suffix (Reaches.suffix (.single hstep)))
      cases hstep.completing with
      | nothing ho hr =>
          rw [counts, cancels, answers_of_eq ho, answers_of_eq ho, hr, ← hbefore]
          rfl
      | published c o hc ho hr =>
          have hzero : taken c o = 0 := by
            refine taken_of_not_removal (fun a ha => ?_) o
            cases hremoval : a.isRemoval with
            | false => rfl
            | true => simp [Command.quiet, ha, Action.quiet_of_isRemoval hremoval] at hc
          rw [taken] at hzero
          rw [counts, cancels, answers_of_cons ho, answers_of_cons ho, ← counts, ← cancels, hr,
            List.sum_append, List.length_append]
          omega
      | obeyed invoke c hc ho ht =>
          obtain ⟨e, he, htrace⟩ := ht
          have hsuffix : (b.attempt S invoke c).2.trace <:+ b'.trace := by
            rw [htrace]
            exact List.suffix_cons _ _
          have hlength := length_removals_attempt hreach invoke hc (hg.of_suffix hsuffix)
          rw [taken] at hlength
          rw [counts, cancels, answers_of_cons ho, answers_of_cons ho, ← counts, ← cancels, htrace,
            removals_cons_of_isIdle he, List.sum_append, List.length_append]
          omega

end Switchboard

end SlotWatch

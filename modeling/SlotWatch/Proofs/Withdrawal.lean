import SlotWatch.Proofs.Record

/-!
# SlotWatch.Proofs.Withdrawal

What the actions that remove registrations do, and what they answer.

1. Each removes whatever it asks to be removed, and answers with how many
   registrations that were (`perform_removal`).
2. What is removed are the selected ones among the live and the waiting registrations
   (`Registry.Orderly.removed_withdraw`).
3. A removal fails only when the source refuses a stop, and stands nevertheless
   (`refused_of_withdraw_error`).
-/

namespace SlotWatch

variable {σ ε : Type}

/-! ## actions that remove -/

/-- Whether an action is there to remove registrations. -/
def Action.isRemoval : Action ε → Bool
  | .off .. | .unsubscribe .. | .cancel _ => true
  | _ => false

/-- What such an action answers when it has removed so many registrations. -/
def Action.tally : Action ε → Nat → Reply σ
  | .cancel _, n => .flag (0 < n)
  | _, n => .count n

instance (r : Registration) : (a : Action ε) → Decidable (a.removes r)
  | .off kind listener =>
    inferInstanceAs (Decidable (r.kind = kind ∧ ∀ l ∈ listener, r.callback = .typed l kind))
  | .unsubscribe event listener =>
    inferInstanceAs (Decidable
      (Named.ofName? Kind event = some r.kind ∧ ∀ l ∈ listener, r.callback = .whole l))
  | .cancel id => inferInstanceAs (Decidable (r.id = id))
  | .on .. | .subscribe .. | .channel .. | .receive _ | .drop _ | .publish .. | .update ..
  | .setDefault _ | .validateSlot .. | .listenerCount _ | .compare .. | .inspect | .source _ =>
    isFalse id

theorem Action.quiet_of_isRemoval {a : Action ε} (ha : a.isRemoval = true) : a.quiet = true := by
  cases a <;> first | rfl | contradiction

/-- An action that is there to remove registrations asks for the removal of some, unless
it goes by the name of a kind that there is not. -/
theorem Action.removes_or_unknown {a : Action ε} (ha : a.isRemoval = true) :
    (∃ r, a.removes r) ∨
      ∃ event listener, a = .unsubscribe event listener ∧ Named.ofName? Kind event = none := by
  -- a registration of the kind, with a callback that is asked for
  let like (kind : Kind) (callback : Option Callback) : Registration :=
    { id := 0, kind, selector := none, observed := 0
      callback := callback.getD (.channel 0 kind), mode := .repeating }
  cases a with
  | off kind listener =>
      left
      refine ⟨like kind (listener.map (.typed · kind)), rfl, fun l hl => ?_⟩
      simp [like, hl]
  | unsubscribe event listener =>
      cases hk : Named.ofName? Kind event with
      | none => exact .inr ⟨event, listener, rfl, hk⟩
      | some kind =>
          left
          refine ⟨like kind (listener.map .whole), hk, fun l hl => ?_⟩
          simp [like, hl]
  | cancel id => exact .inl ⟨{ like .simState none with id }, rfl⟩
  | _ => contradiction

namespace Registry

/-- **What is removed** is what is live or waits and is selected. -/
theorem Orderly.removed_withdraw {g : Registry} {due : List Registration} (h : Orderly g due)
    (selected : Registration → Bool) :
    (g.withdraw selected).removed = (g.live ++ g.waiting).filter selected := by
  have hcancelled : g.waiting.filter (fun r => selected r &&
      (g.armed.filter fun id => !(g.live.filter selected).any (·.id == id)).contains r.id) =
      g.waiting.filter selected := by
    refine List.filter_congr fun r hr => ?_
    obtain ⟨hdue, hmode, harmed⟩ := h.mem_waiting.mp hr
    have hleft : selected r = true → ∀ s ∈ g.live, selected s = true → ¬ s.id = r.id :=
      fun _ s hs _ => h.ne_of_due hdue hmode hs
    simpa [harmed] using hleft
  rw [List.filter_append, ← hcancelled]
  rfl

/-- Where nothing is selected, nothing happens. -/
theorem withdraw_of_none {g : Registry} {selected : Registration → Bool}
    (hnone : ∀ r ∈ g.live ++ g.waiting, selected r = false) :
    g.withdraw selected = ⟨[], [], g⟩ := by
  have hlive : g.live.filter selected = [] :=
    List.filter_eq_nil_iff.mpr fun r hr => by simp [hnone r (List.mem_append_left _ hr)]
  have hlive' : g.live.filter (fun r => !selected r) = g.live :=
    List.filter_eq_self.mpr fun r hr => by simp [hnone r (List.mem_append_left _ hr)]
  have hwaiting (p : Registration → Bool) : g.waiting.filter (fun r => selected r && p r) = [] :=
    List.filter_eq_nil_iff.mpr fun r hr => by simp [hnone r (List.mem_append_right _ hr)]
  have hwaiting' : g.waiting.filter (fun r => !selected r) = g.waiting :=
    List.filter_eq_self.mpr fun r hr => by simp [hnone r (List.mem_append_right _ hr)]
  have harmed (ids : List Nat) : ids.filter (fun id => !([] : List Registration).any (·.id == id)) =
      ids := by
    simp
  simp only [withdraw, hlive, hlive', hwaiting, hwaiting', harmed, released]
  rfl

end Registry

namespace Switchboard

variable {S : Source σ ε}

theorem answered_answered {α β : Type} (f : α → β) (reply : β → Reply σ)
    (result : Except Failure α × Switchboard σ ε) :
    answered reply (result.1.map f, result.2) = answered (fun x => reply (f x)) result := by
  obtain ⟨_ | _, b⟩ := result <;> rfl

/-- **An action that removes** removes what it asks to be removed, and answers with the
number.  Only an action that names no kind asks for nothing (`removes_or_unknown`). -/
theorem perform_removal (S : Source σ ε) (invoke : Invoke σ ε) {a : Action ε}
    (ha : ∃ r, a.removes r) (b : Switchboard σ ε) :
    b.perform S invoke a =
      answered (fun removed => a.tally removed.length) (b.withdraw S (a.removes ·)) := by
  obtain ⟨r₀, hr₀⟩ := ha
  cases a with
  | off kind listener =>
      have hsel : (fun r : Registration =>
          r.kind == kind && (listener.map (Callback.typed · kind)).all (r.callback == ·)) =
          fun r => decide ((Action.off kind listener : Action ε).removes r) := by
        funext r
        rw [Bool.eq_iff_iff, decide_eq_true_eq]
        cases listener <;> simp [Action.removes]
      simp only [perform, remove, hsel]
      exact answered_answered _ _ _
  | unsubscribe event listener =>
      have hkind : Named.ofName? Kind event = some r₀.kind := hr₀.1
      have hsel : (fun r : Registration =>
          r.kind == r₀.kind && (listener.map Callback.whole).all (r.callback == ·)) =
          fun r => decide ((Action.unsubscribe event listener : Action ε).removes r) := by
        funext r
        rw [Bool.eq_iff_iff, decide_eq_true_eq]
        cases listener <;> simp [Action.removes, hkind, eq_comm (a := r₀.kind)]
      simp only [perform, unsubscribe, hkind, remove, hsel]
      exact answered_answered _ _ _
  | cancel id =>
      have hsel : (fun r : Registration => r.id == id) =
          fun r => decide ((Action.cancel id : Action ε).removes r) := by
        funext r
        rw [Bool.eq_iff_iff, decide_eq_true_eq, beq_iff_eq]
        rfl
      have htally : (fun removed : List Registration => (Reply.flag (!removed.isEmpty) : Reply σ)) =
          fun removed => (Action.cancel id : Action ε).tally removed.length := by
        funext removed
        cases removed <;> simp [Action.tally]
      rw [← htally]
      simp only [perform, cancel, hsel]
      exact answered_answered _ _ _
  | _ => contradiction

/-- Nothing is removed from a kind that does not exist. -/
theorem perform_unknown (S : Source σ ε) (invoke : Invoke σ ε) {event : String}
    (hevent : Named.ofName? Kind event = none) (listener : Option String) (b : Switchboard σ ε) :
    b.perform S invoke (.unsubscribe event listener) = (.error (.unknownEvent event), b) := by
  simp [perform, unsubscribe, hevent, answered, Except.map]

/-- Whoever a removal takes out is on the record. -/
theorem removals_withdraw (S : Source σ ε) (selected : Registration → Bool)
    (b : Switchboard σ ε) :
    removals (b.withdraw S selected).2.trace =
      (b.registry.withdraw selected).removed ++ removals b.trace := by
  rw [← removals_story, story_withdraw, removals_withdrawn, removals_story]

/-- A removal calls nobody. -/
theorem calls_withdraw (S : Source σ ε) (selected : Registration → Bool) (b : Switchboard σ ε) :
    calls (b.withdraw S selected).2.trace = calls b.trace := by
  rw [← calls_story, story_withdraw, calls_withdrawn, calls_story]

/-! ## removals that fail -/

/-- Stopping fails with the first refusal, and then nothing more is asked. -/
theorem refused_of_stopAll_error {fs : List Feed} {b : Switchboard σ ε} {e : Failure}
    (h : (b.stopAll S fs).1 = .error e) :
    ∃ feed ∈ fs, (b.stopAll S fs).2.trace.head? = some (.asked .stop feed (.error e)) := by
  induction fs generalizing b with
  | nil => contradiction
  | cons f fs ih =>
      cases ha : (b.ask S .stop f).1 with
      | ok u =>
          rw [stopAll_cons_of_ok S ha] at h ⊢
          obtain ⟨feed, hfeed, htrace⟩ := ih h
          exact ⟨feed, List.mem_cons_of_mem f hfeed, htrace⟩
      | error e' =>
          rw [stopAll_cons_of_error S ha] at h ⊢
          cases h
          exact ⟨f, List.mem_cons_self, by rw [ask_trace, ha, List.head?_cons]⟩

/-- A removal fails with the refusal of a stop that it has asked for. -/
theorem refused_of_withdraw_error {selected : Registration → Bool} {b : Switchboard σ ε}
    {e : Failure} (h : (b.withdraw S selected).1 = .error e) :
    ∃ feed ∈ (b.registry.withdraw selected).released,
      (b.withdraw S selected).2.trace.head? = some (.asked .stop feed (.error e)) := by
  rw [withdraw_eq] at h ⊢
  cases hstop : ((b.struck selected).stopAll S (b.registry.withdraw selected).released).1 with
  | ok u => rw [hstop] at h; contradiction
  | error e' =>
      rw [hstop] at h
      cases h
      exact refused_of_stopAll_error hstop

/-- A removal that succeeds answers with whom it has removed. -/
theorem removed_of_withdraw_ok {selected : Registration → Bool} {b : Switchboard σ ε}
    {removed : List Registration} (h : (b.withdraw S selected).1 = .ok removed) :
    removed = (b.registry.withdraw selected).removed := by
  rw [withdraw_eq] at h
  cases hstop : ((b.struck selected).stopAll S (b.registry.withdraw selected).released).1 with
  | ok u => rw [hstop] at h; cases h; rfl
  | error e => rw [hstop] at h; contradiction

/-- A removal succeeds if the source stops whatever it is asked to. -/
theorem withdraw_ok {selected : Registration → Bool} {b : Switchboard σ ε}
    (hg : StopsGranted (b.withdraw S selected).2.trace) :
    (b.withdraw S selected).1 = .ok (b.registry.withdraw selected).removed := by
  cases h : (b.withdraw S selected).1 with
  | ok removed => rw [removed_of_withdraw_ok h]
  | error e =>
      obtain ⟨feed, -, hhead⟩ := refused_of_withdraw_error h
      have hrefused := hg _ (List.mem_of_head? hhead)
      contradiction

end Switchboard

end SlotWatch

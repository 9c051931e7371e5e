import SlotWatch.Proofs.Marks
import SlotWatch.Proofs.Record

/-!
# SlotWatch.Proofs.OneShot

A one-shot is called at most once.

An id that a command has returned for a one-shot (`MadeOneShot`) stands for a one-shot
from then on: whatever is live, due or has been called under the id is one.  And the record
says that a one-shot, once called, is neither called nor removed any more.
-/

namespace SlotWatch

variable {σ ε : Type}

/-- How long the registration lasts that a command asks for. -/
def Command.mode? (c : Command ε) : Option Mode :=
  match c.action with
  | .ok (.on _ _ _ mode) => some mode
  | .ok (.subscribe _ _ _ mode) => some mode
  | .ok (.channel ..) => some .repeating
  | _ => none

/-- A command for a registration calls nobody. -/
theorem Command.quiet_of_mode {c : Command ε} {mode : Mode} (h : c.mode? = some mode) :
    c.quiet = true := by
  unfold Command.mode? at h
  unfold Command.quiet
  split at h <;> simp_all [Action.quiet]

/-- Whether a command has been completed that asked for a one-shot and was given the id. -/
def MadeOneShot (id : Nat) (trace : List (Event σ ε)) : Prop :=
  ∃ l c, Event.did l c (.ok (.id id)) ∈ trace ∧ c.mode? = some .oneShot

namespace Switchboard

variable {S : Source σ ε}

/-! ## the registration that a command makes -/

/-- A registration that has been made is live. -/
theorem Registering.live_of_ok {callback : Callback} {kind : Kind} {options : Option Options}
    {mode : Mode} {b b' : Switchboard σ ε} {o : Except Failure Nat} {id : Nat}
    (h : Registering S callback kind options mode b o b') (ho : o = .ok id) :
    ∃ r ∈ b'.registry.live,
      r.id = id ∧ r.kind = kind ∧ r.callback = callback ∧ r.mode = mode := by
  cases h with
  | unfit | refused => contradiction
  | repeated _ hd =>
      cases ho
      have hlike := List.find?_some hd
      simp only [Bool.and_eq_true, beq_iff_eq] at hlike
      exact ⟨_, List.mem_of_find?_eq_some hd, rfl, hlike.1.1.1, hlike.1.2, hlike.2⟩
  | joined | started =>
      cases ho
      exact ⟨_, Registry.mem_live_add.mpr (.inr rfl), rfl, rfl, rfl, rfl⟩

/-- The id that is given is that of a live registration of the mode that was asked for. -/
theorem live_of_answered_register {callback : Callback} {kind : Kind}
    {options : Option Options} {mode : Mode} {b : Switchboard σ ε} {id : Nat}
    (h : (answered (σ := σ) .id (b.register S callback kind options mode)).1 = .ok (.id id)) :
    ∃ r ∈ (b.register S callback kind options mode).2.registry.live,
      r.id = id ∧ r.mode = mode := by
  have hregister := registering S callback kind options mode b
  unfold answered at h
  cases ho : (b.register S callback kind options mode).1 with
  | error e =>
      rw [ho] at h
      contradiction
  | ok n =>
      rw [ho] at h
      cases h
      obtain ⟨r, hr, hid, -, -, hmode⟩ := hregister.live_of_ok ho
      exact ⟨r, hr, hid, hmode⟩

/-- What is asked for as a one-shot is a live one-shot when its id is returned. -/
theorem live_of_attempt {invoke : Invoke σ ε} {b : Switchboard σ ε} {c : Command ε} {id : Nat}
    (hc : c.mode? = some .oneShot) (h : (b.attempt S invoke c).1 = .ok (.id id)) :
    ∃ r ∈ (b.attempt S invoke c).2.registry.live, r.id = id ∧ r.mode = .oneShot := by
  unfold Command.mode? at hc
  unfold attempt at h ⊢
  split at hc
  · next kind listener options mode ha =>
      cases hc
      rw [ha] at h ⊢
      exact live_of_answered_register h
  · next event listener options mode ha =>
      cases hc
      rw [ha] at h ⊢
      simp only [perform, subscribe] at h ⊢
      split at h
      · contradiction
      · exact live_of_answered_register h
  · contradiction
  · contradiction

/-! ## from the completed command on -/

/-- A command that calls nobody was put on the trace before the last step, or the step was to carry
it out. -/
theorem Advance.obeyed {b b' : Switchboard σ ε} (h : Advance S b b') {l : Option String}
    {c : Command ε} (hc : c.quiet = true) {o : Outcome σ} {t : List (Event σ ε)}
    (hs : (.did l c o :: t) <:+ b'.trace) :
    (.did l c o :: t) <:+ b.trace ∨ ∃ invoke, b' = (b.obey S invoke l c).2 ∧
      (b.obey S invoke l c).1 = o ∧ b'.trace = .did l c o :: t := by
  cases h with
  | obey invoke l' c' hc' =>
      rcases List.suffix_cons_iff.mp hs with heq | hs
      · cases heq
        exact .inr ⟨invoke, rfl, rfl, rfl⟩
      · exact .inl ((change_attempt invoke b hc').silent rfl hs)
  | report slot p => exact .inl (silent_report slot p b rfl hs)
  | launch slot hp => exact .inl (silent_launch _ slot _ b rfl hs)
  | skip | land => exact .inl hs
  | @call r rs rest _ p =>
      rw [(alike_hand r p _).trace, note_trace, comeTo_trace] at hs
      refine .inl ((List.suffix_cons_iff.mp hs).resolve_left fun heq => ?_)
      have hcalled := called?_handed (σ := σ) (ε := ε) r p
      rw [← (List.cons.inj heq).1] at hcalled
      contradiction
  | remark l' c' o' hc' =>
      rcases List.suffix_cons_iff.mp hs with heq | hs
      · cases heq
        rw [hc] at hc'
        contradiction
      · exact .inl hs

/-- A command that calls nobody was completed before the last step or by it. -/
theorem Advance.mem_or_obey {b b' : Switchboard σ ε} (h : Advance S b b') {l : Option String}
    {c : Command ε} {o : Outcome σ} (he : Event.did l c o ∈ b'.trace) (hc : c.quiet = true) :
    Event.did l c o ∈ b.trace ∨
      ∃ invoke, b' = (b.obey S invoke l c).2 ∧ o = (b.attempt S invoke c).1 := by
  obtain ⟨later, earlier, htrace⟩ := List.append_of_mem he
  rcases h.obeyed hc ⟨later, htrace.symm⟩ with hs | ⟨invoke, hb', ho, -⟩
  · exact .inl (hs.subset List.mem_cons_self)
  · exact .inr ⟨invoke, hb', ho.symm⟩

/-- An id that has been given for a one-shot stands for one. -/
theorem stands_of_made {settings : SlotSettings} {source : σ} {id : Nat}
    {b : Switchboard σ ε} (h : Reaches S (fresh settings source) b)
    (hid : MadeOneShot id b.trace) :
    ∃ r : Registration, r.mode = .oneShot ∧
      Stands id r.terms b.registry b.running.flatten (story b.trace) := by
  induction h with
  | refl =>
      obtain ⟨_, _, hdid, _⟩ := hid
      contradiction
  | @tail b _ hreach hstep ih =>
      obtain ⟨l, c, hdid, hc⟩ := hid
      rcases hstep.mem_or_obey hdid (Command.quiet_of_mode hc) with hdid | ⟨invoke, rfl, ho⟩
      · obtain ⟨r, hmode, hstands⟩ := ih ⟨l, c, hdid, hc⟩
        exact ⟨r, hmode, (upheld_stands id r.terms).kept.advance hstep hstands⟩
      · obtain ⟨r, hr, rfl, hmode⟩ := live_of_attempt hc ho.symm
        have hafter : Reaches S (fresh settings source) (b.obey S invoke l c).2 :=
          hreach.tail hstep
        exact ⟨r, hmode, hafter.inOrder.stands (.inl hr)⟩

/-! ## at most once -/

variable {id : Nat} {s : Registration} {g : Registry} {due : List Registration}
  {story : List (Event σ ε)}

/-- After its call nothing goes by the id of a one-shot. -/
theorem Stands.ne_of_called (h : Stands id s.terms g due story) (hmode : s.mode = .oneShot)
    (ho : InOrder g due story) {c r : Registration} (hc : c ∈ calls story) (hcid : c.id = id)
    (hr : g.Knows due r) : r.id ≠ id := by
  intro hid
  have hrepeating := (ho.2.known_call hr hc (hcid.trans hid.symm)).2
  rw [Registration.mode_eq_of_terms_eq (h.known hr hid), hmode] at hrepeating
  contradiction

/-- A one-shot that was called is not called again, so it was called once at most. -/
theorem Stands.countP_calls_le_one (h : Stands id s.terms g due story)
    (hmode : s.mode = .oneShot) (ho : InOrder g due story) :
    (calls story).countP (·.id == id) ≤ 1 := by
  have hpairwise : (calls story).Pairwise fun r c => c.mode = .oneShot → r.id ≠ c.id := by
    refine List.Pairwise.filterMap _ (fun later earlier hapart r hr c hc hc' => ?_) ho.2.apart
    exact (hapart c hc hc').1 r hr
  have hcalled : ∀ c ∈ (calls story).filter (·.id == id), c.id = id ∧ c.mode = .oneShot := by
    intro c hc
    obtain ⟨hc, hid⟩ := List.mem_filter.mp hc
    rw [beq_iff_eq] at hid
    exact ⟨hid, (Registration.mode_eq_of_terms_eq (h.called hc hid)).trans hmode⟩
  have hfilter := hpairwise.filter (·.id == id)
  rw [List.countP_eq_length_filter]
  generalize (calls story).filter (·.id == id) = called at hcalled hfilter ⊢
  match called, hcalled, hfilter with
  | [], _, _ => exact Nat.zero_le 1
  | [_], _, _ => exact Nat.le_refl 1
  | r :: c :: _, hcalled, hfilter =>
      obtain ⟨hcid, hc⟩ := hcalled c (by simp)
      have hne := (List.pairwise_cons.mp hfilter).1 c List.mem_cons_self hc
      exact absurd ((hcalled r List.mem_cons_self).1.trans hcid.symm) hne

/-- **A one-shot is called at most once**, however many publishes it is for, and from
its call on it is neither live nor among what is removed. -/
theorem oneShot_called_once {react : React σ ε} {limit : Nat} {cs : List (Command ε)}
    {settings : SlotSettings} {source : σ} {m : Switchboard σ ε}
    (h : Moment S react limit cs (fresh settings source) m) {id : Nat}
    (hid : MadeOneShot id m.trace) :
    (calls m.trace).countP (·.id == id) ≤ 1 ∧
      ∀ later e earlier c, m.trace = later ++ e :: earlier → e.called? = some c → c.id = id →
        (∀ r ∈ m.registry.live, r.id ≠ id) ∧
        (∀ r ∈ removals later, r.id ≠ id) ∧
        ∀ selected, ∀ r ∈ (m.registry.withdraw selected).removed, r.id ≠ id := by
  have horder := inOrder_moment h
  obtain ⟨s, hmode, hstands⟩ := stands_of_made h.reaches hid
  refine ⟨?_, fun later e earlier c htrace he hcid => ?_⟩
  · rw [← calls_story]
    exact hstands.countP_calls_le_one hmode horder
  have hrequest : e.isRequest = false := by cases e <;> first | rfl | contradiction
  have hstory : story m.trace = story later ++ e :: story earlier := by
    rw [htrace, story, List.filter_append, ← story, ← story, story_cons hrequest]
  have hc : c ∈ calls (story m.trace) := by
    rw [hstory]
    exact List.mem_filterMap.mpr ⟨e, by simp, he⟩
  have hgone : ∀ {r}, m.registry.Knows m.running.flatten r → r.id ≠ id :=
    fun hr => hstands.ne_of_called hmode horder hc hcid hr
  refine ⟨fun r hr => hgone (.inl hr), fun r hr => ?_, fun selected r hr => ?_⟩
  · rw [← removals_story] at hr
    obtain ⟨e', he', hr⟩ := List.mem_flatMap.mp hr
    have hapart := horder.2.apart
    rw [hstory, List.pairwise_append] at hapart
    have hcmode := Registration.mode_eq_of_terms_eq (hstands.called hc hcid)
    rw [← hcid]
    exact (hapart.2.2 e' he' e List.mem_cons_self c he (hcmode.trans hmode)).2 r hr
  · exact hgone (horder.1.knows_of_mem_removed hr)

/-- The inner listener is a one-shot, and is being called. -/
theorem oneShot_called_once_nested :
    Moment Bench.source Sample.react 2 (Sample.registrations ++ [Sample.publication])
        (fresh Sample.settings Sample.bench) Sample.nested ∧
      MadeOneShot Sample.inner.id Sample.nested.trace ∧
      (calls Sample.nested.trace).countP (·.id == Sample.inner.id) ≤ 1 :=
  have hid : MadeOneShot Sample.inner.id Sample.nested.trace :=
    ⟨none, Sample.ask (.on .callForwarding "inner" none .oneShot),
      List.mem_of_getElem? (i := 5) rfl, rfl⟩
  ⟨Sample.moment_nested, hid, (oneShot_called_once Sample.moment_nested hid).1⟩

end Switchboard

end SlotWatch

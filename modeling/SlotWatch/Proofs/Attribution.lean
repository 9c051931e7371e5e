import SlotWatch.Proofs.Answers
import SlotWatch.Proofs.Shape

/-!
# SlotWatch.Proofs.Attribution

For which kind an id has been given out, read off the trace (`givenFor`).

1. The id of a live registration has been given out for the kind of the registration
   (`Reaches.mem_givenFor_of_live`), and no id is given out for two kinds
   (`Reaches.kind_eq_of_given`).
2. So the ids of a kind can be numbered from one on, in their order (`renumbered`): these are
   the ids that they would be if there were no other kinds.  No two of them get the same number,
   nor one that is no id (`Reaches.renumbered_injOn`).
-/

namespace SlotWatch

variable {σ ε : Type}

/-! ## the kind of an action -/

/-- The kind that an action makes, removes or calls registrations of. -/
def Action.kind? : Action ε → Option Kind
  | .on kind .. => some kind
  | .off kind _ => some kind
  | .subscribe event .. => Named.ofName? Kind event
  | .unsubscribe event _ => Named.ofName? Kind event
  | .channel _ kind _ => some kind
  | .publish kind .. => some kind
  | _ => none

def Command.kind? (c : Command ε) : Option Kind :=
  match c.action with
  | .ok a => a.kind?
  | .error _ => none

/-- A registration that is asked for is of the kind of the action. -/
theorem Action.kind?_of_bid {a : Action ε} {channel : Nat} {bid : Bid}
    (h : a.bid? channel = some bid) : a.kind? = some bid.kind := by
  cases a with
  | on | channel =>
      cases h
      rfl
  | subscribe event listener options mode =>
      obtain ⟨kind, hkind, rfl⟩ := Option.map_eq_some_iff.mp h
      exact hkind
  | _ => contradiction

/-! ## ids on a trace -/

/-- An id is given to whoever has asked for a registration and succeeds. -/
theorem Command.issued?_eq_some_iff {c : Command ε} {o : Outcome σ} {id : Nat} :
    c.issued? o = some id ↔ c.mode?.isSome ∧ o = .ok (.id id) := by
  unfold Command.issued?
  cases c.mode? with
  | none => simp
  | some mode =>
      cases o with
      | error e => simp
      | ok reply => cases reply <;> simp

/-- An answer is read off the outcome of some command. -/
theorem mem_answers {read : Command ε → Outcome σ → Option Nat} {trace : List (Event σ ε)}
    {n : Nat} :
    n ∈ answers read trace ↔ ∃ l c o, Event.did l c o ∈ trace ∧ read c o = some n := by
  unfold answers outcomes
  rw [List.filterMap_filterMap, List.mem_filterMap]
  constructor
  · rintro ⟨e, he, hread⟩
    cases e with
    | did l c o => exact ⟨l, c, o, he, hread⟩
    | _ => contradiction
  · rintro ⟨l, c, o, he, hread⟩
    exact ⟨_, he, hread⟩

/-- The ids that were given out for registrations of a kind, latest first. -/
def givenFor (kind : Kind) (trace : List (Event σ ε)) : List Nat :=
  answers (fun c o => if c.kind? = some kind then c.issued? o else none) trace

/-- An id is given out for a kind by a command about the kind. -/
theorem mem_givenFor {kind : Kind} {trace : List (Event σ ε)} {id : Nat} :
    id ∈ givenFor kind trace ↔
      ∃ l c, .did l c (.ok (.id id)) ∈ trace ∧ c.mode?.isSome ∧ c.kind? = some kind := by
  rw [givenFor, mem_answers]
  constructor
  · rintro ⟨l, c, o, he, hread⟩
    by_cases hkind : c.kind? = some kind
    · rw [if_pos hkind] at hread
      obtain ⟨hmode, rfl⟩ := Command.issued?_eq_some_iff.mp hread
      exact ⟨l, c, he, hmode, hkind⟩
    · rw [if_neg hkind] at hread
      contradiction
  · rintro ⟨l, c, he, hmode, hkind⟩
    refine ⟨l, c, _, he, ?_⟩
    rw [if_pos hkind]
    exact Command.issued?_eq_some_iff.mpr ⟨hmode, rfl⟩

/-- An id is given out by a command for a registration. -/
theorem mem_issued {trace : List (Event σ ε)} {id : Nat} :
    id ∈ issued trace ↔ ∃ l c, .did l c (.ok (.id id)) ∈ trace ∧ c.mode?.isSome := by
  rw [issued, mem_answers]
  constructor
  · rintro ⟨l, c, o, he, hread⟩
    obtain ⟨hmode, rfl⟩ := Command.issued?_eq_some_iff.mp hread
    exact ⟨l, c, he, hmode⟩
  · rintro ⟨l, c, he, hmode⟩
    exact ⟨l, c, _, he, Command.issued?_eq_some_iff.mpr ⟨hmode, rfl⟩⟩

theorem issued_of_givenFor {kind : Kind} {trace : List (Event σ ε)} {id : Nat}
    (h : id ∈ givenFor kind trace) : id ∈ issued trace := by
  obtain ⟨l, c, he, hmode, -⟩ := mem_givenFor.mp h
  exact mem_issued.mpr ⟨l, c, he, hmode⟩

/-- What has been given out stays so. -/
theorem givenFor_of_suffix {kind : Kind} {t t' : List (Event σ ε)} (h : t <:+ t') {id : Nat}
    (hid : id ∈ givenFor kind t) : id ∈ givenFor kind t' := by
  obtain ⟨l, c, he, hrest⟩ := mem_givenFor.mp hid
  exact mem_givenFor.mpr ⟨l, c, h.subset he, hrest⟩

/-! ## ids and kinds -/

namespace Switchboard

variable {S : Source σ ε} {settings : SlotSettings} {source : σ} {b : Switchboard σ ε}

/-- What is live under an id is of the kind that the id was given out for. -/
theorem Reaches.kind?_of_live (h : Reaches S (fresh settings source) b) {l : Option String}
    {c : Command ε} {r : Registration} (hdid : .did l c (.ok (.id r.id)) ∈ b.trace)
    (hmode : c.mode?.isSome) (hr : r ∈ b.registry.live) : c.kind? = some r.kind := by
  cases hc : c.action with
  | error e => simp [Command.mode?, hc] at hmode
  | ok a =>
      obtain ⟨channel, bid, ha, s, hkind, -, hsigned⟩ := signed_of_given h hdid hc hmode
      have hterms := hsigned.met (.inl (.inl hr)) rfl
      rw [Command.kind?, hc]
      simp only [Action.kind?_of_bid ha, ← hkind, Registration.kind_eq_of_terms_eq hterms]

/-- The id of a live registration has been given out for its kind. -/
theorem Reaches.mem_givenFor_of_live (h : Reaches S (fresh settings source) b)
    {r : Registration} (hr : r ∈ b.registry.live) : r.id ∈ givenFor r.kind b.trace := by
  have hissued : r.id ∈ issued b.trace :=
    h.mem_issued_iff.mpr ⟨h.numbered.2 r (.inl hr), h.inOrder.1.lt_nextId (.inl hr)⟩
  obtain ⟨l, c, hdid, hmode⟩ := mem_issued.mp hissued
  exact mem_givenFor.mpr ⟨l, c, hdid, hmode, h.kind?_of_live hdid hmode hr⟩

/-- A command that is given an id has a live registration of its kind under the id. -/
theorem live_of_obey {invoke : Invoke σ ε} {l : Option String} {c : Command ε} {id : Nat}
    (hmode : c.mode?.isSome) (ho : (b.attempt S invoke c).1 = .ok (.id id)) :
    ∃ r ∈ (b.obey S invoke l c).2.registry.live, r.id = id ∧ c.kind? = some r.kind := by
  cases hc : c.action with
  | error e => simp [Command.mode?, hc] at hmode
  | ok a =>
      obtain ⟨channel, bid, ha, r, hr, hid, hkind, -⟩ := live_of_given (l := l) hc hmode ho
      refine ⟨r, hr, hid, ?_⟩
      rw [Command.kind?, hc, hkind]
      exact Action.kind?_of_bid ha

/-- Commands that were given the same id are about the same kind. -/
theorem Reaches.kind?_eq_of_did (h : Reaches S (fresh settings source) b) {id : Nat}
    {l l' : Option String} {c c' : Command ε} (hdid : .did l c (.ok (.id id)) ∈ b.trace)
    (hdid' : .did l' c' (.ok (.id id)) ∈ b.trace) (hmode : c.mode?.isSome)
    (hmode' : c'.mode?.isSome) : c.kind? = c'.kind? := by
  induction h with
  | refl => contradiction
  | @tail b _ hreach hstep ih =>
      -- The later of the two finds a live registration under the id, of the kind of the other.
      obtain ⟨mode, hm⟩ := Option.isSome_iff_exists.mp hmode
      obtain ⟨mode', hm'⟩ := Option.isSome_iff_exists.mp hmode'
      have hafter := hreach.tail hstep
      rcases hstep.mem_or_obey hdid (Command.quiet_of_mode hm) with hold | ⟨invoke, rfl, ho⟩
      · rcases hstep.mem_or_obey hdid' (Command.quiet_of_mode hm') with hold' | ⟨invoke, rfl, ho⟩
        · exact ih hold hold'
        · obtain ⟨r, hr, rfl, hkind⟩ := live_of_obey hmode' ho.symm
          rw [hkind, Reaches.kind?_of_live hafter hdid hmode hr]
      · obtain ⟨r, hr, rfl, hkind⟩ := live_of_obey hmode ho.symm
        rw [hkind, Reaches.kind?_of_live hafter hdid' hmode' hr]

/-- **No id is given out for two kinds.** -/
theorem Reaches.kind_eq_of_given (h : Reaches S (fresh settings source) b) {id : Nat}
    {kind kind' : Kind} (hid : id ∈ givenFor kind b.trace) (hid' : id ∈ givenFor kind' b.trace) :
    kind = kind' := by
  obtain ⟨l, c, hdid, hmode, hkind⟩ := mem_givenFor.mp hid
  obtain ⟨l', c', hdid', hmode', hkind'⟩ := mem_givenFor.mp hid'
  have hsame := h.kind?_eq_of_did hdid hdid' hmode hmode'
  rw [hkind, hkind', Option.some.injEq] at hsame
  exact hsame

end Switchboard

/-! ## numbering the ids of a kind -/

/-- How many ids below a number have been given out for a kind. -/
def givenBelow (kind : Kind) (trace : List (Event σ ε)) (n : Nat) : Nat :=
  (List.range n).countP (· ∈ givenFor kind trace)

section

variable {kind : Kind} {trace : List (Event σ ε)} {n : Nat}

/-- An id that was given out counts from the next number on. -/
theorem givenBelow_succ_of_given (h : n ∈ givenFor kind trace) :
    givenBelow kind trace (n + 1) = givenBelow kind trace n + 1 := by
  simp [givenBelow, List.range_succ, h]

theorem givenBelow_succ_of_not_given (h : n ∉ givenFor kind trace) :
    givenBelow kind trace (n + 1) = givenBelow kind trace n := by
  simp [givenBelow, List.range_succ, h]

/-- Below a higher number there are no fewer ids. -/
theorem givenBelow_mono (kind : Kind) (trace : List (Event σ ε)) {m n : Nat} (h : m ≤ n) :
    givenBelow kind trace m ≤ givenBelow kind trace n :=
  (List.range_sublist.mpr h).countP_le

end

/-- The place of an id among those that were given out for a kind, counted from one.  An id of
another kind has place 0, which is no id, and what is no id is left as it is. -/
def renumbered (kind : Kind) (trace : List (Event σ ε)) (id : Nat) : Nat :=
  if id ∈ givenFor kind trace then givenBelow kind trace id + 1
  else if id ∈ issued trace then 0
  else id

theorem renumbered_of_given {kind : Kind} {trace : List (Event σ ε)} {id : Nat}
    (h : id ∈ givenFor kind trace) : renumbered kind trace id = givenBelow kind trace id + 1 :=
  if_pos h

/-- Ids of the kind keep their order. -/
theorem renumbered_lt {kind : Kind} {trace : List (Event σ ε)} {id id' : Nat}
    (h : id ∈ givenFor kind trace) (h' : id' ∈ givenFor kind trace) (hlt : id < id') :
    renumbered kind trace id < renumbered kind trace id' := by
  rw [renumbered_of_given h, renumbered_of_given h', ← givenBelow_succ_of_given h]
  exact Nat.lt_succ_of_le (givenBelow_mono kind trace hlt)

namespace Switchboard

variable {S : Source σ ε} {settings : SlotSettings} {source : σ} {b : Switchboard σ ε}
  (h : Reaches S (fresh settings source) b) {kind : Kind} {id id' : Nat}
include h

/-- Ids are numbered from one on, so below the first there is none. -/
theorem Reaches.givenBelow_one (kind : Kind) : givenBelow kind b.trace 1 = 0 :=
  givenBelow_succ_of_not_given fun hzero =>
    Nat.lt_irrefl 0 (h.mem_issued_iff.mp (issued_of_givenFor hzero)).1

/-- Below a number fewer ids have been given out than there are numbers, as none is 0. -/
theorem Reaches.givenBelow_lt (kind : Kind) {n : Nat} (hn : 1 ≤ n) :
    givenBelow kind b.trace n < n := by
  induction n, hn using Nat.le_induction with
  | base =>
      rw [h.givenBelow_one]
      exact Nat.one_pos
  | succ n _ ih =>
      by_cases hgiven : n ∈ givenFor kind b.trace
      · rw [givenBelow_succ_of_given hgiven]
        exact Nat.succ_lt_succ ih
      · rw [givenBelow_succ_of_not_given hgiven]
        exact Nat.lt_succ_of_lt ih

/-- To leave some ids out lowers the others. -/
theorem Reaches.renumbered_le (hid : id ∈ givenFor kind b.trace) :
    renumbered kind b.trace id ≤ id := by
  rw [renumbered_of_given hid]
  exact h.givenBelow_lt kind (h.mem_issued_iff.mp (issued_of_givenFor hid)).1

/-- An id of the kind shares its number with no other number. -/
theorem Reaches.renumbered_eq_iff (hid : id ∈ givenFor kind b.trace) :
    renumbered kind b.trace id = renumbered kind b.trace id' ↔ id = id' := by
  refine ⟨fun heq => ?_, congrArg _⟩
  by_cases hid' : id' ∈ givenFor kind b.trace
  · rcases Nat.lt_trichotomy id id' with hlt | rfl | hlt
    · exact absurd heq (Nat.ne_of_lt (renumbered_lt hid hid' hlt))
    · rfl
    · exact absurd heq.symm (Nat.ne_of_lt (renumbered_lt hid' hid hlt))
  by_cases hissued : id' ∈ issued b.trace
  · rw [renumbered_of_given hid, renumbered, if_neg hid', if_pos hissued] at heq
    contradiction
  · -- What is no id comes after all ids, or is 0.
    have hplace : renumbered kind b.trace id' = id' := by
      rw [renumbered, if_neg hid', if_neg hissued]
    have hle := h.renumbered_le hid
    have hpos : 1 ≤ renumbered kind b.trace id := by
      rw [renumbered_of_given hid]
      exact Nat.le_add_left 1 _
    have hlt := (h.mem_issued_iff.mp (issued_of_givenFor hid)).2
    rw [heq, hplace] at hle hpos
    exact absurd (h.mem_issued_iff.mpr ⟨hpos, Nat.lt_of_le_of_lt hle hlt⟩) hissued

/-- No two numbers have the same place, other than ids of other kinds. -/
theorem Reaches.renumbered_injOn (kind : Kind) :
    Set.InjOn (renumbered kind b.trace)
      { id | id ∈ issued b.trace → id ∈ givenFor kind b.trace } := by
  intro id hid id' hid' heq
  by_cases hgiven : id ∈ givenFor kind b.trace
  · exact (h.renumbered_eq_iff hgiven).mp heq
  by_cases hgiven' : id' ∈ givenFor kind b.trace
  · exact ((h.renumbered_eq_iff hgiven').mp heq.symm).symm
  · simpa only [renumbered, if_neg hgiven, if_neg hgiven', if_neg (mt hid hgiven),
      if_neg (mt hid' hgiven')] using heq

end Switchboard

end SlotWatch

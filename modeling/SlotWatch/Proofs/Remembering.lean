import SlotWatch.Bench
import SlotWatch.Proofs.Cache

/-!
# SlotWatch.Proofs.Remembering

What a phone remembers is what it was told last.

1. A slot is known if there was an update of it, and what is known of it is, for each kind,
   the latest update by a payload of the kind (`Recalled`).
2. A report keeps it so, whether or not it says anything new (`Phone.recalled_report`).
3. Nothing but a report changes what a phone remembers.  `Source.Keeps` says so of sources in
   front of a phone; a phone is one (`Phone.source_keeps`), and so is a bench
   (`Bench.source_keeps`).
-/

namespace SlotWatch

variable {σ ε : Type}

/-! ## updates and what is known -/

/-- The latest update of a slot by payloads of a kind. -/
def latest (slot : Slot) (kind : Kind) (us : List (Slot × Payload)) : Option Payload :=
  (us.find? fun u => u.1 = slot ∧ u.2.kind = kind).map Prod.snd

namespace SlotState

/-- What is known of the slot by payloads of a kind. -/
def known (s : SlotState) : Kind → Option Payload
  | .networkState => s.network.map .networkState
  | .signalInfo => s.signals.map .signalInfo
  | .cellInfo => s.cells.map .cellInfo
  | .dataConnection => s.dataConnection.map .dataConnection
  | .dataFlow => s.dataFlow.map .dataFlow
  | .callState => s.call.map .callState
  | .callForwarding => s.callForwarding.map .callForwarding
  | .voiceMail => s.voiceMail.map .voiceMail
  | .simState => s.card.map .simState
  | .iccAccount => none

/-- Of an empty slot nothing is known. -/
theorem known_empty (kind : Kind) : ({} : SlotState).known kind = none := by
  cases kind <;> rfl

/-- A report is put where its kind is looked for, and nowhere else. -/
theorem known_put {q : Payload} (hq : q.kind ≠ .iccAccount) (s : SlotState) (time : Option String)
    (kind : Kind) :
    ({ s.put q with updatedAt := time } : SlotState).known kind =
      if q.kind = kind then some q else s.known kind := by
  cases q <;> cases kind <;> first | rfl | contradiction

end SlotState

/-- Whether what is known of a slot, if anything, is what the updates say. -/
def Recalled (us : List (Slot × Payload)) (slot : Slot) : Option SlotState → Prop
  | none => ∀ u ∈ us, u.1 ≠ slot
  | some s => (∃ u ∈ us, u.1 = slot) ∧ s.updatedAt.isSome ∧
      ∀ kind, s.known kind = latest slot kind us

/-- An update replaces the one of its slot and kind before it. -/
theorem latest_cons (slot t : Slot) (q : Payload) (kind : Kind) (us : List (Slot × Payload)) :
    latest t kind ((slot, q) :: us) =
      if slot = t ∧ q.kind = kind then some q else latest t kind us := by
  unfold latest
  rw [List.find?_cons]
  split <;> simp_all

namespace Recalled

variable {us : List (Slot × Payload)} {slot : Slot} {o : Option SlotState}

/-- What is known of a slot of which nothing was reported is nothing. -/
theorem known (h : Recalled us slot o) (kind : Kind) :
    (o.getD {}).known kind = latest slot kind us := by
  cases o with
  | none =>
      have hnone : latest slot kind us = none := by
        rw [latest, Option.map_eq_none_iff, List.find?_eq_none]
        intro u hu
        simp [h u hu]
      rw [hnone]
      exact SlotState.known_empty kind
  | some s => exact h.2.2 kind

/-- An update of another slot. -/
theorem of_ne (h : Recalled us slot o) {t : Slot} (ht : t ≠ slot) (q : Payload) :
    Recalled ((t, q) :: us) slot o := by
  cases o with
  | none => exact List.forall_mem_cons.mpr ⟨ht, h⟩
  | some s =>
      obtain ⟨⟨u, hu, hslot⟩, htime, hknown⟩ := h
      refine ⟨⟨u, List.mem_cons_of_mem _ hu, hslot⟩, htime, fun kind => ?_⟩
      rw [latest_cons, if_neg (fun h => ht h.1)]
      exact hknown kind

/-- An update of the slot is put. -/
theorem put (h : Recalled us slot o) {q : Payload} (hq : q.kind ≠ .iccAccount) (clock : String) :
    Recalled ((slot, q) :: us) slot
      (some { (o.getD {}).put q with updatedAt := some clock }) := by
  refine ⟨⟨_, List.mem_cons_self, rfl⟩, rfl, fun kind => ?_⟩
  rw [SlotState.known_put hq, latest_cons, h.known kind]
  simp

/-- An update of the slot says what was known. -/
theorem repeated {s : SlotState} (h : Recalled us slot (some s)) {q : Payload}
    (hq : s.known q.kind = some q) : Recalled ((slot, q) :: us) slot (some s) := by
  refine ⟨⟨_, List.mem_cons_self, rfl⟩, h.2.1, fun kind => ?_⟩
  rw [latest_cons]
  split
  · next heq => rw [← heq.2, hq]
  · exact h.2.2 kind

end Recalled

namespace Phone

/-- A report that says nothing new says what is known. -/
theorem known_of_repeats {phone : Phone} {slot : Slot} {q : Payload}
    (h : phone.repeats slot q = true) :
    ∃ s, phone.cache.lookup slot = some s ∧ s.known q.kind = some q := by
  cases q with
  | dataConnection d =>
      simp only [repeats, state, beq_iff_eq] at h
      cases hs : phone.cache.lookup slot with
      | none => simp [hs] at h
      | some s =>
          rw [hs, Option.getD_some] at h
          exact ⟨s, rfl, congrArg (Option.map Payload.dataConnection) h⟩
  | _ => contradiction

/-- **A report keeps recalled what was told last.** -/
theorem recalled_report {phone : Phone} {us : List (Slot × Payload)} (hs : phone.cache.Sorted)
    (h : ∀ t, Recalled us t (phone.cache.lookup t)) {q : Payload} (hq : q.kind ≠ .iccAccount)
    (slot t : Slot) :
    Recalled ((slot, q) :: us) t ((phone.report slot q).2.cache.lookup t) := by
  unfold report
  cases hrepeats : phone.repeats slot q with
  | true =>
      simp only [if_true]
      by_cases ht : slot = t
      · subst ht
        obtain ⟨s, hlookup, hknown⟩ := known_of_repeats hrepeats
        have hslot := h slot
        rw [hlookup] at hslot ⊢
        exact hslot.repeated hknown
      · exact (h t).of_ne ht q
  | false =>
      simp only [Bool.false_eq_true, if_false, remember, Cache.lookup_alter hs]
      by_cases ht : slot = t
      · subst ht
        rw [if_pos rfl]
        exact (h slot).put hq phone.clock
      · rw [if_neg (Ne.symm ht)]
        exact (h t).of_ne ht q

/-- Reports leave the slots ascending. -/
theorem sorted_report {phone : Phone} (h : phone.cache.Sorted) (slot : Slot) (q : Payload) :
    (phone.report slot q).2.cache.Sorted := by
  unfold report
  split
  · exact h
  · exact sorted_remember h slot q

/-- What is told of a report is of its kind. -/
theorem kind_of_report {phone : Phone} {slot : Slot} {q news : Payload}
    (h : (phone.report slot q).1 = some news) : news.kind = q.kind := by
  unfold report at h
  split at h
  · contradiction
  · cases h
    cases q <;> rfl

end Phone

/-! ## sources in front of a phone -/

/-- Whether a source reports to a phone, and does nothing else to what the phone remembers. -/
structure Source.Keeps (S : Source σ ε) (phone : σ → Phone) : Prop where
  news (slot : Slot) (p : Payload) (s : σ) :
    (S.report slot p s).1 = ((phone s).report slot p).1
  report (slot : Slot) (p : Payload) (s : σ) :
    phone (S.report slot p s).2 = ((phone s).report slot p).2
  answer (request : Request) (feed : Feed) (s : σ) :
    (phone (S.answer request feed s).2).cache = (phone s).cache
  act (request : ε) (s : σ) : (phone (S.act request s).2).cache = (phone s).cache

/-- To start and stop feeds tells the phone nothing. -/
theorem Phone.answer_cache (request : Request) (feed : Feed) (phone : Phone) :
    (Phone.source.answer request feed phone).2.cache = phone.cache := by
  cases request with
  | start =>
      show (phone.start feed).2.cache = _
      unfold Phone.start
      split
      · rfl
      · split <;> rfl
  | stop =>
      show (phone.stop feed).2.cache = _
      unfold Phone.stop
      split <;> rfl

/-- Permissions, the connection and the clock are no state of a slot. -/
theorem Phone.control_cache (c : Phone.Control) (phone : Phone) :
    (phone.control (σ := σ) c).2.cache = phone.cache := by
  cases c with
  | grant permission =>
      show (phone.grant permission).cache = _
      unfold Phone.grant
      split <;> rfl
  | request request feed =>
      cases request with
      | start => exact answer_cache .start feed phone
      | stop => exact answer_cache .stop feed phone
  | _ => rfl

/-- A phone is in front of itself. -/
theorem Phone.source_keeps : Phone.source.Keeps id where
  news _ _ _ := rfl
  report _ _ _ := rfl
  answer := answer_cache
  act := control_cache

/-- A bench passes reports on to its phone. -/
theorem Bench.source_keeps : Bench.source.Keeps Bench.phone where
  news _ _ _ := rfl
  report _ _ _ := rfl
  answer request feed b := by
    have hanswer : Bench.source.answer request feed b = b.answer request feed := by
      cases request <;> rfl
    rw [hanswer, Bench.answer]
    split
    · rfl
    split
    · rfl
    split
    · exact Phone.answer_cache request feed b.phone
    · rfl
  act c b := by
    cases c with
    | phone c => exact Phone.control_cache c b.phone
    | _ => rfl

end SlotWatch

import Mathlib.Data.List.Induction
import SlotWatch.Proofs.Reach

/-!
# SlotWatch.Proofs.Marks

No moment of a run is missing.  A call of a callback leaves a mark on the trace, and so
does a completed command.  Every mark on the trace of a run was put there at a moment of
the run: there is one whose trace ends with the mark.

The proof goes down the program: what a command, a publish and the moves of a listener
put on the trace is accounted for by the moments that occur in them (`Accounted`), at
each depth of nesting by those of the next.
-/

namespace SlotWatch

variable {σ ε : Type}

/-- Whether an event is the mark of a call or of a completed command. -/
def Event.isMark : Event σ ε → Bool
  | .delivered .. | .mismatched .. | .did .. => true
  | _ => false

theorem isMark_of_isRequest {e : Event σ ε} (h : e.isRequest = true) : e.isMark = false := by
  cases e <;> first | rfl | contradiction

/-- A mark that is below events that are none is on what they were put on. -/
theorem suffix_of_suffix_append {e : Event σ ε} (he : e.isMark = true)
    {t new old : List (Event σ ε)} (hnew : ∀ x ∈ new, x.isMark = false)
    (h : (e :: t) <:+ new ++ old) : (e :: t) <:+ old := by
  induction new with
  | nil => exact h
  | cons x new ih =>
      rcases List.suffix_cons_iff.mp h with heq | h
      · cases heq
        rw [hnew e List.mem_cons_self] at he
        contradiction
      · exact ih (fun y hy => hnew y (List.mem_cons_of_mem x hy)) h

namespace Switchboard

variable {S : Source σ ε}

/-! ## without marks -/

/-- Whether no mark is put on the trace on the way from `b` to `b'`. -/
def Silent (b b' : Switchboard σ ε) : Prop :=
  ∀ ⦃e t⦄, e.isMark = true → (e :: t) <:+ b'.trace → (e :: t) <:+ b.trace

/-- Where nothing happens no mark is made. -/
theorem Silent.of_trace_eq {b b' : Switchboard σ ε} (h : b'.trace = b.trace) : Silent b b' := by
  intro e t _ hs
  rwa [h] at hs

/-- It is enough to look at what is no request to the source. -/
theorem Silent.of_story {b b' : Switchboard σ ε} (new : List (Event σ ε))
    (hs : b.trace <:+ b'.trace) (hstory : story b'.trace = new ++ story b.trace)
    (hnew : ∀ x ∈ new, x.isMark = false) : Silent b b' := by
  obtain ⟨between, htrace⟩ := hs
  rw [← htrace, story, List.filter_append] at hstory
  have hbetween := List.append_cancel_right hstory
  intro e t he h
  rw [← htrace] at h
  refine suffix_of_suffix_append he (fun x hx => ?_) h
  cases hr : x.isRequest with
  | true => exact isMark_of_isRequest hr
  | false =>
      refine hnew x ?_
      rw [← hbetween]
      exact List.mem_filter.mpr ⟨hx, by simp [hr]⟩

/-- What calls nobody leaves no mark before its command is completed. -/
theorem Change.silent {removes : Registration → Prop} {b b' : Switchboard σ ε}
    (h : Change S removes b b') : Silent b b' := by
  cases h with
  | nothing _ h => exact .of_trace_eq h.trace
  | register callback kind _ _ h =>
      refine .of_story [] ?_ ?_ (List.forall_mem_nil _)
      · rw [h.trace]
        exact (registering S callback kind _ _ b).suffix
      · rw [h.trace, (registering S callback kind _ _ b).story_eq, List.nil_append]
  | @withdraw selected _ _ h =>
      refine .of_story [.withdrawn (b.registry.withdraw selected).removed] ?_ ?_ ?_
      · rw [h.trace]
        exact suffix_withdraw S selected b
      · rw [h.trace, story_withdraw, List.singleton_append]
      · simp [Event.isMark]
  | setDefault _ h =>
      refine .of_story [] ?_ ?_ (List.forall_mem_nil _)
      · rw [h.trace]
        exact (moving S _ b).suffix
      · rw [h.trace, (moving S _ b).story_eq, List.nil_append]

/-- The beginning of a publish leaves no mark. -/
theorem silent_launch (kind : Kind) (slot : Slot) (p : Payload) (b : Switchboard σ ε) :
    Silent b (b.launch S kind slot p) := by
  refine .of_story [.published kind slot p (b.audience kind slot)]
    (suffix_launch S kind slot p b) ?_ ?_
  · rw [story_launch, List.singleton_append]
  · simp [Event.isMark]

/-- Taking in an update leaves no mark. -/
theorem silent_report (slot : Slot) (p : Payload) (b : Switchboard σ ε) :
    Silent b (b.report S slot p).2 := by
  intro e t he h
  rcases List.suffix_cons_iff.mp h with heq | h
  · cases heq
    contradiction
  · exact h

/-! ## with marks -/

/-- Whether every mark that an activity puts on the trace, on the way from `b` to `b'`,
was put there at a moment that occurs in it. -/
def Accounted (S : Source σ ε) (react : React σ ε) (limit : Nat) (a : Activity ε)
    (b b' : Switchboard σ ε) : Prop :=
  ∀ ⦃e t⦄, e.isMark = true → (e :: t) <:+ b'.trace →
    (e :: t) <:+ b.trace ∨ ∃ m, Occurs S react limit a b m ∧ m.trace = e :: t

variable {react : React σ ε} {limit : Nat}

theorem Silent.accounted {b b' : Switchboard σ ε} (h : Silent b b') (a : Activity ε) :
    Accounted S react limit a b b' :=
  fun _ _ he hs => .inl (h he hs)

theorem Accounted.refl (a : Activity ε) (b : Switchboard σ ε) :
    Accounted S react limit a b b :=
  fun _ _ _ hs => .inl hs

/-- What a part of an activity puts on the trace after `b₁` is accounted for by the
activity, if all that occurs in the part does in the activity. -/
theorem Accounted.trans {a a' : Activity ε} {b b₁ b' : Switchboard σ ε} {n : Nat}
    (h : Accounted S react limit a b b₁) (h' : Accounted S react n a' b₁ b')
    (hoccurs : ∀ {m}, Occurs S react n a' b₁ m → Occurs S react limit a b m) :
    Accounted S react limit a b b' := by
  intro e t he hs
  rcases h' he hs with hs | ⟨m, hm, htrace⟩
  · exact h he hs
  · exact .inr ⟨m, hoccurs hm, htrace⟩

/-! ## down the program -/

/-- Whether what is put on the trace by calls at a depth of nesting is accounted for. -/
def Heard (S : Source σ ε) (react : React σ ε) (limit : Nat) : Prop :=
  ∀ p r rs b, (comeTo r rs b).1 = true →
    Accounted S react limit (.deliver p (r :: rs)) b
      (hear S react limit r p (comeTo r rs b).2).2

/-- The marks of a delivery are those of its turns. -/
theorem accounted_deliverAll (hheard : Heard S react limit) (p : Payload)
    (rs : List Registration) (b : Switchboard σ ε) :
    Accounted S react limit (.deliver p rs) b (deliverAll (hear S react limit) p rs b).2 := by
  induction rs generalizing b with
  | nil => exact .refl _ _
  | cons r rs ih =>
      have hturn : Accounted S react limit (.deliver p (r :: rs)) b
          (b.turn (hear S react limit) p r rs).2 := by
        cases ha : (b.comeTo r rs).1 with
        | true =>
            rw [turn_of_armed _ p ha]
            exact hheard p r rs b ha
        | false =>
            rw [turn_of_not_armed _ p ha]
            have hsilent : Silent b (b.comeTo r rs).2 := .of_trace_eq rfl
            exact hsilent.accounted _
      exact hturn.trans (ih _) .others

/-- The marks of a publish are those of its delivery. -/
theorem accounted_publish (hheard : Heard S react limit) (kind : Kind) (slot : Option Slot)
    (p : Payload) (b : Switchboard σ ε) :
    Accounted S react limit (.publish kind slot p) b
      (b.publish S (hear S react limit) kind slot p).2 := by
  unfold publish
  cases hp : b.checkPublish kind slot p with
  | error e => exact .refl _ _
  | ok u =>
      have hlaunch := silent_launch (S := S) kind (slot.getD b.registry.defaultSlot) p b
      exact (hlaunch.accounted _).trans (accounted_deliverAll hheard p _ _) (.delivering hp)

/-- The marks of an update are those of the publish of its news. -/
theorem accounted_update (hheard : Heard S react limit) {c : Command ε} {slot : Slot}
    {p : Payload} (hc : c.action = .ok (.update slot p)) (l : Option String)
    (b : Switchboard σ ε) :
    Accounted S react limit (.command l c) b (b.update S (hear S react limit) slot p).2 := by
  unfold update
  split
  · next hk =>
      exact Accounted.trans (.refl _ b) (accounted_publish hheard _ _ p b) (.announcing hc hk)
  · next hk =>
      split
      · exact .refl _ _
      · next hs =>
          have hreport := silent_report (S := S) slot p b
          split
          · next hn =>
              rw [hn] at hreport
              exact hreport.accounted _
          · next hn =>
              rw [hn] at hreport
              refine (hreport.accounted _).trans (accounted_publish hheard _ _ _ _) fun hm => ?_
              refine .updating hc hk hs (congrArg Prod.fst hn) ?_
              rwa [hn]

/-- The last mark of a command is its own. -/
theorem accounted_obey (hheard : Heard S react limit) (l : Option String) (c : Command ε)
    (b : Switchboard σ ε) :
    Accounted S react limit (.command l c) b (b.obey S (hear S react limit) l c).2 := by
  have hattempt : Accounted S react limit (.command l c) b
      (b.attempt S (hear S react limit) c).2 := by
    cases hc : c.quiet with
    | true => exact (change_attempt _ b hc).silent.accounted _
    | false =>
        unfold Command.quiet at hc
        unfold attempt
        split at hc
        · next a ha =>
            rw [ha]
            cases a with
            | publish kind slot p =>
                exact Accounted.trans (.refl _ b) (accounted_publish hheard kind slot p b)
                  (.publishing ha)
            | update slot p => exact accounted_update hheard ha l b
            | _ => contradiction
        · contradiction
  intro e t he hs
  rcases List.suffix_cons_iff.mp hs with heq | hs
  · exact .inr ⟨_, .completed limit l c b, heq.symm⟩
  · exact hattempt he hs

/-- The marks of a listener are those of its commands. -/
theorem accounted_moveAll (hheard : Heard S react limit) (l : Option String)
    (ms : List (Move ε)) (b : Switchboard σ ε) :
    Accounted S react limit (.moves l ms) b (b.moveAll S (hear S react limit) l ms).2 := by
  induction ms generalizing b with
  | nil => exact .refl _ _
  | cons m ms ih =>
      cases m with
      | panic => exact .refl _ _
      | command c =>
          have hfirst : Accounted S react limit (.moves l (.command c :: ms)) b
              (b.obey S (hear S react limit) l c).2 :=
            .trans (.refl _ b) (accounted_obey hheard l c b) .move
          exact hfirst.trans (ih _) .moves

/-- The mark of a call has the moment of the call. -/
theorem accounted_hand (p : Payload) {r : Registration} {rs : List Registration}
    {b : Switchboard σ ε} (ha : (b.comeTo r rs).1 = true) :
    Accounted S react limit (.deliver p (r :: rs)) b ((b.comeTo r rs).2.hand r p).2 := by
  intro e t he hs
  have htrace := (alike_hand r p (b.comeTo r rs).2).trace
  rw [htrace, note_trace, comeTo_trace] at hs
  rcases List.suffix_cons_iff.mp hs with heq | hs
  · exact .inr ⟨_, .called limit p rs ha, htrace.trans heq.symm⟩
  · exact .inl hs

/-- The marks of a call are its own and those of the listener who acts. -/
theorem heard (S : Source σ ε) (react : React σ ε) (limit : Nat) : Heard S react limit := by
  induction limit with
  | zero =>
      intro p r rs b ha
      have hhand : Accounted S react 0 (.deliver p (r :: rs)) b _ := accounted_hand p ha
      unfold hear handOver
      simp only
      split <;> exact hhand
  | succ limit ih =>
      intro p r rs b ha
      have hhand : Accounted S react (limit + 1) (.deliver p (r :: rs)) b _ :=
        accounted_hand p ha
      unfold hear handOver
      simp only
      split
      · next hl =>
          exact hhand.trans (accounted_moveAll ih _ _ _) (.acting ha hl)
      · exact hhand

/-- **Every call and every completed command of a run has its moment**: whenever the
latest event on the trace was the mark of one, there is a moment with that trace. -/
theorem moment_of_mark (limit : Nat) (cs : List (Command ε)) {settings : SlotSettings}
    {source : σ} {e : Event σ ε} {t : List (Event σ ε)} (he : e.isMark = true)
    (h : (e :: t) <:+ (run S react limit cs (fresh settings source)).trace) :
    ∃ m, Moment S react limit cs (fresh settings source) m ∧ m.trace = e :: t := by
  induction cs using List.reverseRecOn with
  | nil => exact absurd (List.suffix_nil.mp h) (List.cons_ne_nil e t)
  | append_singleton cs c ih =>
      rw [run_append] at h
      rcases accounted_obey (heard S react limit) none c _ he h with h | ⟨m, hm, htrace⟩
      · obtain ⟨m, hm, htrace⟩ := ih h
        exact ⟨m, hm.append [c], htrace⟩
      · exact ⟨m, .during cs c [] rfl hm, htrace⟩

end Switchboard

end SlotWatch

import SlotWatch.Proofs.Cascade

/-!
# SlotWatch.Proofs.Panics

A panic costs nothing but the rest of its own listener.

Two sets of listeners are compared that make the same moves up to where either panics
(`Alike`), so that one may return where the other panics.

1. How a call ends is not looked at, so two ways to call that leave the same boards behind
   (`SameAfter`) make every operation the same: one lemma for each layer of the program.
2. Such listeners leave the same boards behind, at every depth of nesting (`sameAfter_hear`).
3. Hence whole runs are the same, and so are the moments they go through (`Moment.alike`).
-/

namespace SlotWatch

variable {σ ε : Type}

/-- The moves of a listener before it panics, if it does. -/
def Move.beforePanic : List (Move ε) → List (Move ε)
  | .command c :: ms => .command c :: beforePanic ms
  | _ => []

namespace React

/-- The same listeners, but that the callbacks in `calm` return where they would panic. -/
def calmed (calm : Callback → Bool) (react : React σ ε) : React σ ε := fun r p b =>
  if calm r.callback then Move.beforePanic (react r p b) else react r p b

/-- Whether listeners make the same moves before they panic, if they do. -/
def Alike (react react' : React σ ε) : Prop :=
  ∀ r p b, Move.beforePanic (react r p b) = Move.beforePanic (react' r p b)

theorem Alike.symm {react react' : React σ ε} (h : Alike react react') : Alike react' react :=
  fun r p b => (h r p b).symm

end React

/-- Before a panic there is none. -/
@[simp] theorem Move.beforePanic_beforePanic (ms : List (Move ε)) :
    beforePanic (beforePanic ms) = beforePanic ms := by
  induction ms with
  | nil => rfl
  | cons m ms ih =>
      cases m with
      | command c => simp only [beforePanic, ih]
      | panic => rfl

/-- A listener that is calmed makes the same moves up to its panic. -/
theorem React.alike_calmed (calm : Callback → Bool) (react : React σ ε) :
    Alike (react.calmed calm) react := by
  intro r p b
  unfold calmed
  split
  · exact Move.beforePanic_beforePanic _
  · rfl

namespace Switchboard

variable {S : Source σ ε}

/-! ## how a call ends -/

/-- Whether two ways to call leave the same boards behind. -/
def SameAfter (i i' : Invoke σ ε) : Prop :=
  ∀ r p b, (i r p b).2 = (i' r p b).2

namespace SameAfter

variable {i i' : Invoke σ ε} (h : SameAfter i i') (b : Switchboard σ ε)
include h

/-- How a call ends makes no difference to the turn. -/
theorem turn (p : Payload) (r : Registration) (rs : List Registration) :
    b.turn i p r rs = b.turn i' p r rs := by
  unfold Switchboard.turn
  simp only [h r p]

/-- How the calls end makes no difference to those after them. -/
theorem deliverAll (p : Payload) (rs : List Registration) :
    Switchboard.deliverAll i p rs b = Switchboard.deliverAll i' p rs b := by
  induction rs generalizing b with
  | nil => rfl
  | cons r rs ih =>
      unfold Switchboard.deliverAll
      rw [h.turn]
      simp only [ih]

/-- How the calls end makes no difference to the count. -/
theorem publish (kind : Kind) (slot : Option Slot) (p : Payload) :
    b.publish S i kind slot p = b.publish S i' kind slot p := by
  unfold Switchboard.publish
  simp only [h.deliverAll]

theorem update (slot : Slot) (p : Payload) : b.update S i slot p = b.update S i' slot p := by
  unfold Switchboard.update
  simp only [h.publish]

theorem obey (l : Option String) (c : Command ε) : b.obey S i l c = b.obey S i' l c := by
  cases hc : c.quiet with
  | true => exact obey_of_quiet i i' l hc b
  | false =>
      have hattempt : b.attempt S i c = b.attempt S i' c := by
        unfold Command.quiet at hc
        unfold attempt
        cases ha : c.action with
        | error e => rfl
        | ok a =>
            simp only [ha] at hc ⊢
            cases a with
            | publish kind slot p => simp only [perform, h.publish]
            | update slot p => simp only [perform, h.update]
            | _ => contradiction
      unfold Switchboard.obey
      rw [hattempt]

/-- A listener that calls others does so in the same way, however these end. -/
theorem moveAll (l : Option String) (ms : List (Move ε)) :
    b.moveAll S i l ms = b.moveAll S i' l ms := by
  induction ms generalizing b with
  | nil => rfl
  | cons m ms ih =>
      cases m with
      | panic => rfl
      | command c =>
          unfold Switchboard.moveAll
          rw [h.obey]
          exact ih _

end SameAfter

/-! ## listeners that panic -/

/-- After a panic nothing is done any more, as after the last move. -/
theorem moveAll_beforePanic (i : Invoke σ ε) (l : Option String) (ms : List (Move ε))
    (b : Switchboard σ ε) :
    b.moveAll S i l (Move.beforePanic ms) = (.returned, (b.moveAll S i l ms).2) := by
  induction ms generalizing b with
  | nil => rfl
  | cons m ms ih =>
      cases m with
      | panic => rfl
      | command c => exact ih _

/-- **Listeners leave the same boards behind** if they make the same moves before they panic, at
every depth of nesting. -/
theorem sameAfter_hear {react react' : React σ ε} (h : React.Alike react react') (limit : Nat) :
    SameAfter (hear S react limit) (hear S react' limit) := by
  induction limit with
  | zero => exact fun _ _ _ => rfl
  | succ limit ih =>
      intro r p b
      have hmoves (c : Switchboard σ ε) :
          (c.moveAll S (hear S react limit) r.callback.listener? (react r p c)).2 =
            (c.moveAll S (hear S react' limit) r.callback.listener? (react' r p c)).2 := by
        -- either list does to the board what its moves before a panic do, and these are the same
        have hcalm := moveAll_beforePanic (S := S) (hear S react limit) r.callback.listener?
          (react r p c) c
        rw [h r p c, moveAll_beforePanic] at hcalm
        rw [← (Prod.mk.inj hcalm).2, ih.moveAll]
      simp only [hear, handOver]
      split
      · exact hmoves _
      · rfl

section

variable {react react' : React σ ε} (h : React.Alike react react') (limit : Nat)
include h

/-- A command from outside has the same outcome and leaves the same board behind. -/
theorem step_alike (c : Command ε) (b : Switchboard σ ε) :
    b.step S react limit c = b.step S react' limit c :=
  (sameAfter_hear h limit).obey b none c

/-- Commands from outside have the same outcomes, whether listeners panic or return. -/
theorem steps_alike (cs : List (Command ε)) (b : Switchboard σ ε) :
    steps S react limit cs b = steps S react' limit cs b := by
  induction cs generalizing b with
  | nil => rfl
  | cons c cs ih =>
      unfold steps
      simp only [step_alike h, ih]

theorem run_alike (cs : List (Command ε)) (b : Switchboard σ ε) :
    run S react limit cs b = run S react' limit cs b := by
  unfold run
  simp only [step_alike h]

end

/-! ## moments -/

/-- Whether two activities differ at most in what is done after a panic. -/
inductive SameUntilPanic : Activity ε → Activity ε → Prop where
  | refl (a : Activity ε) : SameUntilPanic a a
  | moves (l : Option String) (h : Move.beforePanic ms = Move.beforePanic ms') :
      SameUntilPanic (.moves l ms) (.moves l ms')

/-- Moves that begin with a command before any panic begin with the same command. -/
theorem exists_of_beforePanic_eq {c : Command ε} {ms ms' : List (Move ε)}
    (h : Move.beforePanic (.command c :: ms) = Move.beforePanic ms') :
    ∃ rest, ms' = .command c :: rest ∧ Move.beforePanic ms = Move.beforePanic rest := by
  match ms' with
  | .command c' :: rest =>
      obtain ⟨hc, hrest⟩ := List.cons.inj h
      cases hc
      exact ⟨rest, rfl, hrest⟩
  | [] | .panic :: _ => contradiction

/-- Whatever occurs in an activity occurs where listeners panic instead of returning. -/
theorem Occurs.alike {react react' : React σ ε} (h : React.Alike react react') {limit : Nat}
    {a a' : Activity ε} {b m : Switchboard σ ε} (ho : Occurs S react limit a b m)
    (ha : SameUntilPanic a a') : Occurs S react' limit a' b m := by
  induction ho generalizing a' with
  | completed limit l c b =>
      cases ha
      rw [(sameAfter_hear h limit).obey]
      exact .completed limit l c b
  | publishing hc _ ih =>
      cases ha
      exact .publishing hc (ih (.refl _))
  | announcing hc hk _ ih =>
      cases ha
      exact .announcing hc hk (ih (.refl _))
  | updating hc hk hs hn _ ih =>
      cases ha
      exact .updating hc hk hs hn (ih (.refl _))
  | delivering hp _ ih =>
      cases ha
      exact .delivering hp (ih (.refl _))
  | called limit p rs harmed =>
      cases ha
      exact .called limit p rs harmed
  | acting harmed hacts _ ih =>
      cases ha
      exact .acting harmed hacts (ih (.moves _ (h _ _ _)))
  | others _ ih =>
      cases ha
      refine .others ?_
      rw [← (sameAfter_hear h _).turn]
      exact ih (.refl _)
  | move _ ih =>
      cases ha with
      | refl => exact .move (ih (.refl _))
      | moves l hms =>
          obtain ⟨rest, rfl, -⟩ := exists_of_beforePanic_eq hms
          exact .move (ih (.refl _))
  | @moves limit l ms m c b _ ih =>
      -- the command is the same on both sides: what differs stands behind a panic
      have hrest {rest : List (Move ε)} (heq : Move.beforePanic ms = Move.beforePanic rest) :
          Occurs S react' limit (.moves l (.command c :: rest)) b m := by
        refine .moves ?_
        rw [← (sameAfter_hear h limit).obey]
        exact ih (.moves l heq)
      cases ha with
      | refl => exact hrest rfl
      | moves l hms =>
          obtain ⟨rest, rfl, heq⟩ := exists_of_beforePanic_eq hms
          exact hrest heq

/-- The moments of a run are the same, whether listeners panic or return. -/
theorem Moment.alike {react react' : React σ ε} (h : React.Alike react react') {limit : Nat}
    {cs : List (Command ε)} {b m : Switchboard σ ε} (hm : Moment S react limit cs b m) :
    Moment S react' limit cs b m := by
  cases hm with
  | start => exact .start
  | during before c after hcs ho =>
      rw [run_alike h] at ho
      exact .during before c after hcs (ho.alike h (.refl _))

/-- **A panic costs nothing but the rest of its own listener.**  Let any listeners, at every call
and every depth of nesting, return where they would panic.  Their calls end by returning, and

* every command from outside has the same outcome and leaves the same board behind: the same
  registrations, waiting one-shots and default slot, and the same trace, on which are all calls
  with what they were handed, all requests to the source, and the outcomes of what listeners did;
* every call and every completed command finds the board that it would have found, and there
  are no others. -/
theorem panic_costs_own_rest (S : Source σ ε) (react : React σ ε) (calm : Callback → Bool)
    (limit : Nat) (cs : List (Command ε)) (b : Switchboard σ ε) :
    (∀ r p m, calm r.callback = true →
      (hear S (react.calmed calm) limit r p m).1 = .returned) ∧
    steps S (react.calmed calm) limit cs b = steps S react limit cs b ∧
    run S (react.calmed calm) limit cs b = run S react limit cs b ∧
    ∀ m, Moment S (react.calmed calm) limit cs b m ↔ Moment S react limit cs b m := by
  have halike := React.alike_calmed calm react
  refine ⟨fun r p m hcalm => ?_, steps_alike halike limit cs b, run_alike halike limit cs b,
    fun m => ⟨.alike halike, .alike halike.symm⟩⟩
  cases limit <;> simp only [hear, handOver, React.calmed, hcalm, if_true, moveAll_beforePanic] <;>
    split <;> rfl

/-- A listener publishes and then panics; the one-shot that it reaches is called all the same. -/
theorem panic_costs_own_rest_nested :
    (hear Bench.source Sample.react 2 Sample.outer (.voiceMail true) Sample.ready).1 = .panicked ∧
      (hear Bench.source (Sample.react.calmed fun _ => true) 2 Sample.outer (.voiceMail true)
        Sample.ready).1 = .returned ∧
      run Bench.source (Sample.react.calmed fun _ => true) 2
          (Sample.registrations ++ [Sample.publication]) (fresh Sample.settings Sample.bench) =
        run Bench.source Sample.react 2 (Sample.registrations ++ [Sample.publication])
          (fresh Sample.settings Sample.bench) ∧
      Moment Bench.source (Sample.react.calmed fun _ => true) 2
        (Sample.registrations ++ [Sample.publication]) (fresh Sample.settings Sample.bench)
        Sample.nested :=
  have hcost := panic_costs_own_rest Bench.source Sample.react (fun _ => true) 2
    (Sample.registrations ++ [Sample.publication]) (fresh Sample.settings Sample.bench)
  ⟨rfl, hcost.1 _ _ _ rfl, hcost.2.2.1, (hcost.2.2.2 _).mpr Sample.moment_nested⟩

end Switchboard

end SlotWatch

import SlotWatch.Proofs.Advance

/-!
# SlotWatch.Proofs.Reach

Runs are made of steps.  Whatever is done on a switchboard is a number of steps after
which the publishes in progress are those from before (`Settles`): calls of callbacks,
publishes, commands and the moves of listeners, at any depth (`proper_hear`).  Hence
every moment of a run is reached by steps (`Moment.reaches`), and a property that every
step preserves holds at every moment (`Kept.moment`).
-/

namespace SlotWatch

namespace Switchboard

variable {σ ε : Type} {S : Source σ ε}

/-- `b'` is reached from `b`, and has the same publishes in progress. -/
def Settles (S : Source σ ε) (b b' : Switchboard σ ε) : Prop :=
  Reaches S b b' ∧ b'.running = b.running

theorem Settles.refl (b : Switchboard σ ε) : Settles S b b := ⟨.refl, rfl⟩

theorem Settles.trans {b₁ b₂ b₃ : Switchboard σ ε} (h₁ : Settles S b₁ b₂)
    (h₂ : Settles S b₂ b₃) : Settles S b₁ b₃ :=
  ⟨h₁.1.trans h₂.1, h₂.2.trans h₁.2⟩

theorem Settles.single {b b' : Switchboard σ ε} (h : Advance S b b')
    (hr : b'.running = b.running) : Settles S b b' :=
  ⟨.single h, hr⟩

/-- Calls that end the publishes they begin. -/
def Proper (S : Source σ ε) (invoke : Invoke σ ε) : Prop :=
  ∀ r p b, Settles S (b.hand r p).2 (invoke r p b).2

@[simp] theorem hand_running (r : Registration) (p : Payload) (b : Switchboard σ ε) :
    (b.hand r p).2.running = b.running :=
  (alike_hand r p b).running

/-- What calls nobody begins no publish and ends none. -/
theorem Change.running_eq {removes : Registration → Prop} {b b' : Switchboard σ ε}
    (h : Change S removes b b') : b'.running = b.running := by
  cases h with
  | nothing _ h => exact h.running
  | register _ _ _ _ h => rw [h.running, register_running]
  | withdraw _ h => rw [h.running, withdraw_running]
  | setDefault _ h => rw [h.running, setDefault_running]

/-! ## publishing -/

/-- A turn is a step that calls or passes over, and then what the call does. -/
theorem reaches_turn {invoke : Invoke σ ε} (hi : Proper S invoke) {p : Payload}
    {r : Registration} {rs : List Registration} {rest : List (List Registration)}
    {b : Switchboard σ ε} (hr : b.running = (r :: rs) :: rest) (hk : r.kind = p.kind) :
    Reaches S b (b.turn invoke p r rs).2 ∧
      (b.turn invoke p r rs).2.running = rs :: rest := by
  cases ha : (b.comeTo r rs).1 with
  | false =>
      rw [turn_of_not_armed invoke p ha]
      exact ⟨.single (.skip hr ha), comeTo_running hr⟩
  | true =>
      rw [turn_of_armed invoke p ha]
      obtain ⟨hreach, hrunning⟩ := hi r p (b.comeTo r rs).2
      refine ⟨.head (.call hr ha hk) hreach, ?_⟩
      rw [hrunning, hand_running, comeTo_running hr]

/-- When the last turn has been taken nobody is left to come to. -/
theorem reaches_deliverAll {invoke : Invoke σ ε} (hi : Proper S invoke) {p : Payload}
    {rs : List Registration} {rest : List (List Registration)} {b : Switchboard σ ε}
    (hr : b.running = rs :: rest) (hk : ∀ r ∈ rs, r.kind = p.kind) :
    Reaches S b (deliverAll invoke p rs b).2 ∧
      (deliverAll invoke p rs b).2.running = [] :: rest := by
  induction rs generalizing b with
  | nil => exact ⟨.refl, hr⟩
  | cons r rs ih =>
      obtain ⟨hturn, hrunning⟩ := reaches_turn hi hr (hk r List.mem_cons_self)
      obtain ⟨hothers, hend⟩ := ih hrunning fun r' hr' => hk r' (List.mem_cons_of_mem r hr')
      exact ⟨hturn.trans hothers, hend⟩

/-- A publish that has begun ends before anything around it goes on. -/
theorem settles_publish {invoke : Invoke σ ε} (hi : Proper S invoke) (kind : Kind)
    (slot : Option Slot) (p : Payload) (b : Switchboard σ ε) :
    Settles S b (b.publish S invoke kind slot p).2 := by
  unfold publish
  cases hp : b.checkPublish kind slot p with
  | error e => exact .refl b
  | ok u =>
      have hkind := kind_of_checkPublish hp
      have hlaunch := Advance.launch (S := S) (slot.getD b.registry.defaultSlot) hkind b
      obtain ⟨hreach, hend⟩ := reaches_deliverAll hi (p := p)
        (launch_running S kind (slot.getD b.registry.defaultSlot) p b)
        fun r hr => (kind_of_mem_audience hr).trans hkind.symm
      refine ⟨(Relation.ReflTransGen.head hlaunch hreach).tail (.land hend), ?_⟩
      simp only [land, hend, List.tail_cons]

/-- An update is one step, and a publish after it if there is news. -/
theorem settles_update {invoke : Invoke σ ε} (hi : Proper S invoke) (slot : Slot) (p : Payload)
    (b : Switchboard σ ε) : Settles S b (b.update S invoke slot p).2 := by
  unfold update
  split
  · exact settles_publish hi _ _ _ b
  · split
    · exact .refl b
    · have hreport : Settles S b (b.report S slot p).2 := .single (.report slot p b) rfl
      split
      · next h => rwa [h] at hreport
      · next h =>
          rw [h] at hreport
          exact hreport.trans (settles_publish hi _ _ _ _)

/-! ## commands and moves -/

/-- A command ends whatever it begins. -/
theorem settles_obey {invoke : Invoke σ ε} (hi : Proper S invoke) (l : Option String)
    (c : Command ε) (b : Switchboard σ ε) : Settles S b (b.obey S invoke l c).2 := by
  cases hc : c.quiet with
  | true => exact .single (.obey invoke l c hc b) (change_attempt invoke b hc).running_eq
  | false =>
      have hattempt : Settles S b (b.attempt S invoke c).2 := by
        unfold Command.quiet at hc
        unfold attempt
        split at hc
        · next a ha =>
            rw [ha]
            cases a with
            | publish kind slot p => exact settles_publish hi kind slot p b
            | update slot p => exact settles_update hi slot p b
            | _ => contradiction
        · contradiction
      exact hattempt.trans (.single (.remark l c _ hc _) rfl)

/-- A listener ends whatever it begins, also when it panics. -/
theorem settles_moveAll {invoke : Invoke σ ε} (hi : Proper S invoke) (l : Option String)
    (ms : List (Move ε)) (b : Switchboard σ ε) :
    Settles S b (b.moveAll S invoke l ms).2 := by
  induction ms generalizing b with
  | nil => exact .refl b
  | cons m ms ih =>
      cases m with
      | panic => exact .refl b
      | command c => exact (settles_obey hi l c b).trans (ih _)

/-- To hand over a payload is part of the call. -/
theorem proper_handOver {body : Invoke σ ε} (h : ∀ r p b, Settles S b (body r p b).2) :
    Proper S (handOver body) := by
  intro r p b
  unfold handOver
  cases ha : (b.hand r p).1 with
  | true =>
      simp only [ha, if_true]
      exact h r p _
  | false =>
      simp only [ha]
      exact .refl _

/-- **Calls of callbacks end the publishes they begin**, whatever the listeners do. -/
theorem proper_hear (S : Source σ ε) (react : React σ ε) (limit : Nat) :
    Proper S (hear S react limit) := by
  induction limit with
  | zero => exact proper_handOver fun _ _ b => .refl b
  | succ limit ih => exact proper_handOver fun r p b => settles_moveAll ih _ _ b

/-- Between commands from outside no publish is in progress. -/
theorem settles_run (react : React σ ε) (limit : Nat) (cs : List (Command ε))
    (b : Switchboard σ ε) : Settles S b (run S react limit cs b) := by
  induction cs generalizing b with
  | nil => exact .refl b
  | cons c cs ih => exact (settles_obey (proper_hear S react limit) none c b).trans (ih _)

/-! ## moments -/

/-- What an activity needs of the board it takes place on. -/
def Fits (b : Switchboard σ ε) : Activity ε → Prop
  | .deliver p rs => (∃ rest, b.running = rs :: rest) ∧ ∀ r ∈ rs, r.kind = p.kind
  | _ => True

/-- Whatever occurs is reached from where its activity began. -/
theorem Occurs.reaches {react : React σ ε} {limit : Nat} {a : Activity ε}
    {b m : Switchboard σ ε} (h : Occurs S react limit a b m) (hb : Fits b a) :
    Reaches S b m := by
  induction h with
  | completed limit l c b => exact (settles_obey (proper_hear S react limit) l c b).1
  | publishing _ _ ih => exact ih trivial
  | announcing _ _ _ ih => exact ih trivial
  | updating _ _ _ _ _ ih => exact .head (.report _ _ _) (ih trivial)
  | delivering hp _ ih =>
      have hkind := kind_of_checkPublish hp
      refine .head (.launch _ hkind _) (ih ⟨⟨_, launch_running S _ _ _ _⟩, fun r hr => ?_⟩)
      exact (kind_of_mem_audience hr).trans hkind.symm
  | called limit p rs ha =>
      obtain ⟨⟨rest, hr⟩, hk⟩ := hb
      exact .single (.call hr ha (hk _ List.mem_cons_self))
  | acting ha _ _ ih =>
      obtain ⟨⟨rest, hr⟩, hk⟩ := hb
      exact .head (.call hr ha (hk _ List.mem_cons_self)) (ih trivial)
  | @others limit p rs b r m _ ih =>
      obtain ⟨⟨rest, hr⟩, hk⟩ := hb
      obtain ⟨hturn, hrunning⟩ :=
        reaches_turn (proper_hear S react limit) hr (hk r List.mem_cons_self)
      exact hturn.trans
        (ih ⟨⟨rest, hrunning⟩, fun r' hr' => hk r' (List.mem_cons_of_mem r hr')⟩)
  | move _ ih => exact ih trivial
  | moves _ ih => exact (settles_obey (proper_hear S react _) _ _ _).1.trans (ih trivial)

/-- **Every moment of a run is reached by steps.** -/
theorem Moment.reaches {react : React σ ε} {limit : Nat} {cs : List (Command ε)}
    {b m : Switchboard σ ε} (h : Moment S react limit cs b m) : Reaches S b m := by
  cases h with
  | start => exact .refl
  | during _ _ _ _ h => exact (settles_run react limit _ b).1.trans (h.reaches trivial)

/-- What every step preserves holds at every moment of a run. -/
theorem Kept.moment {P : Switchboard σ ε → Prop} (k : Kept S P) {react : React σ ε}
    {limit : Nat} {cs : List (Command ε)} {b m : Switchboard σ ε}
    (h : Moment S react limit cs b m) (hb : P b) : P m :=
  k.reaches h.reaches hb

/-- A property that is upheld holds from the fresh board on. -/
theorem Upheld.reaches {Q : Registry → List Registration → List (Event σ ε) → Prop}
    (u : Upheld Q) {settings : SlotSettings} {source : σ} {b : Switchboard σ ε}
    (h : Reaches S (fresh settings source) b) (hstart : Q (.ofSettings settings) [] []) :
    Q b.registry b.running.flatten (story b.trace) :=
  u.kept.reaches h hstart

/-! ## the trace -/

/-- Nothing leaves the trace. -/
theorem kept_suffix (S : Source σ ε) (trace : List (Event σ ε)) :
    Kept S fun b => trace <:+ b.trace where
  alike h hb := by
    rw [h.trace]
    exact hb
  remark e _ hb := hb.trans (List.suffix_cons e _)
  register _ hb := hb.trans (registering S _ _ _ _ _).suffix
  withdraw selected hb := hb.trans (suffix_withdraw S selected _)
  setDefault slot hb := hb.trans (moving S slot _).suffix
  launch slot _ hb := hb.trans (suffix_launch S _ slot _ _)
  skip _ _ hb := hb
  call _ _ _ hb := hb.trans (List.suffix_cons _ _)
  land _ hb := hb

/-- Nothing that has happened is forgotten. -/
theorem Reaches.suffix {b b' : Switchboard σ ε} (h : Reaches S b b') : b.trace <:+ b'.trace :=
  (kept_suffix S b.trace).reaches h (List.suffix_refl _)

/-- What happened since is what was put on the trace. -/
theorem since_eq_reverse {b b' : Switchboard σ ε} {new : List (Event σ ε)}
    (h : new ++ b.trace = b'.trace) : b.since b' = new.reverse := by
  rw [since, ← h, List.length_append, Nat.add_sub_cancel_right, List.take_left]

theorem since_self (b : Switchboard σ ε) : b.since b = [] :=
  since_eq_reverse (List.nil_append _)

theorem since_append {b c d : Switchboard σ ε} (hbc : b.trace <:+ c.trace)
    (hcd : c.trace <:+ d.trace) : b.since d = b.since c ++ c.since d := by
  obtain ⟨first, hfirst⟩ := hbc
  obtain ⟨second, hsecond⟩ := hcd
  have hboth : (second ++ first) ++ b.trace = d.trace := by
    rw [List.append_assoc, hfirst, hsecond]
  rw [since_eq_reverse hfirst, since_eq_reverse hsecond, since_eq_reverse hboth,
    List.reverse_append]

end Switchboard

end SlotWatch

import Mathlib.Data.Finset.Card
import Mathlib.Logic.Function.Iterate
import SlotWatch.Proofs.Lasting
import SlotWatch.Proofs.OneShot

/-!
# SlotWatch.Proofs.Cascade

Cascades of one-shots end.

Listeners may publish, so calls nest, and nothing in the program says how deep.  But a
one-shot is disarmed before its listener is called.

1. While only one-shots are live and no registration is made, each call takes one from the
   number of those that may still be called, `Registry.rounds`, and nothing adds to it
   (`lasting_spending`).
2. A call within calls is within as many publishes as there were calls, so it is nested no
   deeper than there were rounds (`Occurs.length_running_le`).
3. So with as many levels of listeners that act as there are rounds, those beyond them are never
   called, whatever they would do (`agreeBelow_iterate`).
-/

namespace SlotWatch

variable {σ ε : Type}

/-! ## rounds -/

namespace Registry

/-- How many registrations may still be called. -/
def rounds (g : Registry) : Nat :=
  g.armed.toFinset.card

theorem toFinset_subset {ids ids' : List Nat} (h : ids ⊆ ids') : ids.toFinset ⊆ ids'.toFinset :=
  fun _ hid => List.mem_toFinset.mpr (h (List.mem_toFinset.mp hid))

theorem rounds_le_of_subset {g g' : Registry} (h : g'.armed ⊆ g.armed) : g'.rounds ≤ g.rounds :=
  Finset.card_le_card (toFinset_subset h)

theorem armed_claim_subset (g : Registry) (r : Registration) :
    (g.claim r).2.armed ⊆ g.armed :=
  fun id hid => ((mem_armed_claim g r id).mp hid).1

/-- Calling a one-shot takes a round. -/
theorem rounds_claim_lt {g : Registry} {r : Registration} (hmode : r.mode = .oneShot)
    (ha : r.id ∈ g.armed) : (g.claim r).2.rounds < g.rounds := by
  refine Finset.card_lt_card (Finset.ssubset_iff_subset_ne.mpr ⟨?_, fun heq => ?_⟩)
  · exact toFinset_subset (armed_claim_subset g r)
  · have hstill : r.id ∈ (g.claim r).2.armed := by
      rw [← List.mem_toFinset, heq, List.mem_toFinset]
      exact ha
    exact ((mem_armed_claim g r r.id).mp hstill).2 hmode rfl

/-- While no publish is in progress, what may be called is live. -/
theorem Orderly.rounds_le {g : Registry} (h : Orderly g []) : g.rounds ≤ g.live.length := by
  have hlive : g.armed.toFinset ⊆ (g.live.map (·.id)).toFinset := by
    refine toFinset_subset fun id hid => ?_
    obtain ⟨r, hr, rfl⟩ := h.of_armed hid
    refine List.mem_map_of_mem (hr.resolve_right fun hwaits => ?_)
    exact List.not_mem_nil (h.mem_waiting.mp hwaits).1
  calc g.rounds ≤ (g.live.map (·.id)).toFinset.card := Finset.card_le_card hlive
    _ ≤ (g.live.map (·.id)).length := List.toFinset_card_le _
    _ = g.live.length := List.length_map _

end Registry

/-- How many of the publishes in progress an activity is part of itself. -/
def Activity.inside : Activity ε → Nat
  | .deliver .. => 1
  | _ => 0

namespace Switchboard

variable {S : Source σ ε}

/-! ## what takes no round -/

/-- Whether on the way from `b` to `b'` nothing is called, and nothing that may be called is
added. -/
structure Dwindles (b b' : Switchboard σ ε) : Prop where
  live : ∀ r ∈ b'.registry.live, ∃ s ∈ b.registry.live, s.mode = r.mode
  armed : b'.registry.armed ⊆ b.registry.armed
  calls_eq : calls b'.trace = calls b.trace

namespace Dwindles

/-- Where the registry stays and nobody is called, nothing is used up. -/
theorem of_registry_eq {b b' : Switchboard σ ε} (h : b'.registry = b.registry)
    (hcalls : calls b'.trace = calls b.trace) : Dwindles b b' where
  live r hr := ⟨r, h ▸ hr, rfl⟩
  armed := by
    rw [h]
    exact List.Subset.refl _
  calls_eq := hcalls

/-- Inboxes and channels use up nothing and add nothing. -/
theorem alike {b b' : Switchboard σ ε} (h : Alike b b') : Dwindles b b' :=
  .of_registry_eq h.registry (by rw [h.trace])

/-- A removal disarms some and adds nobody. -/
theorem withdraw (selected : Registration → Bool) (b : Switchboard σ ε) :
    Dwindles b (b.withdraw S selected).2 where
  live r hr := by
    rw [withdraw_registry] at hr
    exact ⟨r, (Registry.mem_live_withdraw.mp hr).1, rfl⟩
  armed := by
    rw [withdraw_registry]
    exact fun id hid => ((Registry.Orderly.mem_armed_withdraw _ _ _).mp hid).1
  calls_eq := by
    rw [← calls_story, story_withdraw, calls_withdrawn, calls_story]

/-- A move arms nobody. -/
theorem moving {slot : Slot} {b b' : Switchboard σ ε} {o : Except Failure Unit}
    (h : Moving S slot b o b') : Dwindles b b' := by
  have hcalls : calls b'.trace = calls b.trace := by
    rw [← calls_story, h.story_eq, calls_story]
  cases h with
  | outside | stayed => exact .of_registry_eq rfl hcalls
  | refused => exact .of_registry_eq (startAll_registry S _ _ b) hcalls
  | moved =>
      refine ⟨fun r hr => ?_, ?_, hcalls⟩
      · rw [stopAll_registry, relocated_registry] at hr
        obtain ⟨s, hs, rfl⟩ := List.mem_map.mp hr
        exact ⟨s, hs, (Registration.mode_eq_of_terms_eq (Registration.moved_terms slot s)).symm⟩
      · rw [stopAll_registry, relocated_registry]
        exact List.Subset.refl _

/-- A command that calls nobody and makes no registration. -/
theorem obey (invoke : Invoke σ ε) (l : Option String) {c : Command ε} (hq : c.quiet = true)
    (hc : c.mode? = none) (b : Switchboard σ ε) : Dwindles b (b.obey S invoke l c).2 := by
  have hattempt : Dwindles b (b.attempt S invoke c).2 := by
    unfold Command.quiet at hq
    unfold Command.mode? at hc
    unfold attempt
    cases ha : c.action with
    | error e => exact .alike (.refl b)
    | ok a =>
        simp only [ha] at hq hc ⊢
        cases a with
        | on | subscribe | channel | publish | update => contradiction
        | off | cancel => exact withdraw _ b
        | unsubscribe event listener =>
            show Dwindles b (b.unsubscribe S event listener).2
            unfold Switchboard.unsubscribe
            split
            · exact .alike (.refl b)
            · exact withdraw _ b
        | receive name => exact .alike (alike_receive name b)
        | setDefault slot => exact moving (Switchboard.moving S slot b)
        | drop | validateSlot | listenerCount | compare | inspect | source =>
            exact .alike ⟨rfl, rfl, rfl⟩
  exact ⟨hattempt.live, hattempt.armed, hattempt.calls_eq⟩

/-- The beginning of a publish arms nobody. -/
theorem launch (kind : Kind) (slot : Slot) (p : Payload) (b : Switchboard σ ε) :
    Dwindles b (b.launch S kind slot p) where
  live r hr := by
    rw [launch_registry] at hr
    exact ⟨r, (Registry.mem_live_collect.mp hr).1, rfl⟩
  armed := by
    rw [launch_registry]
    exact List.Subset.refl _
  calls_eq := by
    rw [← calls_story, story_launch, calls_cons_of_isIdle ⟨rfl, rfl⟩, calls_story]

/-- To come to a registration disarms it at most. -/
theorem comeTo (r : Registration) (rs : List Registration) (b : Switchboard σ ε) :
    Dwindles b (b.comeTo r rs).2 where
  live s hs := by
    rw [comeTo_registry, Registry.claim_live] at hs
    exact ⟨s, hs, rfl⟩
  armed := Registry.armed_claim_subset b.registry r
  calls_eq := rfl

end Dwindles

/-! ## every call takes a round -/

/-- Whether only one-shots are live, and the number of calls so far and that of rounds that are
left are as `Q` says. -/
structure Spending (Q : Nat → Nat → Prop) (b : Switchboard σ ε) : Prop where
  oneShot : ∀ r ∈ b.registry.live, r.mode = .oneShot
  within : Q (calls b.trace).length b.registry.rounds

/-- Whether so many rounds are left at most. -/
abbrev Left (n : Nat) : Switchboard σ ε → Prop :=
  Spending fun _ left => left ≤ n

/-- With fewer rounds left the balance stands. -/
theorem Spending.dwindles {Q : Nat → Nat → Prop} {b b' : Switchboard σ ε} (hb : Spending Q b)
    (hQ : ∀ {c n n'}, n' ≤ n → Q c n → Q c n') (h : Dwindles b b') : Spending Q b' where
  oneShot r hr := by
    obtain ⟨s, hs, hmode⟩ := h.live r hr
    rw [← hmode]
    exact hb.oneShot s hs
  within := by
    rw [h.calls_eq]
    exact hQ (Registry.rounds_le_of_subset h.armed) hb.within

/-- **Each call takes a round and nothing adds to them**, while listeners make no
registrations. -/
theorem lasting_spending {Q : Nat → Nat → Prop} (hQ : ∀ {c n n'}, n' ≤ n → Q c n → Q c n')
    (hcall : ∀ {c n n'}, n' < n → Q c n → Q (c + 1) n') :
    Lasting S (·.mode? = none) (·.mode = .oneShot) (Spending Q) where
  live hb hr := hb.oneShot _ hr
  obey invoke l c hq hc hb := hb.dwindles hQ (.obey invoke l hq hc _)
  report _ _ _ hb := hb.dwindles hQ (.of_registry_eq rfl rfl)
  tell {b slot p q} _ _ _ _ hb := by
    have hreport : Dwindles b (b.report S slot p).2 := .of_registry_eq rfl rfl
    exact (hb.dwindles hQ hreport).dwindles hQ (.launch _ _ _ _)
  launch slot _ hb := hb.dwindles hQ (.launch _ slot _ _)
  skip rs _ _ hb := hb.dwindles hQ (.comeTo _ rs _)
  call {b r} rs p ha hmode hb := by
    have hcome := hb.dwindles hQ (.comeTo r rs b)
    have halike := alike_hand r p (b.comeTo r rs).2
    have hround := Registry.rounds_claim_lt hmode ((comeTo_armed r rs b).mp ha)
    have hcalls : (calls ((b.comeTo r rs).2.hand r p).2.trace).length =
        (calls b.trace).length + 1 := by
      rw [halike.trace, note_trace, calls_handed, comeTo_trace, List.length_cons]
    refine ⟨fun s hs => ?_, ?_⟩
    · rw [halike.registry, note_registry] at hs
      exact hcome.oneShot s hs
    · rw [hcalls, halike.registry, note_registry, comeTo_registry]
      exact hcall hround hb.within
  land hb := hb.dwindles hQ (.of_registry_eq rfl rfl)
  remark _ _ _ hb := hb.dwindles hQ (.of_registry_eq rfl rfl)

/-- Whether the calls so far and the rounds that are left are so many together at most. -/
abbrev Afforded (n : Nat) : Switchboard σ ε → Prop :=
  Spending fun called left => called + left ≤ n

/-- Without new registrations no round is added. -/
theorem lasting_left (n : Nat) :
    Lasting S (·.mode? = none) (·.mode = .oneShot) (Left n : Switchboard σ ε → Prop) :=
  lasting_spending (fun hle h => hle.trans h) fun hlt h => hlt.le.trans h

/-- A call takes a round, so calls and rounds together do not grow. -/
theorem lasting_afforded (n : Nat) :
    Lasting S (·.mode? = none) (·.mode = .oneShot) (Afforded n : Switchboard σ ε → Prop) :=
  lasting_spending (fun _ _ => by omega) fun _ _ => by omega

/-- The rounds that are left pay for the calls to come. -/
theorem Left.afforded {n : Nat} {b : Switchboard σ ε} (h : Left n b) :
    Afforded ((calls b.trace).length + n) b :=
  ⟨h.oneShot, Nat.add_le_add_left h.within _⟩

/-! ## depth -/

theorem length_calls_le {b b' : Switchboard σ ε} (h : Reaches S b b') :
    (calls b.trace).length ≤ (calls b'.trace).length :=
  (h.suffix.filterMap _).length_le

/-- The calls since a board are those on top of the ones before. -/
theorem length_calls_since {b b' : Switchboard σ ε} (h : Reaches S b b') :
    (calls (b.since b')).length + (calls b.trace).length = (calls b'.trace).length := by
  obtain ⟨new, hnew⟩ := h.suffix
  rw [since_eq_reverse hnew, ← hnew, calls, calls, calls, List.filterMap_reverse,
    List.filterMap_append, List.length_reverse, List.length_append]

/-- **Within an activity there are no more publishes in progress than there were calls**, apart
from those that were in progress before it. -/
theorem Occurs.length_running_le {react : React σ ε} {limit : Nat} {a : Activity ε}
    {b m : Switchboard σ ε} (h : Occurs S react limit a b m) (hb : Fits b a) :
    m.running.length + (calls b.trace).length + a.inside ≤
      b.running.length + (calls m.trace).length := by
  induction h with
  | completed limit l c b =>
      obtain ⟨hreach, hrunning⟩ := settles_obey (proper_hear S react limit) l c b
      have hcalls := length_calls_le hreach
      rw [hrunning]
      simp only [Activity.inside]
      omega
  | publishing _ _ ih | announcing _ _ _ ih => exact ih trivial
  | updating _ _ _ _ _ ih => exact ih trivial
  | @delivering limit p m kind slot b hp _ ih =>
      have hkind := kind_of_checkPublish hp
      have hrunning := launch_running S kind (slot.getD b.registry.defaultSlot) p b
      have hcalls :=
        (Dwindles.launch (S := S) kind (slot.getD b.registry.defaultSlot) p b).calls_eq
      have hih := ih ⟨⟨_, hrunning⟩, fun r hr => (kind_of_mem_audience hr).trans hkind.symm⟩
      rw [hrunning, hcalls, List.length_cons] at hih
      simp only [Activity.inside] at hih ⊢
      omega
  | @called r b limit p rs ha =>
      obtain ⟨⟨rest, hr⟩, hk⟩ := hb
      have halike := alike_hand r p (b.comeTo r rs).2
      rw [halike.trace, note_trace, calls_handed, comeTo_trace, halike.running, note_running,
        comeTo_running hr, hr]
      simp only [Activity.inside, List.length_cons]
      omega
  | @acting limit r p m rs b ha _ _ ih =>
      obtain ⟨⟨rest, hr⟩, hk⟩ := hb
      have halike := alike_hand r p (b.comeTo r rs).2
      have hih := ih trivial
      rw [halike.trace, note_trace, calls_handed, comeTo_trace, halike.running, note_running,
        comeTo_running hr] at hih
      rw [hr]
      simp only [Activity.inside, List.length_cons] at hih ⊢
      omega
  | @others limit p rs m r b _ ih =>
      obtain ⟨⟨rest, hr⟩, hk⟩ := hb
      obtain ⟨hturn, hrunning⟩ :=
        reaches_turn (proper_hear S react limit) hr (hk r List.mem_cons_self)
      have hcalls := length_calls_le hturn
      have hih := ih ⟨⟨rest, hrunning⟩, fun r' hr' => hk r' (List.mem_cons_of_mem r hr')⟩
      rw [hrunning] at hih
      rw [hr]
      simp only [Activity.inside, List.length_cons] at hih ⊢
      omega
  | move _ ih => exact ih trivial
  | @moves limit l ms m c b _ ih =>
      obtain ⟨hreach, hrunning⟩ := settles_obey (proper_hear S react limit) l c b
      have hcalls := length_calls_le hreach
      have hih := ih trivial
      rw [hrunning] at hih
      simp only [Activity.inside] at hih ⊢
      omega

/-! ## levels -/

/-- Call callbacks; the listeners that are called act, and `invoke` says what becomes of the
calls that this leads to. -/
def listen (S : Source σ ε) (react : React σ ε) (invoke : Invoke σ ε) : Invoke σ ε :=
  handOver fun r p b => b.moveAll S invoke r.callback.listener? (react r p b)

/-- `hear` has as many levels of listeners that act. -/
theorem hear_eq_iterate (S : Source σ ε) (react : React σ ε) (limit : Nat) :
    hear S react limit = (listen S react)^[limit] (hear S react 0) := by
  induction limit with
  | zero => rfl
  | succ limit ih =>
      rw [Function.iterate_succ_apply', ← ih]
      rfl

/-- Whether two ways to call agree on boards with fewer rounds. -/
def AgreeBelow (n : Nat) (i i' : Invoke σ ε) : Prop :=
  ∀ ⦃r p b⦄, (∀ s ∈ b.registry.live, s.mode = .oneShot) → b.registry.rounds < n →
    i r p b = i' r p b

/-- A command that calls nobody is carried out in the same way whoever would call. -/
theorem obey_of_quiet (i i' : Invoke σ ε) (l : Option String) {c : Command ε}
    (hc : c.quiet = true) (b : Switchboard σ ε) : b.obey S i l c = b.obey S i' l c := by
  have hattempt : b.attempt S i c = b.attempt S i' c := by
    unfold Command.quiet at hc
    unfold attempt
    cases ha : c.action with
    | error e => rfl
    | ok a =>
        simp only [ha] at hc ⊢
        cases a <;> first | rfl | contradiction
  unfold obey
  rw [hattempt]

namespace AgreeBelow

variable {n : Nat} {i i' : Invoke σ ε} (h : AgreeBelow n i i')
  (hi : ∀ {r p b}, Left n (b.hand r p).2 → Left n (i r p b).2) {b : Switchboard σ ε}
include h

/-- A turn is the same either way: a call takes a round, so it is made with fewer left. -/
theorem turn (hb : Left n b) (p : Payload) {r : Registration} (hr : r.mode = .oneShot)
    (rs : List Registration) : b.turn i p r rs = b.turn i' p r rs := by
  cases ha : (b.comeTo r rs).1 with
  | true =>
      have hround := Registry.rounds_claim_lt hr ((comeTo_armed r rs b).mp ha)
      have hlive : ∀ s ∈ (b.comeTo r rs).2.registry.live, s.mode = .oneShot := by
        rw [comeTo_registry, Registry.claim_live]
        exact hb.oneShot
      rw [turn_of_armed i p ha, turn_of_armed i' p ha, h hlive (hround.trans_le hb.within)]
  | false => rw [turn_of_not_armed i p ha, turn_of_not_armed i' p ha]

include hi

/-- A delivery is the same either way: no turn leaves more rounds to the others. -/
theorem deliverAll (S : Source σ ε) (hb : Left n b) (p : Payload) {rs : List Registration}
    (hrs : ∀ r ∈ rs, r.mode = .oneShot) :
    Switchboard.deliverAll i p rs b = Switchboard.deliverAll i' p rs b := by
  induction rs generalizing b with
  | nil => rfl
  | cons r rs ih =>
      obtain ⟨hr, hrs⟩ := List.forall_mem_cons.mp hrs
      have hturn := h.turn hb p hr rs
      have hothers := ih ((lasting_left (S := S) n).turn hi hb p hr rs) hrs
      unfold Switchboard.deliverAll
      rw [hturn] at hothers ⊢
      simp only [hothers]

/-- So is a publish, whose beginning leaves no more rounds than there were. -/
theorem publish (hb : Left n b) (kind : Kind) (slot : Option Slot) (p : Payload) :
    b.publish S i kind slot p = b.publish S i' kind slot p := by
  unfold Switchboard.publish
  cases hp : b.checkPublish kind slot p with
  | error e => rfl
  | ok u =>
      have hlaunch := (lasting_left n).launch (S := S) (slot.getD b.registry.defaultSlot)
        (kind_of_checkPublish hp) hb
      have haudience : ∀ r ∈ b.audience kind (slot.getD b.registry.defaultSlot),
          r.mode = .oneShot := fun r hr => hb.oneShot r (List.mem_filter.mp hr).1
      simp only [deliverAll h hi S hlaunch p haudience]

/-- So is an update, whose report leaves as many rounds as there were. -/
theorem update (hb : Left n b) (slot : Slot) (p : Payload) :
    b.update S i slot p = b.update S i' slot p := by
  have hreport : Left n (b.report S slot p).2 := ⟨hb.oneShot, hb.within⟩
  unfold Switchboard.update
  revert hreport
  rcases b.report S slot p with ⟨_ | q, b'⟩
  · intro _
    rw [publish h hi hb]
  · intro hreport
    simp only [publish h hi hb, publish h hi hreport]

/-- So is a command: it calls nobody, or it publishes or updates. -/
theorem obey (hb : Left n b) (l : Option String) (c : Command ε) :
    b.obey S i l c = b.obey S i' l c := by
  cases hc : c.quiet with
  | true => exact obey_of_quiet i i' l hc b
  | false =>
      have hattempt : b.attempt S i c = b.attempt S i' c := by
        unfold Command.quiet at hc
        unfold attempt
        cases ha : c.action with
        | error e => rfl
        | ok a =>
            simp only [ha] at hc ⊢
            cases a with
            | publish kind slot p => simp only [perform, publish h hi hb]
            | update slot p => simp only [perform, update h hi hb]
            | _ => contradiction
      unfold Switchboard.obey
      rw [hattempt]

/-- A listener that registers nobody acts in the same way, as no command adds rounds. -/
theorem moveAll (hb : Left n b) (l : Option String) {ms : List (Move ε)}
    (hms : ∀ c, Move.command c ∈ ms → c.mode? = none) :
    b.moveAll S i l ms = b.moveAll S i' l ms := by
  induction ms generalizing b with
  | nil => rfl
  | cons m ms ih =>
      cases m with
      | panic => rfl
      | command c =>
          have hobey := (lasting_left (S := S) n).command hi hb l (hms c List.mem_cons_self)
          have hothers := ih hobey fun c' hc' => hms c' (List.mem_cons_of_mem _ hc')
          unfold Switchboard.moveAll
          rw [← obey h hi hb]
          exact hothers

/-- One level more is good for one round more. -/
theorem listen {react : React σ ε} (hreact : React.Within (·.mode? = none) react) :
    AgreeBelow (n + 1) (listen S react i) (listen S react i') := by
  intro r p b hlive hrounds
  have hregistry : (b.hand r p).2.registry = b.registry := (alike_hand r p b).registry
  have hhand : Left n (b.hand r p).2 := by
    refine ⟨?_, ?_⟩
    · rw [hregistry]
      exact hlive
    · rw [hregistry]
      exact Nat.lt_succ_iff.mp hrounds
  unfold Switchboard.listen handOver
  simp only [moveAll h hi hhand _ fun c => hreact r p _ c]

end AgreeBelow

/-- Where there are fewer rounds than levels, the levels are all that matters. -/
theorem agreeBelow_iterate {react : React σ ε} (hreact : React.Within (·.mode? = none) react)
    (n : Nat) (invoke : Invoke σ ε) :
    AgreeBelow n (hear S react n) ((listen S react)^[n] invoke) := by
  induction n with
  | zero => exact fun _ _ _ _ hrounds => absurd hrounds (Nat.not_lt_zero _)
  | succ n ih =>
      rw [Function.iterate_succ_apply']
      exact ih.listen ((lasting_left n).hear hreact n) hreact

/-! ## cascades -/

section

variable {settings : SlotSettings} {source : σ} {b : Switchboard σ ε}

/-- Without a publish in progress there are no more rounds than live registrations. -/
theorem Reaches.left_of_idle (h : Reaches S (fresh settings source) b) (hidle : b.running = [])
    (hlive : ∀ r ∈ b.registry.live, r.mode = .oneShot) : Left b.registry.live.length b := by
  have horder := h.inOrder.1
  rw [hidle] at horder
  exact ⟨hlive, horder.rounds_le⟩

section

variable {n : Nat} (hb : Left n b) {react : React σ ε}
  (hreact : React.Within (·.mode? = none) react)
include hb hreact

/-- The calls that a publish makes, and what it leaves, are within the rounds. -/
theorem Left.calls_publish_le (limit : Nat) (kind : Kind) (slot : Option Slot) (p : Payload) :
    (calls (b.publish S (hear S react limit) kind slot p).2.trace).length ≤
      (calls b.trace).length + n := by
  have k := lasting_afforded (S := S) ((calls b.trace).length + n)
  have hpublish := k.publish (k.hear hreact limit) hb.afforded kind slot p
  have hwithin := hpublish.within
  omega

/-- So are the calls before each moment of it. -/
theorem Left.length_running_le {limit : Nat} {kind : Kind} {slot : Option Slot} {p : Payload}
    {m : Switchboard σ ε} (hm : Occurs S react limit (.publish kind slot p) b m) :
    m.running.length ≤ b.running.length + n := by
  have k := lasting_afforded (S := S) ((calls b.trace).length + n)
  have hdepth := hm.length_running_le trivial
  have hwithin := (k.occurs hreact hm fun hp =>
    ⟨k.launch _ (kind_of_checkPublish hp) hb.afforded, hb.oneShot⟩).within
  simp only [Activity.inside] at hdepth
  omega

/-- A publish has use for as many levels as there are rounds. -/
theorem Left.publish_iterate {limit : Nat} (hlimit : n ≤ limit) (invoke : Invoke σ ε)
    (kind : Kind) (slot : Option Slot) (p : Payload) :
    b.publish S ((listen S react)^[limit] invoke) kind slot p =
      b.publish S (hear S react n) kind slot p := by
  obtain ⟨more, rfl⟩ := Nat.exists_eq_add_of_le hlimit
  rw [Function.iterate_add_apply]
  have hagree := agreeBelow_iterate (S := S) hreact n ((listen S react)^[more] invoke)
  exact (hagree.publish ((lasting_left n).hear hreact n) hb kind slot p).symm

end

/-- **Cascades of one-shots end.**  Where no publish is in progress, only one-shots are live
and listeners make no registrations, a publish takes its course with no bound on nesting:

* it calls no more registrations than were live, over all publishes nested in it;
* at every call and every completed command in it, no more publishes are in progress than
  registrations were live, so no call is nested deeper;
* its result and the board after it are the same for every limit of nesting at least that large;
* and they are the same whatever becomes of the calls beyond that many levels, in particular if
  listeners act at every depth. -/
theorem oneShot_cascade_ends (h : Reaches S (fresh settings source) b) (hidle : b.running = [])
    (hlive : ∀ r ∈ b.registry.live, r.mode = .oneShot) {react : React σ ε}
    (hreact : React.Within (·.mode? = none) react) (kind : Kind) (slot : Option Slot)
    (p : Payload) :
    (∀ limit, (calls (b.since (b.publish S (hear S react limit) kind slot p).2)).length ≤
      b.registry.live.length) ∧
    (∀ limit m, Occurs S react limit (.publish kind slot p) b m →
      m.running.length ≤ b.registry.live.length) ∧
    (∀ limit, b.registry.live.length ≤ limit →
      b.publish S (hear S react limit) kind slot p =
        b.publish S (hear S react b.registry.live.length) kind slot p) ∧
    (∀ limit invoke, b.registry.live.length ≤ limit →
      b.publish S ((listen S react)^[limit] invoke) kind slot p =
        b.publish S (hear S react b.registry.live.length) kind slot p) ∧
    (∀ invoke, listen S react invoke = invoke →
      b.publish S invoke kind slot p =
        b.publish S (hear S react b.registry.live.length) kind slot p) := by
  have hleft := h.left_of_idle hidle hlive
  refine ⟨fun limit => ?_, fun limit m hm => ?_, fun limit hlimit => ?_,
    fun limit invoke hlimit => hleft.publish_iterate hreact hlimit invoke kind slot p,
    fun invoke hfixed => ?_⟩
  · have hreach := (settles_publish (proper_hear S react limit) kind slot p b).1
    have hsince := length_calls_since hreach
    have hcalls := hleft.calls_publish_le (S := S) hreact limit kind slot p
    omega
  · have hrunning := hleft.length_running_le hreact hm
    rw [hidle] at hrunning
    simpa using hrunning
  · rw [hear_eq_iterate S react limit]
    exact hleft.publish_iterate hreact hlimit _ kind slot p
  · have hlevels := hleft.publish_iterate (S := S) hreact le_rfl invoke kind slot p
    rwa [Function.iterate_fixed hfixed] at hlevels

end

/-! ### a sample cascade

Each of three one-shots publishes what the others listen for. -/

namespace Sample

/-- A listener that passes on what it hears, under either name. -/
def relaying : React Bench Bench.Control := fun _ _ _ =>
  [.command (ask (.publish .voiceMail none (.voiceMail true))),
    .command (ask (.publish .callForwarding none (.callForwarding true)))]

def relays : List (Command Bench.Control) :=
  [ask (.on .voiceMail "near" none .oneShot), ask (.on .callForwarding "middle" none .oneShot),
    ask (.on .voiceMail "far" none .oneShot)]

def waitingRelays : Switchboard Bench Bench.Control :=
  run Bench.source relaying 3 relays (fresh settings bench)

end Sample

/-- The relays pass the payload on to each other, and all have been called in the end. -/
theorem oneShot_cascade_ends_relays :
    Reaches Bench.source (fresh Sample.settings Sample.bench) Sample.waitingRelays ∧
      Sample.waitingRelays.running = [] ∧
      (∀ r ∈ Sample.waitingRelays.registry.live, r.mode = .oneShot) ∧
      React.Within (·.mode? = none) Sample.relaying ∧
      (Sample.waitingRelays.publish Bench.source (hear Bench.source Sample.relaying 3) .voiceMail
        none (.voiceMail true)).2.registry.live = [] ∧
      ∀ limit, 3 ≤ limit →
        Sample.waitingRelays.publish Bench.source (hear Bench.source Sample.relaying limit)
            .voiceMail none (.voiceMail true) =
          Sample.waitingRelays.publish Bench.source (hear Bench.source Sample.relaying 3)
            .voiceMail none (.voiceMail true) :=
  have h := (settles_run (S := Bench.source) Sample.relaying 3 Sample.relays
    (fresh Sample.settings Sample.bench)).1
  have hlive : ∀ r ∈ Sample.waitingRelays.registry.live, r.mode = .oneShot := by decide
  have hreact : React.Within (·.mode? = none) Sample.relaying := by
    intro r p b c hc
    rcases List.mem_cons.mp hc with heq | hc
    · cases heq
      rfl
    · cases List.mem_singleton.mp hc
      rfl
  ⟨h, rfl, hlive, hreact, rfl,
    (oneShot_cascade_ends h rfl hlive hreact .voiceMail none (.voiceMail true)).2.2.1⟩

end Switchboard

end SlotWatch

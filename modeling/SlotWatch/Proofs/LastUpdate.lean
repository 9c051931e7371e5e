import SlotWatch.Proofs.Delivery
import SlotWatch.Proofs.Remembering
import SlotWatch.Proofs.Steady

/-!
# SlotWatch.Proofs.LastUpdate

The updates of a run, and that a phone remembers the last of them.

1. What the source has taken in is on the trace, latest first (`updates`), and so are the
   updates that were accepted, in the order in which their commands were completed
   (`accepted`).  A listener that gives an update while another one is delivered has it taken
   in later and accepted earlier.
2. Whatever a switchboard does apart from updates leaves both as they are, and what the phone
   remembers (`Untold`).
3. How an update ends depends on its slot alone (`updating`).  It is taken in when it begins,
   before anybody is called (`Updating.suffix`), and accepted when it is completed, so after a
   run the two lists have the same updates (`Unfinished.run`).
4. At every moment the phone remembers of each slot and kind the update that began last
   (`cache_last_writer_wins`).
-/

namespace SlotWatch

variable {σ ε : Type}

/-! ## updates on a trace -/

/-- The update that an event says the source has taken in. -/
def Event.update? : Event σ ε → Option (Slot × Payload)
  | .updated slot p _ => some (slot, p)
  | _ => none

/-- The updates that the source has taken in, latest first. -/
def updates (trace : List (Event σ ε)) : List (Slot × Payload) :=
  trace.filterMap Event.update?

/-- The update that a command gives; account changes are no state. -/
def Command.update? (c : Command ε) : Option (Slot × Payload) :=
  match c.action with
  | .ok (.update slot p) => if p.kind = .iccAccount then none else some (slot, p)
  | _ => none

/-- The update that an event says was accepted. -/
def Event.accepted? : Event σ ε → Option (Slot × Payload)
  | .did _ c (.ok _) => c.update?
  | _ => none

/-- The updates that were accepted, in the order in which their commands were completed,
latest first. -/
def accepted (trace : List (Event σ ε)) : List (Slot × Payload) :=
  trace.filterMap Event.accepted?

/-- A command that calls nobody is no update. -/
theorem Command.update?_of_quiet {c : Command ε} (hc : c.quiet = true) : c.update? = none := by
  unfold Command.quiet at hc
  unfold Command.update?
  split
  · next ha =>
      rw [ha] at hc
      contradiction
  · rfl

/-- Completing a command that gives no update. -/
theorem Event.accepted?_did {c : Command ε} (hc : c.update? = none) (l : Option String)
    (o : Outcome σ) : (Event.did l c o).accepted? = none := by
  cases o with
  | error e => rfl
  | ok reply => exact hc

namespace Switchboard

variable {S : Source σ ε} {phone : σ → Phone}

/-! ## apart from updates -/

/-- Whether nothing is told to the phone on the way from `b` to `b'`. -/
structure Untold (phone : σ → Phone) (b b' : Switchboard σ ε) : Prop where
  updates_eq : updates b'.trace = updates b.trace
  accepted_eq : accepted b'.trace = accepted b.trace
  cache_eq : (phone b'.source).cache = (phone b.source).cache
  slotCount_eq : b'.registry.slotCount = b.registry.slotCount

namespace Untold

theorem refl (b : Switchboard σ ε) : Untold phone b b := ⟨rfl, rfl, rfl, rfl⟩

theorem trans {b₁ b₂ b₃ : Switchboard σ ε} (h : Untold phone b₁ b₂) (h' : Untold phone b₂ b₃) :
    Untold phone b₁ b₃ where
  updates_eq := h'.updates_eq.trans h.updates_eq
  accepted_eq := h'.accepted_eq.trans h.accepted_eq
  cache_eq := h'.cache_eq.trans h.cache_eq
  slotCount_eq := h'.slotCount_eq.trans h.slotCount_eq

/-- Only an update is told to the phone. -/
theorem note {e : Event σ ε} (hupdate : e.update? = none) (haccepted : e.accepted? = none)
    (b : Switchboard σ ε) : Untold phone b (b.note e) where
  updates_eq := List.filterMap_cons_none hupdate
  accepted_eq := List.filterMap_cons_none haccepted
  cache_eq := rfl
  slotCount_eq := rfl

theorem comeTo (r : Registration) (rs : List Registration) (b : Switchboard σ ε) :
    Untold phone b (b.comeTo r rs).2 := by
  refine ⟨rfl, rfl, rfl, ?_⟩
  rw [comeTo_registry]
  unfold Registry.claim
  cases r.mode <;> rfl

theorem hand (r : Registration) (p : Payload) (b : Switchboard σ ε) :
    Untold phone b (b.hand r p).2 := by
  unfold Switchboard.hand
  split
  · have hnote : Untold phone b (b.note (.delivered r p)) := .note rfl rfl b
    split
    · exact hnote.trans ⟨rfl, rfl, rfl, rfl⟩
    · exact hnote
  · exact .note rfl rfl b

section

variable (hS : S.Keeps phone)
include hS

/-- A request tells the phone nothing, whatever the answer. -/
theorem ask (request : Request) (feed : Feed) (b : Switchboard σ ε) :
    Untold phone b (b.ask S request feed).2 where
  updates_eq := List.filterMap_cons_none rfl
  accepted_eq := List.filterMap_cons_none rfl
  cache_eq := hS.answer request feed b.source
  slotCount_eq := rfl

theorem stopAll (feeds : List Feed) (b : Switchboard σ ε) :
    Untold phone b (b.stopAll S feeds).2 := by
  induction feeds generalizing b with
  | nil => exact .refl b
  | cons feed feeds ih =>
      have hask := ask hS .stop feed b
      cases ha : (b.ask S .stop feed).1 with
      | ok u =>
          rw [stopAll_cons_of_ok S ha]
          exact hask.trans (ih _)
      | error e =>
          rw [stopAll_cons_of_error S ha]
          exact hask

theorem takeBack (feeds : List Feed) (b : Switchboard σ ε) :
    Untold phone b (b.takeBack S feeds) := by
  induction feeds generalizing b with
  | nil => exact .refl b
  | cons feed feeds ih =>
      rw [takeBack_cons]
      exact (ask hS .stop feed b).trans (ih _)

theorem startAll (started feeds : List Feed) (b : Switchboard σ ε) :
    Untold phone b (b.startAll S started feeds).2 := by
  induction feeds generalizing started b with
  | nil => exact .refl b
  | cons feed feeds ih =>
      have hask := ask hS .start feed b
      cases ha : (b.ask S .start feed).1 with
      | ok u =>
          rw [startAll_cons_of_ok S ha]
          exact hask.trans (ih _ _)
      | error e =>
          rw [startAll_cons_of_error S ha]
          exact hask.trans (takeBack hS started _)

/-- A registration tells the phone nothing. -/
theorem registering {callback : Callback} {kind : Kind} {options : Option Options} {mode : Mode}
    {b b' : Switchboard σ ε} {o : Except Failure Nat}
    (h : Registering S callback kind options mode b o b') : Untold phone b b' := by
  cases h with
  | unfit | repeated => exact .refl b
  | joined => exact ⟨rfl, rfl, rfl, rfl⟩
  | started => exact (ask hS .start _ b).trans ⟨rfl, rfl, rfl, rfl⟩
  | refused => exact ask hS .start _ b

theorem withdraw (selected : Registration → Bool) (b : Switchboard σ ε) :
    Untold phone b (b.withdraw S selected).2 := by
  have hstruck : Untold phone b (b.struck selected) :=
    ⟨List.filterMap_cons_none rfl, List.filterMap_cons_none rfl, rfl, rfl⟩
  rw [withdraw_eq]
  exact hstruck.trans (stopAll hS _ _)

/-- Moving the default slot tells the phone nothing. -/
theorem moving {slot : Slot} {b b' : Switchboard σ ε} {o : Except Failure Unit}
    (h : Moving S slot b o b') : Untold phone b b' := by
  cases h with
  | outside | stayed => exact .refl b
  | refused => exact startAll hS [] _ b
  | moved =>
      have hstarted := startAll hS [] (b.registry.arrivals slot) b
      have hrelocated : Untold phone b (b.relocated S slot) :=
        ⟨hstarted.updates_eq, hstarted.accepted_eq, hstarted.cache_eq, rfl⟩
      exact hrelocated.trans (stopAll hS _ _)

theorem openChannel (name : String) (kind : Kind) (options : Option Options)
    (b : Switchboard σ ε) : Untold phone b (b.openChannel S name kind options).2 := by
  have hregister := registering hS
    (Switchboard.registering S (.channel b.nextChannel kind) kind options .repeating b)
  unfold Switchboard.openChannel
  revert hregister
  simp only
  rcases b.register S (.channel b.nextChannel kind) kind options .repeating with ⟨_ | _, b'⟩
  · exact id
  · exact fun hregister => hregister.trans ⟨rfl, rfl, rfl, rfl⟩

/-- Whatever calls nobody tells the phone nothing. -/
theorem perform (invoke : Invoke σ ε) (b : Switchboard σ ε) {a : Action ε}
    (ha : a.quiet = true) : Untold phone b (b.perform S invoke a).2 := by
  cases a with
  | on => exact registering hS (Switchboard.registering S _ _ _ _ b)
  | off => exact withdraw hS _ b
  | subscribe =>
      show Untold phone b (b.subscribe S _ _ _ _).2
      unfold Switchboard.subscribe
      split
      · exact .refl b
      · exact registering hS (Switchboard.registering S _ _ _ _ b)
  | unsubscribe =>
      show Untold phone b (b.unsubscribe S _ _).2
      unfold Switchboard.unsubscribe
      split
      · exact .refl b
      · exact withdraw hS _ b
  | channel => exact openChannel hS _ _ _ b
  | receive =>
      show Untold phone b (b.receive _).2
      unfold Switchboard.receive
      split
      · exact .refl b
      · exact ⟨rfl, rfl, rfl, rfl⟩
  | drop => exact ⟨rfl, rfl, rfl, rfl⟩
  | cancel => exact withdraw hS _ b
  | publish => contradiction
  | update => contradiction
  | setDefault => exact moving hS (Switchboard.moving S _ b)
  | validateSlot | listenerCount | compare | inspect => exact .refl b
  | source request => exact ⟨rfl, rfl, hS.act request b.source, rfl⟩

/-- A command that calls nobody tells nothing. -/
theorem obey (invoke : Invoke σ ε) (l : Option String) {c : Command ε} (hc : c.quiet = true)
    (b : Switchboard σ ε) : Untold phone b (b.obey S invoke l c).2 := by
  have hattempt : Untold phone b (b.attempt S invoke c).2 := by
    unfold Command.quiet at hc
    unfold attempt
    split at hc
    · next ha =>
        rw [ha]
        exact perform hS invoke b hc
    · next ha =>
        rw [ha]
        exact .refl b
  exact hattempt.trans (.note rfl (Event.accepted?_did (Command.update?_of_quiet hc) l _) _)

theorem launch (kind : Kind) (slot : Slot) (p : Payload) (b : Switchboard σ ε) :
    Untold phone b (b.launch S kind slot p) := by
  have hgathered : Untold phone b (b.gathered kind slot p) :=
    ⟨List.filterMap_cons_none rfl, List.filterMap_cons_none rfl, rfl, rfl⟩
  rw [launch_eq]
  exact hgathered.trans (stopAll hS _ _)

end

end Untold

/-! ## how an update ends -/

/-- Whether an update is of a slot of its kind.  Account changes are of no slot. -/
def Acceptable (g : Registry) (slot : Slot) (p : Payload) : Prop :=
  p.kind = .iccAccount ∨ g.validateSlot p.kind slot = .ok ()

/-- The slots of a kind begin at its lowest and end at the number of slots. -/
theorem acceptable_iff {g : Registry} (hcount : g.slotCount ≠ Int32.maxValue) {slot : Slot}
    {p : Payload} :
    Acceptable g slot p ↔
      p.kind = .iccAccount ∨ p.kind.minSlot ≤ slot ∧ slot ≤ g.slotCount := by
  simp only [Acceptable, Registry.validateSlot_eq_ok_iff, hcount, ne_eq, not_false_eq_true,
    and_true]

/-- How an update can end. -/
inductive Updating (S : Source σ ε) (invoke : Invoke σ ε) (slot : Slot) (p : Payload)
    (b : Switchboard σ ε) : Except Failure Nat → Switchboard σ ε → Prop where
  /-- It is only delivered. -/
  | announced (hk : p.kind = .iccAccount)
      (hn : (b.publish S invoke .iccAccount none p).1 = .ok n) :
      Updating S invoke slot p b (.ok n) (b.publish S invoke .iccAccount none p).2
  /-- It is of no slot of its kind. -/
  | unfit (h : ¬ Acceptable b.registry slot p) :
      Updating S invoke slot p b (.error (.slotOutOfRange slot p.kind)) b
  /-- It is taken in, and nothing in it is news. -/
  | repeated (hk : p.kind ≠ .iccAccount) (h : Acceptable b.registry slot p) :
      Updating S invoke slot p b (.ok 0) (b.report S slot p).2
  /-- It is taken in, and then the news is delivered. -/
  | told (hk : p.kind ≠ .iccAccount) (h : Acceptable b.registry slot p)
      (hn : ((b.report S slot p).2.publish S invoke p.kind (some slot) q).1 = .ok n) :
      Updating S invoke slot p b (.ok n)
        ((b.report S slot p).2.publish S invoke p.kind (some slot) q).2

/-- A publish that is in order does not fail. -/
theorem publish_succeeds (invoke : Invoke σ ε) {b : Switchboard σ ε} {kind : Kind}
    {slot : Option Slot} {p : Payload} (h : Permitted b.registry kind slot p) :
    ∃ n, (b.publish S invoke kind slot p).1 = .ok n := by
  unfold publish
  rw [checkPublish_of_permitted h]
  exact ⟨_, rfl⟩

/-- An update ends in one of these ways: the news in it is of its kind, so to deliver it is in
order. -/
theorem updating (hS : S.Keeps phone) (invoke : Invoke σ ε) (slot : Slot) (p : Payload)
    (b : Switchboard σ ε) :
    Updating S invoke slot p b (b.update S invoke slot p).1 (b.update S invoke slot p).2 := by
  unfold update
  by_cases hk : p.kind = .iccAccount
  · rw [if_pos hk]
    have hpermitted : Permitted b.registry .iccAccount none p := ⟨hk, nofun⟩
    obtain ⟨n, hn⟩ := publish_succeeds (S := S) invoke hpermitted
    rw [hn]
    exact .announced hk hn
  rw [if_neg hk]
  by_cases hs : b.registry.validateSlot p.kind slot = .ok ()
  · rw [hs]
    have hnews : (b.report S slot p).1 = ((phone b.source).report slot p).1 :=
      hS.news slot p b.source
    have hrepeated : Updating S invoke slot p b (.ok 0) (b.report S slot p).2 :=
      .repeated hk (.inr hs)
    have htold : ∀ q n, ((b.report S slot p).2.publish S invoke p.kind (some slot) q).1 = .ok n →
        Updating S invoke slot p b (.ok n)
          ((b.report S slot p).2.publish S invoke p.kind (some slot) q).2 :=
      fun _ _ => .told hk (.inr hs)
    have hregistry : (b.report S slot p).2.registry = b.registry := rfl
    revert hnews hrepeated htold hregistry
    rcases b.report S slot p with ⟨_ | q, b'⟩
    · exact fun _ hrepeated _ _ => hrepeated
    · intro hnews _ htold hregistry
      simp only at hnews hregistry htold ⊢
      have hpermitted : Permitted b'.registry p.kind (some slot) q := by
        refine ⟨Phone.kind_of_report hnews.symm, fun s hslot _ => ?_⟩
        cases hslot
        rw [hregistry]
        exact hs
      obtain ⟨n, hn⟩ := publish_succeeds (S := S) invoke hpermitted
      rw [hn]
      exact htold q n hn
  · rw [Registry.validateSlot_of_not_ok hs]
    exact .unfit (not_or.mpr ⟨hk, hs⟩)

namespace Updating

variable {invoke : Invoke σ ε} {slot : Slot} {p : Payload} {b b' : Switchboard σ ε}
  {o : Except Failure Nat} (h : Updating S invoke slot p b o b')
include h

/-- An update that is of no slot of its kind is refused before it is taken in. -/
theorem refused (hp : ¬ Acceptable b.registry slot p) :
    o = .error (.slotOutOfRange slot p.kind) ∧ b' = b := by
  cases h with
  | announced hk => exact absurd (.inl hk) hp
  | unfit => exact ⟨rfl, rfl⟩
  | repeated _ ha | told _ ha => exact absurd ha hp

/-- An update that is of a slot of its kind does not fail. -/
theorem succeeds (hp : Acceptable b.registry slot p) : ∃ n, o = .ok n := by
  cases h with
  | announced | repeated | told => exact ⟨_, rfl⟩
  | unfit ha => exact absurd hp ha

/-- An update is taken in before anybody is called. -/
theorem suffix (hi : Proper S invoke) (hp : Acceptable b.registry slot p)
    (hk : p.kind ≠ .iccAccount) : ∃ news, (.updated slot p news :: b.trace) <:+ b'.trace := by
  cases h with
  | announced ha => exact absurd ha hk
  | unfit ha => exact absurd hp ha
  | repeated => exact ⟨_, List.suffix_refl _⟩
  | @told q n =>
      have hsettles := settles_publish hi p.kind (some slot) q (b.report S slot p).2
      exact ⟨(b.report S slot p).1, hsettles.1.suffix⟩

end Updating

/-! ## updates are completed -/

/-- Whether what was taken in was accepted, apart from the updates `us`, whose commands have
not been completed yet. -/
def Unfinished (us : List (Slot × Payload)) (b : Switchboard σ ε) : Prop :=
  (updates b.trace).Perm (us ++ accepted b.trace)

namespace Unfinished

variable {us : List (Slot × Payload)}

/-- What tells the phone nothing completes no update. -/
theorem untold {b b' : Switchboard σ ε} (h : Unfinished us b) (hu : Untold phone b b') :
    Unfinished us b' := by
  rw [Unfinished, hu.updates_eq, hu.accepted_eq]
  exact h

/-- An update that is taken in is one to be completed. -/
theorem report {b : Switchboard σ ε} (h : Unfinished us b) (slot : Slot) (p : Payload) :
    Unfinished ((slot, p) :: us) (b.report S slot p).2 :=
  h.cons (slot, p)

/-- Events that are no updates leave the account as it is. -/
theorem note {b : Switchboard σ ε} (h : Unfinished us b) {e : Event σ ε}
    (hupdate : e.update? = none) (haccepted : e.accepted? = none) : Unfinished us (b.note e) := by
  have hupdates : updates (e :: b.trace) = updates b.trace := List.filterMap_cons_none hupdate
  have hsame : accepted (e :: b.trace) = accepted b.trace := List.filterMap_cons_none haccepted
  rw [Unfinished, note_trace, hupdates, hsame]
  exact h

/-- A command that gave an update is completed. -/
theorem complete {b : Switchboard σ ε} {u : Slot × Payload} (h : Unfinished (u :: us) b)
    {c : Command ε} (hc : c.update? = some u) (l : Option String) (reply : Reply σ) :
    Unfinished us (b.note (.did l c (.ok reply))) := by
  have haccepted : accepted (.did l c (.ok reply) :: b.trace) = u :: accepted b.trace :=
    List.filterMap_cons_some hc
  rw [Unfinished, note_trace, haccepted]
  exact h.trans List.perm_middle.symm

section

variable {invoke : Invoke σ ε} (hi : ∀ {us r p b}, Unfinished us b → Unfinished us (invoke r p b).2)

include hi in
/-- Calls complete the updates that they begin. -/
theorem deliverAll (p : Payload) (rs : List Registration) {b : Switchboard σ ε}
    (h : Unfinished us b) : Unfinished us (deliverAll invoke p rs b).2 := by
  induction rs generalizing b with
  | nil => exact h
  | cons r rs ih =>
      refine ih (b := (b.turn invoke p r rs).2) ?_
      cases ha : (b.comeTo r rs).1 with
      | true =>
          rw [turn_of_armed invoke p ha]
          exact hi h
      | false =>
          rw [turn_of_not_armed invoke p ha]
          exact h

variable (hS : S.Keeps phone) {b : Switchboard σ ε} (h : Unfinished us b)
include hS hi h

/-- A publish completes the updates of those whom it calls. -/
theorem publish (kind : Kind) (slot : Option Slot) (p : Payload) :
    Unfinished us (b.publish S invoke kind slot p).2 := by
  unfold Switchboard.publish
  split
  · exact h
  · exact deliverAll hi p _ (h.untold (Untold.launch hS _ _ p b))

/-- A command that gives an update is completed. -/
theorem updating {c : Command ε} {slot : Slot} {p : Payload} {o : Except Failure Nat}
    {b' : Switchboard σ ε} (hc : c.action = .ok (.update slot p))
    (hu : Updating S invoke slot p b o b') (l : Option String) :
    Unfinished us (b'.note (.did l c (o.map .count))) := by
  have hupdate : c.update? = if p.kind = .iccAccount then none else some (slot, p) := by
    unfold Command.update?
    rw [hc]
  cases hu with
  | announced hk =>
      rw [if_pos hk] at hupdate
      exact (publish hi hS h _ _ p).note rfl (Event.accepted?_did hupdate l _)
  | unfit => exact h.note rfl rfl
  | repeated hk =>
      rw [if_neg hk] at hupdate
      exact (h.report slot p).complete hupdate l _
  | told hk =>
      rw [if_neg hk] at hupdate
      exact (publish hi hS (h.report slot p) _ _ _).complete hupdate l _

/-- A command completes its own update last. -/
theorem obey (l : Option String) (c : Command ε) : Unfinished us (b.obey S invoke l c).2 := by
  cases hc : c.quiet with
  | true => exact h.untold (Untold.obey hS invoke l hc b)
  | false =>
      unfold Command.quiet at hc
      unfold Switchboard.obey attempt
      split at hc
      · next a ha =>
          rw [ha]
          cases a with
          | publish kind slot p =>
              have hupdate : c.update? = none := by
                unfold Command.update?
                rw [ha]
              exact (publish hi hS h kind slot p).note rfl (Event.accepted?_did hupdate l _)
          | update slot p =>
              exact updating hi hS h ha (Switchboard.updating hS invoke slot p b) l
          | _ => contradiction
      · contradiction

/-- A listener completes the updates that it gives, also when it panics. -/
theorem moveAll (l : Option String) (ms : List (Move ε)) :
    Unfinished us (b.moveAll S invoke l ms).2 := by
  induction ms generalizing b with
  | nil => exact h
  | cons m ms ih =>
      cases m with
      | panic => exact h
      | command c => exact ih (obey hi hS h l c)

end

section

variable (hS : S.Keeps phone) (react : React σ ε) (limit : Nat)
include hS

/-- Calls complete the updates that are given in them. -/
theorem hear {r : Registration} {p : Payload} {b : Switchboard σ ε} (h : Unfinished us b) :
    Unfinished us (hear S react limit r p b).2 := by
  induction limit generalizing us r p b with
  | zero =>
      have huntold : Untold phone b (b.hand r p).2 := .hand r p b
      unfold Switchboard.hear handOver
      simp only
      split <;> exact h.untold huntold
  | succ limit ih =>
      have huntold : Untold phone b (b.hand r p).2 := .hand r p b
      unfold Switchboard.hear handOver
      simp only
      split
      · exact moveAll ih hS (h.untold huntold) _ _
      · exact h.untold huntold

/-- Between commands from outside every update has been completed. -/
theorem run (cs : List (Command ε)) {b : Switchboard σ ε} (h : Unfinished us b) :
    Unfinished us (run S react limit cs b) := by
  induction cs generalizing b with
  | nil => exact h
  | cons c cs ih => exact ih (obey (hear hS react limit) hS h none c)

end

end Unfinished

/-! ## what the phone remembers -/

/-- Whether the phone remembers of each slot what the updates say of it. -/
structure Recalls (phone : σ → Phone) (settings : SlotSettings) (b : Switchboard σ ε) :
    Prop where
  slotCount_eq : b.registry.slotCount = settings.slotCount
  fits : ∀ u ∈ updates b.trace,
    u.2.kind ≠ .iccAccount ∧ Acceptable (.ofSettings settings) u.1 u.2
  sorted : (phone b.source).cache.Sorted
  recalled (slot : Slot) : Recalled (updates b.trace) slot ((phone b.source).cache.lookup slot)

namespace Recalls

variable {settings : SlotSettings}

/-- The settings tell which updates are acceptable. -/
theorem acceptable {b : Switchboard σ ε} (h : Recalls phone settings b) {slot : Slot}
    {p : Payload} : Acceptable b.registry slot p ↔ Acceptable (.ofSettings settings) slot p := by
  unfold Acceptable
  rw [Registry.validateSlot_congr (g := .ofSettings settings) h.slotCount_eq]

/-- At the start nothing was reported. -/
theorem fresh {source : σ} (h : (phone source).cache = []) :
    Recalls phone settings (fresh settings source : Switchboard σ ε) where
  slotCount_eq := rfl
  fits := List.forall_mem_nil _
  sorted := by
    show (phone source).cache.Sorted
    rw [h]
    exact Cache.sorted_nil
  recalled slot := by
    show Recalled [] slot ((phone source).cache.lookup slot)
    rw [h]
    exact List.forall_mem_nil _

/-- What tells the phone nothing leaves what it recalls. -/
theorem untold {b b' : Switchboard σ ε} (hb : Recalls phone settings b)
    (h : Untold phone b b') : Recalls phone settings b' where
  slotCount_eq := h.slotCount_eq.trans hb.slotCount_eq
  fits := by
    rw [h.updates_eq]
    exact hb.fits
  sorted := by
    rw [h.cache_eq]
    exact hb.sorted
  recalled slot := by
    rw [h.updates_eq, h.cache_eq]
    exact hb.recalled slot

/-- An update that has been checked is taken in. -/
theorem report (hS : S.Keeps phone) {b : Switchboard σ ε} (hb : Recalls phone settings b)
    {slot : Slot} {p : Payload} (hk : p.kind ≠ .iccAccount)
    (hs : b.registry.validateSlot p.kind slot = .ok ()) :
    Recalls phone settings (b.report S slot p).2 where
  slotCount_eq := hb.slotCount_eq
  fits := by
    exact List.forall_mem_cons.mpr ⟨⟨hk, hb.acceptable.mp (.inr hs)⟩, hb.fits⟩
  sorted := by
    show (phone (S.report slot p b.source).2).cache.Sorted
    rw [hS.report]
    exact Phone.sorted_report hb.sorted slot p
  recalled t := by
    show Recalled ((slot, p) :: updates b.trace) t
      ((phone (S.report slot p b.source).2).cache.lookup t)
    rw [hS.report]
    exact Phone.recalled_report hb.sorted hb.recalled hk slot t

end Recalls

/-- Only an update that has been checked changes what the phone recalls. -/
theorem steady_recalls (hS : S.Keeps phone) (settings : SlotSettings) :
    Steady S (Recalls phone settings) where
  obey invoke l _ hc hb := hb.untold (.obey hS invoke l hc _)
  report hk hs hb := hb.report hS hk hs
  launch kind slot p hb := hb.untold (.launch hS kind slot p _)
  comeTo r rs hb := hb.untold (.comeTo r rs _)
  hand r p hb := hb.untold (.hand r p _)
  land hb := hb.untold ⟨rfl, rfl, rfl, rfl⟩
  remark _ _ _ hb := ⟨hb.slotCount_eq, hb.fits, hb.sorted, hb.recalled⟩

/-- **The last update wins**, whatever the listeners do while an update is delivered.

An update is of a slot of its kind if the slot is in the range of the kind, which ends at the
number of slots.  Let a run start before anything was reported to the phone.  What was taken
in is then, up to the order, what was accepted, and at every moment of the run:

* an update of a slot that is none of its kind would be refused as an invalid parameter and
  change nothing;
* any other update would succeed, and would be taken in before anything else happens unless
  it is an account change;
* every update that was taken in is of this sort;
* the phone has an entry for each slot that was updated and for no other, and the entry has
  for each kind what the update of the slot and the kind that began last has told. -/
theorem cache_last_writer_wins (hS : S.Keeps phone) (react : React σ ε) (limit : Nat)
    (cs : List (Command ε)) (settings : SlotSettings) {source : σ}
    (hsource : (phone source).cache = []) :
    (settings.slotCount ≠ Int32.maxValue → ∀ slot p, Acceptable (.ofSettings settings) slot p ↔
      p.kind = .iccAccount ∨ p.kind.minSlot ≤ slot ∧ slot ≤ settings.slotCount) ∧
    (updates (run S react limit cs (fresh settings source)).trace).Perm
      (accepted (run S react limit cs (fresh settings source)).trace) ∧
    ∀ m, Moment S react limit cs (fresh settings source) m →
      (∀ depth slot p, ¬ Acceptable (.ofSettings settings) slot p →
        ∃ e, m.update S (hear S react depth) slot p = (.error e, m) ∧
          e.category = .invalidParameter) ∧
      (∀ depth slot p, Acceptable (.ofSettings settings) slot p →
        (∃ n, (m.update S (hear S react depth) slot p).1 = .ok n) ∧
          (p.kind ≠ .iccAccount → ∃ news, (.updated slot p news :: m.trace) <:+
            (m.update S (hear S react depth) slot p).2.trace)) ∧
      (∀ u ∈ updates m.trace,
        u.2.kind ≠ .iccAccount ∧ Acceptable (.ofSettings settings) u.1 u.2) ∧
      (phone m.source).cache.Sorted ∧
      ∀ slot, Recalled (updates m.trace) slot ((phone m.source).cache.lookup slot) := by
  have hstart : Unfinished [] (fresh settings source : Switchboard σ ε) := List.Perm.nil
  refine ⟨fun hcount slot p => acceptable_iff hcount, hstart.run hS react limit cs,
    fun m hm => ?_⟩
  have hrecalls := (steady_recalls hS settings).moment hm (.fresh hsource)
  refine ⟨fun depth slot p hp => ?_, fun depth slot p hp => ?_, hrecalls.fits, hrecalls.sorted,
    hrecalls.recalled⟩
  · have hupdating := updating hS (hear S react depth) slot p m
    obtain ⟨houtcome, hboard⟩ := hupdating.refused (hrecalls.acceptable.not.mpr hp)
    exact ⟨_, Prod.ext houtcome hboard, rfl⟩
  · have hupdating := updating hS (hear S react depth) slot p m
    have hacceptable := hrecalls.acceptable.mpr hp
    exact ⟨hupdating.succeeds hacceptable,
      hupdating.suffix (proper_hear S react depth) hacceptable⟩

namespace Sample

def call (number : String) : Command Bench.Control :=
  ask (.update 0 (.callState ⟨.ringing, number⟩))

/-- A listener that hears of a call and reports another one. -/
def forwarding : React Bench Bench.Control := fun _ _ _ => [.command (call "200")]

def calls : List (Command Bench.Control) :=
  [ask (.on .callState "screen" none .oneShot), call "100"]

/-- The second call was reported within the delivery of the first. -/
def forwarded : Switchboard Bench Bench.Control :=
  run Bench.source forwarding 1 calls (fresh settings bench)

end Sample

/-- The second call began last, so it is the one that is known. -/
theorem cache_last_writer_wins_forwarded :
    Bench.source.Keeps Bench.phone ∧ (Bench.phone Sample.bench).cache = [] ∧
      accepted Sample.forwarded.trace =
        [(0, .callState ⟨.ringing, "100"⟩), (0, .callState ⟨.ringing, "200"⟩)] ∧
      latest 0 .callState (updates Sample.forwarded.trace) =
        some (.callState ⟨.ringing, "200"⟩) ∧
      Recalled (updates Sample.forwarded.trace) 0
        ((Bench.phone Sample.forwarded.source).cache.lookup 0) :=
  have hcache : (Bench.phone Sample.bench).cache = [] := rfl
  have h := cache_last_writer_wins Bench.source_keeps Sample.forwarding 1 Sample.calls
    Sample.settings hcache
  ⟨Bench.source_keeps, hcache, rfl, rfl, (h.2.2 _ (moment_run _ _ _ _ _)).2.2.2.2 0⟩

end Switchboard

end SlotWatch

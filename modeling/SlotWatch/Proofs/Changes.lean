import Mathlib.Data.List.Destutter
import SlotWatch.Proofs.LastUpdate
import SlotWatch.Proofs.Shape

/-!
# SlotWatch.Proofs.Changes

Updates of data connections publish exactly the changes.

1. News that a source has taken in is delivered at once: on the trace the report is followed
   directly by the publish (`Told`).  So what updates have published can be read off the trace
   (`announced`), though listeners and callers publish as well.
2. An update of a data connection is no news just if it repeats the update of the slot before
   it (`Recalls.report_eq_none_iff`), however far the delivery of that one has come.
3. So what is announced of the data connections of a slot are the updates, without those that
   equal their predecessor (`TellsChanges`), and an update either repeats its predecessor and
   does nothing or is published before anything else happens
   (`data_connection_changes_published`).
-/

namespace SlotWatch

variable {σ ε : Type}

/-! ## lists without repetitions in a row -/

section

variable {α : Type} [DecidableEq α] {a : α} {l : List α}

/-- A value that equals the next is left out. -/
theorem destutter_cons_of_head? (h : l.head? = some a) :
    (a :: l).destutter (· ≠ ·) = l.destutter (· ≠ ·) := by
  obtain ⟨l', rfl⟩ := List.head?_eq_some_iff.mp h
  rw [List.destutter_cons', List.destutter'_cons_neg _ (by simp), List.destutter_cons']

/-- A value that differs from the next stays. -/
theorem destutter_cons_of_head?_ne (h : l.head? ≠ some a) :
    (a :: l).destutter (· ≠ ·) = a :: l.destutter (· ≠ ·) := by
  cases l with
  | nil => rfl
  | cons b l =>
      have hne : a ≠ b := fun hab => h (congrArg some hab.symm)
      rw [List.destutter_cons', List.destutter'_cons_pos _ hne, List.destutter_cons']

end

/-! ## values -/

/-- The values of a kind that were told of a slot. -/
def values (kind : Kind) (slot : Slot) (us : List (Slot × Payload)) : List kind.Value :=
  us.filterMap fun u => if u.1 = slot then u.2.extract? kind else none

/-- What is told of another slot adds no value. -/
theorem values_cons_of_slot_ne {slot t : Slot} (h : t ≠ slot) (kind : Kind) (p : Payload)
    (us : List (Slot × Payload)) : values kind slot ((t, p) :: us) = values kind slot us :=
  List.filterMap_cons_none (if_neg h)

/-- What is told of another kind adds no value. -/
theorem values_cons_of_none {kind : Kind} {p : Payload} (h : p.extract? kind = none)
    (slot t : Slot) (us : List (Slot × Payload)) :
    values kind slot ((t, p) :: us) = values kind slot us :=
  List.filterMap_cons_none (by simp [h])

/-- What is told of the kind and the slot is the latest value. -/
theorem values_cons {kind : Kind} {p : Payload} {v : kind.Value} (h : p.extract? kind = some v)
    (slot : Slot) (us : List (Slot × Payload)) :
    values kind slot ((slot, p) :: us) = v :: values kind slot us :=
  List.filterMap_cons_some (by simp [h])

/-- The latest value is that of the latest update. -/
theorem head?_values (slot : Slot) (kind : Kind) (us : List (Slot × Payload)) :
    (values kind slot us).head? = (latest slot kind us).bind (·.extract? kind) := by
  induction us with
  | nil => rfl
  | cons u us ih =>
      obtain ⟨t, p⟩ := u
      rw [latest_cons]
      by_cases hslot : t = slot
      · by_cases hkind : p.kind = kind
        · obtain ⟨v, hv⟩ := Option.isSome_iff_exists.mp p.isSome_extract?
          subst hslot hkind
          rw [values_cons hv, if_pos ⟨rfl, rfl⟩, List.head?_cons, Option.bind_some, hv]
        · have hnone : p.extract? kind = none := by
            cases kind <;> cases p <;> first | rfl | exact absurd rfl hkind
          rw [values_cons_of_none hnone, if_neg (fun h => hkind h.2), ih]
      · rw [values_cons_of_slot_ne hslot, if_neg (fun h => hslot h.1), ih]

/-! ## what updates publish -/

/-- Whether an event says that the source has taken in news. -/
def Event.isNews : Event σ ε → Bool
  | .updated _ _ (some _) => true
  | _ => false

/-- What an event says that an update has published, given what happened before it. -/
def Event.announced? (before : List (Event σ ε)) : Event σ ε → Option (Slot × Payload)
  | .published _ slot q _ => if before.head?.any Event.isNews then some (slot, q) else none
  | _ => none

/-- What updates have published, latest first: the publishes that began directly after the
source had taken in news. -/
def announced : List (Event σ ε) → List (Slot × Payload)
  | [] => []
  | e :: t => (e.announced? t).toList ++ announced t

/-- Whether all news was delivered at once. -/
inductive Told : List (Event σ ε) → Prop where
  | start : Told []
  | other (he : e.isNews = false) (h : Told t) : Told (e :: t)
  | told (slot : Slot) (p q : Payload) (called : List Registration) (h : Told t) :
      Told (.published p.kind slot q called :: .updated slot p (some q) :: t)

namespace Told

variable {t : List (Event σ ε)} (h : Told t)
include h

/-- News that was delivered is not the last that happened. -/
theorem not_news_before : t.head?.any Event.isNews = false := by
  cases h with
  | start => rfl
  | other he => exact he
  | told => rfl

/-- What comes next, unless it is the publish of news, announces nothing. -/
theorem announced_cons (e : Event σ ε) : announced (e :: t) = announced t := by
  have hnone : e.announced? t = none := by
    cases e <;> simp [Event.announced?, h.not_news_before]
  rw [announced, hnone]
  rfl

/-- News that is delivered at once is announced. -/
theorem announced_told (kind : Kind) (slot s : Slot) (p q news : Payload)
    (called : List Registration) :
    announced (.published kind slot q called :: .updated s p (some news) :: t) =
      (slot, q) :: announced t := by
  rw [announced, h.announced_cons]
  rfl

/-- Nothing is taken in for a while. -/
theorem aside {new : List (Event σ ε)} (hnew : ∀ e ∈ new, e.update? = none) :
    Told (new ++ t) ∧ announced (new ++ t) = announced t := by
  induction new with
  | nil => exact ⟨h, rfl⟩
  | cons e new ih =>
      obtain ⟨he, hnew⟩ := List.forall_mem_cons.mp hnew
      obtain ⟨htold, hannounced⟩ := ih hnew
      have hnews : e.isNews = false := by cases e <;> first | rfl | contradiction
      refine ⟨.other hnews htold, ?_⟩
      rw [List.cons_append, htold.announced_cons, hannounced]

end Told

/-- Whether what was announced of data connections are the changes. -/
structure TellsChanges (t : List (Event σ ε)) : Prop where
  told : Told t
  changes (slot : Slot) : values .dataConnection slot (announced t) =
    (values .dataConnection slot (updates t)).destutter (· ≠ ·)

namespace TellsChanges

variable {t : List (Event σ ε)}

theorem start : TellsChanges ([] : List (Event σ ε)) := ⟨.start, fun _ => rfl⟩

/-- Where no update is taken in nothing is announced. -/
theorem aside (h : TellsChanges t) {t' : List (Event σ ε)} (hs : t <:+ t')
    (hu : updates t' = updates t) : TellsChanges t' := by
  obtain ⟨new, rfl⟩ := hs
  have hnone : updates new = [] := by
    rw [updates, List.filterMap_append] at hu
    exact List.append_left_eq_self.mp hu
  obtain ⟨htold, hannounced⟩ := h.told.aside (List.filterMap_eq_nil_iff.mp hnone)
  refine ⟨htold, fun slot => ?_⟩
  rw [hannounced, hu]
  exact h.changes slot

/-- An update that equals its predecessor is taken in. -/
theorem repeated (h : TellsChanges t) {slot : Slot} {d : State.DataConnection}
    (hd : (values .dataConnection slot (updates t)).head? = some d) :
    TellsChanges (.updated slot (.dataConnection d) none :: t) := by
  refine ⟨.other rfl h.told, fun s => ?_⟩
  have hupdates : updates (.updated slot (.dataConnection d) none :: t) =
      (slot, .dataConnection d) :: updates t := rfl
  rw [h.told.announced_cons, h.changes, hupdates]
  by_cases hs : slot = s
  · subst hs
    rw [values_cons rfl, destutter_cons_of_head? hd]
  · rw [values_cons_of_slot_ne hs]

/-- News is taken in and its publish begins. -/
theorem tell (h : TellsChanges t) {slot : Slot} {p q : Payload} (called : List Registration)
    (hq : q.kind = p.kind)
    (hd : ∀ d, p = .dataConnection d →
      q = p ∧ (values .dataConnection slot (updates t)).head? ≠ some d) :
    TellsChanges (.published p.kind slot q called :: .updated slot p (some q) :: t) := by
  refine ⟨.told slot p q called h.told, fun s => ?_⟩
  have hupdates : updates (.published p.kind slot q called :: .updated slot p (some q) :: t) =
      (slot, p) :: updates t := rfl
  rw [h.told.announced_told, hupdates]
  by_cases hs : slot = s
  · subst hs
    cases hp : p.extract? .dataConnection with
    | some d =>
        have hpd : p = .dataConnection d := (Payload.extract?_eq_some_iff.mp hp).symm
        obtain ⟨rfl, hne⟩ := hd d hpd
        rw [values_cons hp, values_cons hp, destutter_cons_of_head?_ne hne, h.changes]
    | none =>
        have hnone : q.extract? .dataConnection = none := by
          cases p <;> cases q <;> first | rfl | contradiction
        rw [values_cons_of_none hp, values_cons_of_none hnone, h.changes]
  · rw [values_cons_of_slot_ne hs, values_cons_of_slot_ne hs, h.changes]

end TellsChanges

namespace Switchboard

variable {S : Source σ ε} {phone : σ → Phone}

section

variable {settings : SlotSettings} {b : Switchboard σ ε}

/-! ## what is news -/

/-- The phone decides what is news, and what of it may be disclosed. -/
theorem report_eq (hS : S.Keeps phone) (slot : Slot) (p : Payload) (b : Switchboard σ ε) :
    (b.report S slot p).1 =
      if (phone b.source).repeats slot p then none else some ((phone b.source).disclose p) := by
  have hnews : (b.report S slot p).1 = ((phone b.source).report slot p).1 :=
    hS.news slot p b.source
  rw [hnews, Phone.report]
  split <;> rfl

theorem report_trace (slot : Slot) (p : Payload) (b : Switchboard σ ε) :
    (b.report S slot p).2.trace = .updated slot p (b.report S slot p).1 :: b.trace := rfl

/-- A data connection is no news just if it is the one that was reported last. -/
theorem Recalls.repeats_iff (h : Recalls phone settings b) (slot : Slot) (p : Payload) :
    (phone b.source).repeats slot p = true ↔
      ∃ d, p = .dataConnection d ∧
        (values .dataConnection slot (updates b.trace)).head? = some d := by
  have hknown := (h.recalled slot).known .dataConnection
  rw [head?_values, ← hknown]
  cases p with
  | dataConnection d =>
      simp only [Phone.repeats, Phone.state, beq_iff_eq, Payload.dataConnection.injEq,
        exists_eq_left']
      cases hd : (((phone b.source).cache.lookup slot).getD {}).dataConnection with
      | none => simp [SlotState.known, hd]
      | some d' => simp [SlotState.known, hd, Payload.extract?]
  | _ => simp [Phone.repeats]

/-- No news is a data connection that equals the one before. -/
theorem Recalls.report_eq_none_iff (hS : S.Keeps phone) (h : Recalls phone settings b)
    (slot : Slot) (p : Payload) :
    (b.report S slot p).1 = none ↔
      ∃ d, p = .dataConnection d ∧
        (values .dataConnection slot (updates b.trace)).head? = some d := by
  rw [report_eq hS, ← h.repeats_iff]
  split <;> simp_all

/-- A data connection is told as it was reported. -/
theorem report_dataConnection (hS : S.Keeps phone) {slot : Slot} {d : State.DataConnection}
    {q : Payload} (h : (b.report S slot (.dataConnection d)).1 = some q) :
    q = .dataConnection d := by
  rw [report_eq hS] at h
  split at h
  · contradiction
  · exact (Option.some.inj h).symm

/-! ## at every moment -/

/-- Whether the phone remembers what it was told, and changes were announced. -/
structure Announces (phone : σ → Phone) (settings : SlotSettings) (b : Switchboard σ ε) :
    Prop where
  recalls : Recalls phone settings b
  tellsChanges : TellsChanges b.trace

/-- The delivery of news begins. -/
theorem tellsChanges_launch (hS : S.Keeps phone) (hb : Announces phone settings b) {slot : Slot} {p q : Payload}
    (hnews : (b.report S slot p).1 = some q) (hq : q.kind = p.kind) :
    TellsChanges ((b.report S slot p).2.launch S p.kind slot q).trace := by
  have hgathered : TellsChanges ((b.report S slot p).2.gathered p.kind slot q).trace := by
    rw [gathered_trace, report_trace, hnews]
    refine hb.tellsChanges.tell _ hq fun d hp => ?_
    subst hp
    refine ⟨report_dataConnection hS hnews, fun hlast => ?_⟩
    rw [(hb.recalls.report_eq_none_iff hS slot _).mpr ⟨d, rfl, hlast⟩] at hnews
    contradiction
  rw [launch_eq]
  exact hgathered.aside (suffix_stopAll S _ _) (Untold.stopAll hS _ _).updates_eq

/-- Only the report of an update and its publish have to do with changes. -/
theorem lasting_announces (hS : S.Keeps phone) (settings : SlotSettings) :
    Lasting S (fun _ => True) (fun _ => True) (Announces phone settings) where
  live _ _ := trivial
  obey {b} invoke l c hc _ hb := by
    have hreaches : Reaches S b (b.obey S invoke l c).2 := .single (.obey invoke l c hc b)
    exact ⟨(steady_recalls hS settings).obey invoke l c hc hb.recalls,
      hb.tellsChanges.aside hreaches.suffix (Untold.obey hS invoke l hc b).updates_eq⟩
  report {b slot p} hkind hslot hnone hb := by
    refine ⟨(steady_recalls hS settings).report hkind hslot hb.recalls, ?_⟩
    cases hnews : (b.report S slot p).1 with
    | some q =>
        have hsame := hS.news slot p b.source
        exact absurd (Phone.kind_of_report (hsame.symm.trans hnews)) (hnone q hnews)
    | none =>
        obtain ⟨d, rfl, hlast⟩ := (hb.recalls.report_eq_none_iff hS slot p).mp hnews
        rw [report_trace, hnews]
        exact hb.tellsChanges.repeated hlast
  tell hkind hslot hnews hq hb :=
    ⟨(steady_recalls hS settings).launch _ _ _
        ((steady_recalls hS settings).report hkind hslot hb.recalls),
      tellsChanges_launch hS hb hnews hq⟩
  launch slot _ hb :=
    ⟨(steady_recalls hS settings).launch _ _ _ hb.recalls,
      hb.tellsChanges.aside (suffix_launch S _ slot _ _) (Untold.launch hS _ _ _ _).updates_eq⟩
  skip rs _ _ hb := ⟨(steady_recalls hS settings).comeTo _ rs hb.recalls, hb.tellsChanges⟩
  call {b r} rs p _ _ hb := by
    have hcome := (steady_recalls hS settings).comeTo r rs hb.recalls
    have hhand : Untold phone (b.comeTo r rs).2 ((b.comeTo r rs).2.hand r p).2 := .hand r p _
    refine ⟨(steady_recalls hS settings).hand r p hcome, hb.tellsChanges.aside ?_ hhand.updates_eq⟩
    rw [(alike_hand r p _).trace, note_trace, comeTo_trace]
    exact List.suffix_cons _ _
  land hb := ⟨(steady_recalls hS settings).land hb.recalls, hb.tellsChanges⟩
  remark l c o hb :=
    ⟨(steady_recalls hS settings).remark l c o hb.recalls,
      hb.tellsChanges.aside (List.suffix_cons _ _) rfl⟩

/-- The changes have been announced at every moment. -/
theorem announces_moment (hS : S.Keeps phone) {react : React σ ε} {limit : Nat}
    {cs : List (Command ε)} {settings : SlotSettings} {source : σ}
    (hsource : (phone source).cache = []) {m : Switchboard σ ε}
    (hm : Moment S react limit cs (fresh settings source) m) : Announces phone settings m :=
  (lasting_announces hS settings).moment (fun _ _ _ _ _ => trivial) (fun _ _ => trivial) hm
    ⟨.fresh hsource, .start⟩

/-! ## the next update -/

/-- An update without news ends when it has been taken in. -/
theorem update_of_report_none {invoke : Invoke σ ε} {slot : Slot} {p : Payload}
    (hk : p.kind ≠ .iccAccount) (hs : b.registry.validateSlot p.kind slot = .ok ())
    (hn : (b.report S slot p).1 = none) :
    b.update S invoke slot p = (.ok 0, (b.report S slot p).2) := by
  unfold update
  rw [if_neg hk, hs]
  revert hn
  rcases b.report S slot p with ⟨_ | _, b'⟩
  · exact fun _ => rfl
  · exact fun hn => absurd hn (Option.some_ne_none _)

/-- An update with news goes on as a publish. -/
theorem update_of_report_some {invoke : Invoke σ ε} {slot : Slot} {p q : Payload}
    (hk : p.kind ≠ .iccAccount) (hs : b.registry.validateSlot p.kind slot = .ok ())
    (hn : (b.report S slot p).1 = some q) :
    b.update S invoke slot p = (b.report S slot p).2.publish S invoke p.kind (some slot) q := by
  unfold update
  rw [if_neg hk, hs]
  revert hn
  rcases b.report S slot p with ⟨_ | _, b'⟩
  · exact fun hn => absurd hn.symm (Option.some_ne_none _)
  · intro hn
    rw [Option.some.inj hn]

/-- A publish is on the trace before anything that happens in it. -/
theorem suffix_publish {invoke : Invoke σ ε} (hi : Proper S invoke) {kind : Kind} {slot : Slot}
    {p : Payload} (hp : b.checkPublish kind (some slot) p = .ok ()) :
    ∃ called, (.published kind slot p called :: b.trace) <:+
      (b.publish S invoke kind (some slot) p).2.trace := by
  have hkind := kind_of_checkPublish hp
  have hdeliver := reaches_deliverAll hi (p := p) (launch_running S kind slot p b)
    fun r hr => (kind_of_mem_audience hr).trans hkind.symm
  have hlaunch : (b.gathered kind slot p).trace <:+ (b.launch S kind slot p).trace := by
    rw [launch_eq]
    exact suffix_stopAll S _ _
  refine ⟨b.audience kind slot, ?_⟩
  unfold publish
  rw [hp]
  exact hlaunch.trans hdeliver.1.suffix

section

variable (hS : S.Keeps phone) (h : Recalls phone settings b) {slot : Slot}
  {d : State.DataConnection} (hp : Acceptable (.ofSettings settings) slot (.dataConnection d))
include h hp

/-- Data connections are of slots. -/
theorem validateSlot_dataConnection :
    b.registry.validateSlot (Payload.dataConnection d).kind slot = .ok () := by
  exact (h.acceptable.mpr hp).resolve_left Kind.noConfusion

include hS

/-- An update that equals the one before it does nothing. -/
theorem update_repeated (invoke : Invoke σ ε)
    (hlast : (values .dataConnection slot (updates b.trace)).head? = some d) :
    ∃ s, phone s = phone b.source ∧
      b.update S invoke slot (.dataConnection d) =
        (.ok 0, note { b with source := s } (.updated slot (.dataConnection d) none)) := by
  have hslot := validateSlot_dataConnection h hp
  have hnone := (h.report_eq_none_iff hS slot _).mpr ⟨d, rfl, hlast⟩
  have hrepeats := (h.repeats_iff slot _).mpr ⟨d, rfl, hlast⟩
  have hphone : phone (S.report slot (.dataConnection d) b.source).2 = phone b.source := by
    rw [hS.report, Phone.report, hrepeats]
    rfl
  refine ⟨_, hphone, ?_⟩
  rw [update_of_report_none Kind.noConfusion hslot hnone, ← hnone]
  rfl

/-- Any other update is published at once. -/
theorem update_changed {invoke : Invoke σ ε} (hi : Proper S invoke)
    (hlast : (values .dataConnection slot (updates b.trace)).head? ≠ some d) :
    ∃ called, (.published .dataConnection slot (.dataConnection d) called ::
        .updated slot (.dataConnection d) (some (.dataConnection d)) :: b.trace) <:+
      (b.update S invoke slot (.dataConnection d)).2.trace := by
  have hslot := validateSlot_dataConnection h hp
  cases hnews : (b.report S slot (.dataConnection d)).1 with
  | none =>
      obtain ⟨d', hd, hlast'⟩ := (h.report_eq_none_iff hS slot _).mp hnews
      cases hd
      exact absurd hlast' hlast
  | some q =>
      obtain rfl := report_dataConnection hS hnews
      have hpublish := suffix_publish hi (checkPublish_report S hslot rfl)
      rw [report_trace, hnews] at hpublish
      rw [update_of_report_some Kind.noConfusion hslot hnews]
      exact hpublish

end

end

/-- **Updates of data connections publish exactly the changes**, whatever the listeners do
while an update is delivered.

Let a run start before anything was reported to the phone.  At every moment of it, all news
was delivered at once, and for every slot:

* the data connections that updates have published are those that were taken in, without any
  that equals the one before it;
* so two that were published one after the other differ in their state or their network;
* an update of a slot that is none of its kind would be refused and change nothing;
* an update that equals the one before it would succeed, call nobody and leave the phone as it
  is;
* any other update would be published before anything else happens. -/
theorem data_connection_changes_published (hS : S.Keeps phone) {react : React σ ε} {limit : Nat}
    {cs : List (Command ε)} {settings : SlotSettings} {source : σ}
    (hsource : (phone source).cache = []) {m : Switchboard σ ε}
    (hm : Moment S react limit cs (fresh settings source) m) :
    Told m.trace ∧
    ∀ slot,
      values .dataConnection slot (announced m.trace) =
          (values .dataConnection slot (updates m.trace)).destutter (· ≠ ·) ∧
      (values .dataConnection slot (announced m.trace)).IsChain
          (fun later earlier => later.state ≠ earlier.state ∨ later.network ≠ earlier.network) ∧
      ∀ depth d,
        (¬ Acceptable (.ofSettings settings) slot (.dataConnection d) →
          ∃ e, m.update S (hear S react depth) slot (.dataConnection d) = (.error e, m)) ∧
        (Acceptable (.ofSettings settings) slot (.dataConnection d) →
          (values .dataConnection slot (updates m.trace)).head? = some d →
          ∃ s, phone s = phone m.source ∧
            m.update S (hear S react depth) slot (.dataConnection d) =
              (.ok 0, note { m with source := s } (.updated slot (.dataConnection d) none))) ∧
        (Acceptable (.ofSettings settings) slot (.dataConnection d) →
          (values .dataConnection slot (updates m.trace)).head? ≠ some d →
          ∃ called, (.published .dataConnection slot (.dataConnection d) called ::
              .updated slot (.dataConnection d) (some (.dataConnection d)) :: m.trace) <:+
            (m.update S (hear S react depth) slot (.dataConnection d)).2.trace) := by
  have hannounces := announces_moment hS hsource hm
  obtain ⟨hrecalls, htold, hchanges⟩ := hannounces
  refine ⟨htold, fun slot => ⟨hchanges slot, ?_, fun depth d => ⟨fun hp => ?_, fun hp hlast => ?_,
    fun hp hlast => ?_⟩⟩⟩
  · rw [hchanges slot]
    refine (List.isChain_destutter _ _).imp fun later earlier hne => ?_
    by_contra hsame
    rw [not_or, not_not, not_not] at hsame
    cases later
    cases earlier
    exact hne (congrArg₂ State.DataConnection.mk hsame.1 hsame.2)
  · have hrefused := (updating hS (hear S react depth) slot (.dataConnection d) m).refused
      (hrecalls.acceptable.not.mpr hp)
    exact ⟨_, Prod.ext hrefused.1 hrefused.2⟩
  · exact update_repeated hS hrecalls hp (hear S react depth) hlast
  · exact update_changed hS hrecalls hp (proper_hear S react depth) hlast

namespace Sample

def online : State.DataConnection := ⟨.connected, .lte⟩

def offline : State.DataConnection := ⟨.disconnected, .lte⟩

def connection (d : State.DataConnection) : Command Bench.Control :=
  ask (.update 0 (.dataConnection d))

/-- A listener that restores a connection that was lost. -/
def redialing : React Bench Bench.Control := fun _ p _ =>
  if p = .dataConnection offline then [.command (connection online)] else []

def outage : List (Command Bench.Control) :=
  [ask (.on .dataConnection "dialer" none .repeating), connection online, connection online,
    connection offline, connection online]

/-- The connection was restored within the delivery of its loss, so the last report of it says
nothing new. -/
def restored : Switchboard Bench Bench.Control :=
  run Bench.source redialing 1 outage (fresh settings bench)

end Sample

/-- Of five updates the first, the loss and the repair were published. -/
theorem data_connection_changes_published_restored :
    Bench.source.Keeps Bench.phone ∧ (Bench.phone Sample.bench).cache = [] ∧
      Moment Bench.source Sample.redialing 1 Sample.outage (fresh Sample.settings Sample.bench)
        Sample.restored ∧
      values .dataConnection 0 (updates Sample.restored.trace) =
        [Sample.online, Sample.online, Sample.offline, Sample.online, Sample.online] ∧
      values .dataConnection 0 (announced Sample.restored.trace) =
        [Sample.online, Sample.offline, Sample.online] ∧
      Told Sample.restored.trace ∧
      values .dataConnection 0 (announced Sample.restored.trace) =
        (values .dataConnection 0 (updates Sample.restored.trace)).destutter (· ≠ ·) :=
  have hcache : (Bench.phone Sample.bench).cache = [] := rfl
  have hm : Moment Bench.source Sample.redialing 1 Sample.outage
      (fresh Sample.settings Sample.bench) Sample.restored := moment_run ..
  have h := data_connection_changes_published Bench.source_keeps hcache hm
  ⟨Bench.source_keeps, hcache, hm, rfl, rfl, h.1, (h.2 0).1⟩

end Switchboard

end SlotWatch

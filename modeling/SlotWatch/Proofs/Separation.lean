import SlotWatch.Proofs.Counterpart

/-!
# SlotWatch.Proofs.Separation

Kinds do not interfere.

Take a run with a source that grants everything and listeners that perform no command.  What
happens to the listeners of a kind can be told without the commands about other kinds: the run
of the other commands (`purged`) gives the same outcomes and shows the same aspect of the kind,
up to ids (`kinds_separate`).

The two runs go on side by side.  Their boards show the same aspect of the kind, and the next id
of the one tells that of the other (`Coupled`).  A command about another kind is carried out on
the first board only (`Coupled.other`), every other command on both (`Coupled.own`).
-/

namespace SlotWatch

variable {σ ε : Type}

/-! ## commands about other kinds -/

/-- Whether an action is about another kind.  To cancel an id is, if the id is given out for
another kind, according to a trace. -/
def Action.isForeign (kind : Kind) (trace : List (Event σ ε)) : Action ε → Bool
  | .cancel id => id ∈ issued trace ∧ id ∉ givenFor kind trace
  | a => a.kind?.any (· != kind)

def Command.isForeign (kind : Kind) (trace : List (Event σ ε)) (c : Command ε) : Bool :=
  match c.action with
  | .ok a => a.isForeign kind trace
  | .error _ => false

/-- The commands without those about other kinds, with the ids that there are without them. -/
def purged (kind : Kind) (trace : List (Event σ ε)) (cs : List (Command ε)) : List (Command ε) :=
  (cs.filter (!·.isForeign kind trace)).map (Command.relabel (renumbered kind trace))

section

variable {kind : Kind} {trace : List (Event σ ε)} {c : Command ε} {cs : List (Command ε)}

/-- A command about another kind is left out. -/
theorem purged_cons_of_foreign (h : c.isForeign kind trace = true) :
    purged kind trace (c :: cs) = purged kind trace cs := by
  simp [purged, h]

theorem purged_cons_of_own (h : c.isForeign kind trace = false) :
    purged kind trace (c :: cs) =
      c.relabel (renumbered kind trace) :: purged kind trace cs := by
  simp [purged, h]

end

section

variable {kind : Kind} {trace : List (Event σ ε)} {a : Action ε}

/-- An action about another kind is not about the kind. -/
theorem Action.kind?_ne_of_isForeign (h : a.isForeign kind trace = true) {about : Kind}
    (habout : a.kind? = some about) : about ≠ kind := by
  unfold Action.isForeign at h
  split at h
  · contradiction
  · simpa [habout] using h

/-- An action that is not about another kind is about the kind, if about any. -/
theorem Action.kind?_eq_of_not_isForeign (h : a.isForeign kind trace = false) {about : Kind}
    (habout : a.kind? = some about) : about = kind := by
  unfold Action.isForeign at h
  split at h
  · contradiction
  · simpa [habout] using h

theorem Command.kind?_eq_of_not_isForeign {c : Command ε} (h : c.isForeign kind trace = false)
    {about : Kind} (habout : c.kind? = some about) : about = kind := by
  unfold Command.isForeign at h
  unfold Command.kind? at habout
  split at h
  · next a ha =>
      rw [ha] at habout
      exact Action.kind?_eq_of_not_isForeign h habout
  · next e he =>
      rw [he] at habout
      contradiction

/-- What is about another kind names it, or cancels an id that was not given out for the kind. -/
theorem Action.isForeign_cases (h : a.isForeign kind trace = true) :
    (∃ about, a.kind? = some about ∧ about ≠ kind) ∨
      ∃ n, a = .cancel n ∧ n ∉ givenFor kind trace := by
  unfold Action.isForeign at h
  split at h
  · exact .inr ⟨_, rfl, (of_decide_eq_true h).2⟩
  · left
    cases habout : a.kind? with
    | none =>
        rw [habout] at h
        contradiction
    | some about =>
        rw [habout, Option.any_some, bne_iff_ne] at h
        exact ⟨about, rfl, h⟩

end

/-- A command that asks for a registration says how long it lasts. -/
theorem Command.mode?_of_bid {c : Command ε} {a : Action ε} {channel : Nat} {bid : Bid}
    (hc : c.action = .ok a) (h : a.bid? channel = some bid) : c.mode?.isSome := by
  unfold Command.mode?
  rw [hc]
  cases a <;> first | rfl | contradiction

namespace Switchboard

variable {S : Source σ ε} {settings : SlotSettings} {source : σ} {b b' : Switchboard σ ε}

/-! ## boards at rest -/

/-- Where nobody is made no channel is. -/
theorem ChannelsNumbered.of_leaves (h : ChannelsNumbered b) (hl : Leaves b b') :
    ChannelsNumbered b' := by
  intro r hr serial about hserial
  obtain ⟨s, hs, hterms⟩ := hl.of_live hr
  rw [← Registration.callback_eq_of_terms_eq hterms] at hserial
  exact Nat.lt_of_lt_of_le (h s hs serial about hserial) hl.nextChannel_le

/-- A channel that is made has a number below that of the next one. -/
theorem ChannelsNumbered.of_makes (h : ChannelsNumbered b) {bid : Bid} (hm : Makes bid b b') :
    ChannelsNumbered b' := by
  intro r hr serial about hserial
  rcases hm.of_live hr with hr | ⟨-, hcallback⟩
  · exact Nat.lt_of_lt_of_le (h r hr serial about hserial) hm.nextChannel_le
  · exact hm.serial_lt (hcallback.symm.trans hserial)

/-- Whether a board is one that a run can reach, with no publish in progress and the source as it
was at the start. -/
structure Resting (S : Source σ ε) (settings : SlotSettings) (source : σ) (b : Switchboard σ ε) :
    Prop where
  reaches : Reaches S (fresh settings source) b
  running_eq : b.running = []
  source_eq : b.source = source
  numbered : ChannelsNumbered b

/-- A fresh board is at rest. -/
theorem resting_fresh (S : Source σ ε) (settings : SlotSettings) (source : σ) :
    Resting S settings source (fresh settings source) :=
  ⟨.refl, rfl, rfl, fun r hr => by contradiction⟩

section

variable {react : React σ ε} (hidle : Idle react) (limit : Nat) (hS : S.Grants source)
include hidle hS

/-- A basic command makes no registration, or the one that it asks for. -/
theorem Resting.leaves_or_makes (h : Resting S settings source b) {c : Command ε}
    (hc : c.isBasic = true) :
    Leaves b (b.step S react limit c).2 ∨
      ∃ a bid, c.action = .ok a ∧ a.bid? b.nextChannel = some bid ∧
        (b.step S react limit c).1 = .ok (.id b.registry.nextId) ∧
        Makes bid b (b.step S react limit c).2 := by
  have hgrants : S.Grants b.source := h.source_eq ▸ hS
  unfold Command.isBasic at hc
  unfold Switchboard.step obey attempt
  cases ha : c.action with
  | error e => exact .inl ⟨rfl, rfl, le_rfl, fun hr => ⟨_, hr, rfl⟩⟩
  | ok a =>
      rw [ha] at hc
      rcases Switchboard.leaves_or_makes hidle limit h.reaches hgrants hc with
        ⟨hsource, hnext, hchannel, hlive⟩ | ⟨bid, hbid, ho, hmakes⟩
      · exact .inl ⟨hsource, hnext, hchannel, hlive⟩
      · obtain ⟨hsource, hnext, hchannel, hlive, hserial⟩ := hmakes
        exact .inr ⟨a, bid, rfl, hbid, ho, hsource, hnext, hchannel, hlive, hserial⟩

/-- A basic command leaves the board at rest, as no listener performs any and the source stays
as it is. -/
theorem Resting.step (h : Resting S settings source b) {c : Command ε}
    (hc : c.isBasic = true) : Resting S settings source (b.step S react limit c).2 := by
  obtain ⟨hreaches, hrunning⟩ := settles_obey (proper_hear S react limit) none c b
  suffices hrest : (b.step S react limit c).2.source = source ∧
      ChannelsNumbered (b.step S react limit c).2 from
    ⟨h.reaches.trans hreaches, hrunning.trans h.running_eq, hrest.1, hrest.2⟩
  rcases h.leaves_or_makes hidle limit hS hc with hl | ⟨a, bid, -, -, -, hm⟩
  · exact ⟨hl.source_eq.trans h.source_eq, h.numbered.of_leaves hl⟩
  · exact ⟨hm.source_eq.trans h.source_eq, h.numbered.of_makes hm⟩

/-- A command that is about no other kind makes no registration of another kind. -/
theorem Resting.only_step (h : Resting S settings source b) {c : Command ε}
    (hc : c.isBasic = true) {kind : Kind} (hkind : ∀ about, c.kind? = some about → about = kind)
    (honly : ∀ r ∈ b.registry.live, r.kind = kind) {r : Registration}
    (hr : r ∈ (b.step S react limit c).2.registry.live) : r.kind = kind := by
  rcases h.leaves_or_makes hidle limit hS hc with hl | ⟨a, bid, ha, hbid, -, hm⟩
  · obtain ⟨s, hs, hterms⟩ := hl.of_live hr
    exact (Registration.kind_eq_of_terms_eq hterms).symm.trans (honly s hs)
  · rcases hm.of_live hr with hr | ⟨hmade, -⟩
    · exact honly r hr
    · refine hmade.trans (hkind _ ?_)
      rw [Command.kind?, ha]
      exact Action.kind?_of_bid hbid

end

/-! ## two runs -/

/-- The id that a registration is made with has been given out for its kind. -/
theorem mem_givenFor_of_step {react : React σ ε} {limit : Nat} {c : Command ε} {a : Action ε}
    {bid : Bid} {n : Nat} (hc : c.action = .ok a) (ha : a.bid? b.nextChannel = some bid)
    (ho : (b.step S react limit c).1 = .ok (.id n)) :
    n ∈ givenFor bid.kind (b.step S react limit c).2.trace := by
  have hdid : .did none c (.ok (.id n)) ∈ (b.step S react limit c).2.trace := by
    rw [← ho]
    exact List.mem_cons_self
  refine mem_givenFor.mpr ⟨none, c, hdid, Command.mode?_of_bid hc ha, ?_⟩
  rw [Command.kind?, hc]
  exact Action.kind?_of_bid ha

/-- Two boards in runs side by side: they show the same aspect of a kind, nothing else is live on
the second, and its next id is the place of the next one that the first gives out for the kind. -/
structure Coupled (kind : Kind) (trace : List (Event σ ε)) (b b' : Switchboard σ ε) : Prop where
  like : b'.aspect kind id = b.aspect kind (renumbered kind trace)
  only {r} : r ∈ b'.registry.live → r.kind = kind
  nextId_eq : b'.registry.nextId = givenBelow kind trace b.registry.nextId + 1

/-- Two fresh boards are coupled. -/
theorem coupled_fresh {final : Switchboard σ ε} (hfinal : Reaches S (fresh settings source) final)
    (kind : Kind) :
    Coupled kind final.trace (fresh settings source : Switchboard σ ε) (fresh settings source)
      where
  like := rfl
  only h := by contradiction
  nextId_eq := congrArg (· + 1) (hfinal.givenBelow_one kind).symm

theorem step_of_ok {c : Command ε} {a : Action ε} (hc : c.action = .ok a) (react : React σ ε)
    (limit : Nat) (b : Switchboard σ ε) :
    let x := b.perform S (hear S react limit) a
    b.step S react limit c = (x.1, x.2.note (.did none c x.1)) := by
  simp only [step, obey, attempt, hc]

/-- What is to be cancelled can be told from its place, if it is not of another kind. -/
theorem cancelled_iff {final : Switchboard σ ε} (hfinal : Reaches S (fresh settings source) final)
    (h : Reaches S (fresh settings source) b) (hsuffix : b.trace <:+ final.trace) {kind : Kind}
    {n : Nat} (hown : (Action.cancel n : Action ε).isForeign kind final.trace = false)
    {r : Registration} (hr : r ∈ b.registry.live) :
    (r.kind = kind →
      (renumbered kind final.trace r.id = renumbered kind final.trace n ↔ r.id = n)) ∧
      (r.id = n → r.kind = kind) := by
  have hid := givenFor_of_suffix hsuffix (h.mem_givenFor_of_live hr)
  constructor
  · rintro rfl
    exact hfinal.renumbered_eq_iff hid
  · rintro rfl
    refine hfinal.kind_eq_of_given hid (by_contra fun hnot => ?_)
    exact of_decide_eq_false hown ⟨issued_of_givenFor hid, hnot⟩

namespace Coupled

variable {react : React σ ε} (hidle : Idle react) (limit : Nat) (hS : S.Grants source)
  {final : Switchboard σ ε} (hfinal : Reaches S (fresh settings source) final) {kind : Kind}
  (hb : Resting S settings source b) (h : Coupled kind final.trace b b') {c : Command ε}
  (hc : c.isBasic = true) (hsuffix : (b.step S react limit c).2.trace <:+ final.trace)
include hidle hS hfinal hb h hc hsuffix

/-- A command about another kind is carried out on the first board only. -/
theorem other (hforeign : c.isForeign kind final.trace = true) :
    Coupled kind final.trace (b.step S react limit c).2 b' := by
  have hgrants : S.Grants b.source := hb.source_eq ▸ hS
  have hbefore : b.trace <:+ final.trace :=
    (settles_obey (proper_hear S react limit) none c b).1.suffix.trans hsuffix
  cases ha : c.action with
  | error e =>
      rw [Command.isForeign, ha] at hforeign
      contradiction
  | ok a =>
      have hbasic : a.isBasic = true := by
        rwa [Command.isBasic, ha] at hc
      have hother : a.isForeign kind final.trace = true := by
        rwa [Command.isForeign, ha] at hforeign
      refine ⟨?_, h.only, ?_⟩
      · rw [h.like, step_of_ok ha, aspect_note rfl rfl]
        refine (aspect_perform_other hidle limit hb.reaches hgrants hbasic ?_).symm
        refine (Action.isForeign_cases hother).imp_right ?_
        rintro ⟨n, rfl, hn⟩
        refine ⟨n, rfl, fun r hr hid hkind => hn ?_⟩
        subst hid hkind
        exact givenFor_of_suffix hbefore (hb.reaches.mem_givenFor_of_live hr)
      · rcases hb.leaves_or_makes hidle limit hS hc with hl | ⟨a', bid, ha', hbid, ho, hm⟩
        · rw [hl.nextId_eq, h.nextId_eq]
        · -- The id has been given out for the other kind, and no id is given out for two.
          cases ha.symm.trans ha'
          have hgiven := givenFor_of_suffix hsuffix (mem_givenFor_of_step ha hbid ho)
          have hnot : b.registry.nextId ∉ givenFor kind final.trace := fun hkind =>
            Action.kind?_ne_of_isForeign hother (Action.kind?_of_bid hbid)
              (hfinal.kind_eq_of_given hgiven hkind)
          rw [hm.nextId_eq, givenBelow_succ_of_not_given hnot, h.nextId_eq]

/-- Every other command is carried out on both, with the same outcome up to ids. -/
theorem own (hb' : Resting S settings source b') (hown : c.isForeign kind final.trace = false) :
    (b'.step S react limit (c.relabel (renumbered kind final.trace))).1 =
        relabelled (renumbered kind final.trace) (b.step S react limit c).1 ∧
      Coupled kind final.trace (b.step S react limit c).2
        (b'.step S react limit (c.relabel (renumbered kind final.trace))).2 := by
  have hbefore : b.trace <:+ final.trace :=
    (settles_obey (proper_hear S react limit) none c b).1.suffix.trans hsuffix
  have hkind : ∀ about, c.kind? = some about → about = kind :=
    fun about => Command.kind?_eq_of_not_isForeign hown
  have honly {r : Registration}
      (hr : r ∈ (b'.step S react limit (c.relabel (renumbered kind final.trace))).2.registry.live) :
      r.kind = kind :=
    hb'.only_step hidle limit hS ((Command.isBasic_relabel c _).trans hc)
      (fun about habout => hkind about ((Command.kind?_relabel c _).symm.trans habout))
      (fun r hr => h.only hr) hr
  cases ha : c.action with
  | error e =>
      simp only [step, obey, attempt, Command.relabel, ha, Except.map]
      refine ⟨rfl, ?_, h.only, h.nextId_eq⟩
      rw [aspect_note rfl rfl, aspect_note rfl rfl]
      exact h.like
  | ok a =>
      have hbasic : a.isBasic = true := by
        rwa [Command.isBasic, ha] at hc
      -- By the end of the run the next id is known to be one of the kind, so its number is that
      -- of the next id on the other board.
      have hnext (hbid : (a.bid? b.nextChannel).isSome)
          (ho : (b.perform S (hear S react limit) a).1 = .ok (.id b.registry.nextId)) :
          b.registry.nextId ∈ givenFor kind final.trace := by
        obtain ⟨bid, hbid⟩ := Option.isSome_iff_exists.mp hbid
        have hmine : bid.kind = kind := by
          rw [Command.kind?, ha] at hkind
          exact hkind _ (Action.kind?_of_bid hbid)
        rw [← hmine]
        refine givenFor_of_suffix hsuffix (mem_givenFor_of_step ha hbid ?_)
        rw [step_of_ok ha]
        exact ho
      obtain ⟨houtcome, hlike, hpaced⟩ := perform_of_like hidle limit hb.reaches hb'.reaches
        hb.running_eq hb'.running_eq (hb.source_eq ▸ hS) (hb'.source_eq ▸ hS) hb.numbered
        hb'.numbered h.like hbasic (by rwa [Command.kind?, ha] at hkind) (fun r hr => h.only hr)
        (fun n hn r hr => cancelled_iff hfinal hb.reaches hbefore
          (by rwa [Command.isForeign, ha, hn] at hown) hr)
        fun hbid ho => (renumbered_of_given (hnext hbid ho)).trans h.nextId_eq.symm
      rw [step_of_ok (Command.relabel_action ha _)] at honly ⊢
      rw [step_of_ok ha]
      refine ⟨houtcome, ?_, honly, ?_⟩
      · rw [aspect_note rfl rfl, aspect_note rfl rfl]
        exact hlike
      · rcases hpaced with ⟨hid, hid'⟩ | ⟨hbid, ho, hid, hid'⟩
        · simp only [note_registry, hid, hid', h.nextId_eq]
        · simp only [note_registry, hid, hid', h.nextId_eq,
            givenBelow_succ_of_given (hnext hbid ho)]

end Coupled

/-- While one run carries out some commands and another those of them that are not about other
kinds, their boards stay coupled. -/
theorem Coupled.run {react : React σ ε} (hidle : Idle react) (limit : Nat) (hS : S.Grants source)
    {final : Switchboard σ ε} (hfinal : Reaches S (fresh settings source) final) {kind : Kind}
    (hb : Resting S settings source b) (hb' : Resting S settings source b')
    (h : Coupled kind final.trace b b') {cs : List (Command ε)}
    (hcs : ∀ c ∈ cs, c.isBasic = true)
    (hsuffix : (run S react limit cs b).trace <:+ final.trace) :
    Resting S settings source (run S react limit cs b) ∧
      Resting S settings source (run S react limit (purged kind final.trace cs) b') ∧
      Coupled kind final.trace (run S react limit cs b)
        (run S react limit (purged kind final.trace cs) b') := by
  -- The trace at the end stays the same all through: it tells which commands are left out.
  induction cs generalizing b b' with
  | nil => exact ⟨hb, hb', h⟩
  | cons c cs ih =>
      obtain ⟨hc, hcs⟩ := List.forall_mem_cons.mp hcs
      have hfirst : (b.step S react limit c).2.trace <:+ final.trace :=
        (settles_run react limit cs (b.step S react limit c).2).1.suffix.trans hsuffix
      have hrest := hb.step hidle limit hS hc
      cases hforeign : c.isForeign kind final.trace with
      | true =>
          rw [purged_cons_of_foreign hforeign]
          exact ih hrest hb' (h.other hidle limit hS hfinal hb hc hfirst hforeign) hcs hsuffix
      | false =>
          have hc' : (c.relabel (renumbered kind final.trace)).isBasic = true :=
            (Command.isBasic_relabel c _).trans hc
          rw [purged_cons_of_own hforeign]
          exact ih hrest (hb'.step hidle limit hS hc')
            (h.own hidle limit hS hfinal hb hc hfirst hb' hforeign).2 hcs hsuffix

/-! ## separation -/

/-- **Kinds do not interfere.**  Let listeners perform no command, and let a source grant
everything.  For every run of basic commands from a fresh board and every kind, let the commands
about other kinds be left out, and the ids that remain be numbered anew.

* No two numbers become the same, other than ids of other kinds.
* After every part of the run and what remains of it, the boards show the same aspect of the
  kind: the live registrations, with selectors, slots, modes and their order, the requests to the
  source, and what the listeners have been handed.
* Every command that remains then has the same outcome, up to ids. -/
theorem kinds_separate (hS : S.Grants source) {react : React σ ε} (hidle : Idle react)
    (limit : Nat) (settings : SlotSettings) (kind : Kind) {cs : List (Command ε)}
    (hcs : ∀ c ∈ cs, c.isBasic = true) :
    let start := fresh settings source
    let trace := (run S react limit cs start).trace
    let rename := renumbered kind trace
    Set.InjOn rename { id | id ∈ issued trace → id ∈ givenFor kind trace } ∧
      ∀ before after, cs = before ++ after →
        let b := run S react limit before start
        let b' := run S react limit (purged kind trace before) start
        b'.aspect kind id = b.aspect kind rename ∧
          ∀ c rest, after = c :: rest → c.isForeign kind trace = false →
            (b'.step S react limit (c.relabel rename)).1 =
              relabelled rename (b.step S react limit c).1 := by
  intro start trace rename
  have hfinal : Reaches S start (run S react limit cs start) := (settles_run react limit cs start).1
  refine ⟨hfinal.renumbered_injOn kind, fun before after hsplit => ?_⟩
  subst hsplit
  have htail (ds : List (Command ε)) (b : Switchboard σ ε) :
      b.trace <:+ (run S react limit ds b).trace := (settles_run react limit ds b).1.suffix
  have hwhole : run S react limit (before ++ after) start =
      run S react limit after (run S react limit before start) := run_append ..
  obtain ⟨hb, hb', h⟩ := (coupled_fresh hfinal kind).run hidle limit hS hfinal
    (resting_fresh S settings source) (resting_fresh S settings source)
    (fun c hc => hcs c (List.mem_append_left after hc)) (hwhole ▸ htail after _)
  refine ⟨h.like, ?_⟩
  rintro c rest rfl hown
  have hc : c.isBasic = true := hcs c (List.mem_append_right before List.mem_cons_self)
  exact (h.own hidle limit hS hfinal hb hc (hwhole ▸ htail rest _) hb' hown).1

/-! ### a sample run

The registrations of two kinds get their ids in turn. -/

namespace Sample

def silent : React Bench Bench.Control := fun _ _ _ => []

def mixed : List (Command Bench.Control) :=
  [ask (.on .callForwarding "first" none .repeating),
    ask (.on .voiceMail "second" none .repeating),
    ask (.channel "third" .callForwarding none), ask (.channel "fourth" .voiceMail none),
    ask (.on .voiceMail "fifth" (some ⟨1⟩) .oneShot), ask (.cancel 3), ask (.setDefault 1),
    ask (.publish .callForwarding none (.callForwarding true)),
    ask (.publish .voiceMail none (.voiceMail true)), ask (.off .callForwarding none)]

/-- The board after the commands. -/
def mingled (cs : List (Command Bench.Control)) : Switchboard Bench Bench.Control :=
  run Bench.source silent 0 cs (fresh Sample.settings bench)

/-- The commands about voice mail, and those about no kind. -/
def apart : List (Command Bench.Control) :=
  purged .voiceMail (mingled (mixed ++ [ask (.cancel 4)])).trace mixed

end Sample

/-- The ids 2, 4 and 5 become 1, 2 and 3. -/
theorem kinds_separate_mixed :
    let trace := (Sample.mingled (Sample.mixed ++ [Sample.ask (.cancel 4)])).trace
    let rename := renumbered .voiceMail trace
    Bench.source.Grants Sample.bench ∧ Idle Sample.silent ∧
      (∀ c ∈ Sample.mixed ++ [Sample.ask (.cancel 4)], c.isBasic = true) ∧
      (Sample.mingled Sample.mixed).registry.live.map (·.id) = [2, 4] ∧
      (Sample.mingled Sample.apart).registry.live.map (·.id) = [1, 2] ∧
      (Sample.mingled Sample.apart).aspect .voiceMail id =
        (Sample.mingled Sample.mixed).aspect .voiceMail rename ∧
      ((Sample.mingled Sample.apart).step Bench.source Sample.silent 0
          (Sample.ask (.cancel 2))).1 =
        relabelled rename ((Sample.mingled Sample.mixed).step Bench.source Sample.silent 0
          (Sample.ask (.cancel 4))).1 := by
  intro trace rename
  have hgrants : Bench.source.Grants Sample.bench := Bench.grants (by decide) rfl
  have hidle : Idle Sample.silent := fun _ _ _ _ => List.not_mem_nil
  have hbasic : ∀ c ∈ Sample.mixed ++ [Sample.ask (.cancel 4)], c.isBasic = true := by decide
  have h := (kinds_separate hgrants hidle 0 Sample.settings .voiceMail hbasic).2 Sample.mixed
    [Sample.ask (.cancel 4)] rfl
  exact ⟨hgrants, hidle, hbasic, rfl, rfl, h.1, h.2 (Sample.ask (.cancel 4)) [] rfl rfl⟩

end Switchboard

end SlotWatch

import SlotWatch.Proofs.Abreast
import SlotWatch.Proofs.Shape

/-!
# SlotWatch.Proofs.Inboxes

An inbox loses nothing.

1. The trace tells what was taken from the inbox of a name (`fetched`), and what the registration
   of an id was called with (`handed`).
2. What waited and was handed over is what was taken and waits (`Carries`).  So it is for each step
   of a run, and from step to step, as long as the inbox is kept.
-/

namespace SlotWatch

variable {σ ε : Type}

/-! ## what is taken and what is handed over -/

/-- What an event says was taken from the inbox of a name. -/
def Event.fetched? (name : String) : Event σ ε → Option (List Payload)
  | .did _ ⟨_, .ok (.receive n)⟩ (.ok (.received payloads _)) =>
      if n = name then some payloads else none
  | _ => none

/-- What an event says the registration of an id was called with. -/
def Event.handed? (id : Nat) : Event σ ε → Option Payload
  | .delivered r p | .mismatched r p => if r.id = id then some p else none
  | _ => none

/-- Whether an event gives up the inbox of a name, or puts another in its place. -/
def Event.abandons (name : String) : Event σ ε → Bool
  | .did _ ⟨_, .ok (.drop n)⟩ _ => n == name
  | .did _ ⟨_, .ok (.channel n _ _)⟩ (.ok (.id _)) => n == name
  | _ => false

/-- What was taken from the inbox of a name, in order. -/
def fetched (name : String) (events : List (Event σ ε)) : List Payload :=
  (events.filterMap (Event.fetched? name)).flatten

/-- What the registration of an id was called with, in order. -/
def handed (id : Nat) (events : List (Event σ ε)) : List Payload :=
  events.filterMap (Event.handed? id)

/-- Only a completed command takes from an inbox. -/
theorem fetched?_of_not_isMark {e : Event σ ε} (h : e.isMark = false) (name : String) :
    e.fetched? name = none := by
  cases e <;> first | rfl | contradiction

theorem handed?_of_not_isMark {e : Event σ ε} (h : e.isMark = false) (id : Nat) :
    e.handed? id = none := by
  cases e <;> first | rfl | contradiction

theorem fetched?_handed (name : String) (r : Registration) (p : Payload) :
    (r.handed p : Event σ ε).fetched? name = none := by
  unfold Registration.handed
  split <;> rfl

/-- A call hands over to the registration that is called. -/
theorem handed?_handed (id : Nat) (r : Registration) (p : Payload) :
    (r.handed p : Event σ ε).handed? id = if r.id = id then some p else none := by
  unfold Registration.handed
  split <;> rfl

/-- Only a command to take from an inbox does so. -/
theorem fetched?_of_action_ne {c : Command ε} {name : String} (h : c.action ≠ .ok (.receive name))
    (l : Option String) (o : Outcome σ) : (Event.did l c o).fetched? name = none := by
  obtain ⟨word, action⟩ := c
  unfold Event.fetched?
  split
  · next n _ _ heq =>
      cases heq
      exact if_neg fun hn => h (by rw [hn])
  · rfl

/-- What was taken earlier comes first. -/
theorem fetched_append (name : String) (es fs : List (Event σ ε)) :
    fetched name (es ++ fs) = fetched name es ++ fetched name fs := by
  rw [fetched, List.filterMap_append, List.flatten_append]
  rfl

theorem handed_append (id : Nat) (es fs : List (Event σ ε)) :
    handed id (es ++ fs) = handed id es ++ handed id fs :=
  List.filterMap_append

namespace Switchboard

variable {S : Source σ ε} {name : String} {serial id : Nat}

/-! ## one step -/

/-- From `b` to `b'` the inbox of the name, of the channel with this number, loses nothing: if
it is kept, what waited and was handed over is what was taken and waits. -/
def Carries (name : String) (serial id : Nat) (b b' : Switchboard σ ε) : Prop :=
  ∀ inbox, b.inbox? name = some inbox → inbox.serial = serial →
    (∀ e ∈ b.since b', e.abandons name = false) →
      ∃ inbox', b'.inbox? name = some inbox' ∧ inbox'.serial = serial ∧
        inbox'.kind = inbox.kind ∧
        inbox.waiting ++ handed id (b.since b') = fetched name (b.since b') ++ inbox'.waiting

theorem Carries.refl (b : Switchboard σ ε) : Carries name serial id b b := by
  intro inbox hinbox hserial _
  refine ⟨inbox, hinbox, hserial, rfl, ?_⟩
  rw [since_self]
  exact List.append_nil _

/-- What is lost on neither way is not lost on both. -/
theorem Carries.trans {b c d : Switchboard σ ε} (hbc : Carries name serial id b c)
    (hcd : Carries name serial id c d) (h : b.trace <:+ c.trace) (h' : c.trace <:+ d.trace) :
    Carries name serial id b d := by
  intro inbox hinbox hserial hkept
  rw [since_append h h'] at hkept ⊢
  obtain ⟨middle, hmiddle, hserial', hkind, hfirst⟩ :=
    hbc inbox hinbox hserial fun e he => hkept e (List.mem_append_left _ he)
  obtain ⟨inbox', hinbox', hserial'', hkind', hsecond⟩ :=
    hcd middle hmiddle hserial' fun e he => hkept e (List.mem_append_right _ he)
  refine ⟨inbox', hinbox', hserial'', hkind'.trans hkind, ?_⟩
  rw [handed_append, fetched_append, ← List.append_assoc, hfirst, List.append_assoc, hsecond,
    List.append_assoc]

/-- From `b` to `b'` this mark is put on the trace, if it is one, and no other. -/
def Marked (b b' : Switchboard σ ε) (mark? : Option (Event σ ε)) : Prop :=
  b.trace <:+ b'.trace ∧ ∃ rest, story b'.trace = mark?.toList ++ rest ++ story b.trace ∧
    ∀ e ∈ rest, e.isMark = false

namespace Marked

variable {b b' : Switchboard σ ε} {mark? : Option (Event σ ε)}

/-- What can be read off marks only is read off this one. -/
theorem filterMap_since (h : Marked b b' mark?) {α : Type} {f : Event σ ε → Option α}
    (hf : ∀ e : Event σ ε, e.isMark = false → f e = none) :
    (b.since b').filterMap f = (mark?.bind f).toList := by
  obtain ⟨⟨new, hnew⟩, rest, hstory, hrest⟩ := h
  rw [← hnew, story, List.filter_append] at hstory
  have hmarks : story new = mark?.toList ++ rest := List.append_cancel_right hstory
  have hnone : rest.filterMap f = [] :=
    List.filterMap_eq_nil_iff.mpr fun e he => hf e (hrest e he)
  rw [since_eq_reverse hnew, List.filterMap_reverse,
    ← filterMap_story (fun e he => hf e (isMark_of_isRequest he)), hmarks, List.filterMap_append,
    hnone, List.append_nil]
  cases mark? with
  | none => rfl
  | some e => cases he : f e <;> simp [he]

/-- The mark is what has happened, if it is one. -/
theorem mem_since (h : Marked b b' mark?) {e : Event σ ε} (he : e ∈ mark?) : e ∈ b.since b' := by
  obtain ⟨⟨new, hnew⟩, rest, hstory, -⟩ := h
  rw [← hnew, story, List.filter_append] at hstory
  have hmarks : story new = mark?.toList ++ rest := List.append_cancel_right hstory
  have hmem : e ∈ story new := by
    rw [hmarks, Option.mem_def.mp he]
    exact List.mem_append_left _ (List.mem_singleton_self e)
  rw [since_eq_reverse hnew, List.mem_reverse]
  exact (List.mem_filter.mp hmem).1

/-- An inbox loses nothing if its one mark accounts for what was put in and taken. -/
theorem carries (h : Marked b b' mark?)
    (hcarry : ∀ inbox, b.inbox? name = some inbox → inbox.serial = serial →
      (∀ e ∈ mark?, e.abandons name = false) → ∃ inbox', b'.inbox? name = some inbox' ∧
        inbox'.serial = serial ∧ inbox'.kind = inbox.kind ∧
        inbox.waiting ++ (mark?.bind (Event.handed? id)).toList =
          (mark?.bind (Event.fetched? name)).toList.flatten ++ inbox'.waiting) :
    Carries name serial id b b' := by
  intro inbox hinbox hserial hkept
  rw [handed, fetched, h.filterMap_since fun e he => handed?_of_not_isMark he id,
    h.filterMap_since fun e he => fetched?_of_not_isMark he name]
  exact hcarry inbox hinbox hserial fun e he => hkept e (h.mem_since he)

/-- A step that has nothing to do with the inbox. -/
theorem carries_of_inbox?_eq (h : Marked b b' mark?)
    (hinbox : (∀ e ∈ mark?, e.abandons name = false) → b'.inbox? name = b.inbox? name)
    (hhanded : mark?.bind (Event.handed? id) = none)
    (hfetched : mark?.bind (Event.fetched? name) = none) : Carries name serial id b b' := by
  refine h.carries fun inbox hb hserial hkept => ⟨inbox, ?_, hserial, rfl, ?_⟩
  · rw [hinbox hkept, hb]
  · rw [hhanded, hfetched]
    exact List.append_nil _

end Marked

/-- A command that calls nobody leaves its own mark only. -/
theorem marked_obey (invoke : Invoke σ ε) (l : Option String) {c : Command ε}
    (hc : c.quiet = true) (b : Switchboard σ ε) :
    Marked b (b.obey S invoke l c).2 (some (.did l c (b.obey S invoke l c).1)) := by
  have hdid : story (b.obey S invoke l c).2.trace =
      .did l c (b.obey S invoke l c).1 :: story (b.attempt S invoke c).2.trace :=
    story_cons rfl _
  refine ⟨Reaches.suffix (.single (.obey invoke l c hc b)), ?_⟩
  rw [hdid]
  rcases (change_attempt invoke b hc).story_cases with ⟨hs, -⟩ | ⟨selected, -, hs, -⟩
  · exact ⟨[], by rw [hs]; rfl, by simp⟩
  · exact ⟨[.withdrawn _], by rw [hs]; rfl, by simp [Event.isMark]⟩

/-- A channel has a new inbox of its name, and the next number is taken, once its registration is
made. -/
theorem opened (S : Source σ ε) (name : String) (kind : Kind) (options : Option Options)
    (b : Switchboard σ ε) :
    (∃ e, (b.openChannel S name kind options).1 = .error e ∧
      ∀ n, (b.openChannel S name kind options).2.inbox? n = b.inbox? n) ∨
    ∃ id, (b.openChannel S name kind options).1 = .ok id ∧
      (b.openChannel S name kind options).2.nextChannel = b.nextChannel + 1 ∧
      ∀ n, (b.openChannel S name kind options).2.inbox? n =
        if n = name then some { serial := b.nextChannel, kind } else b.inbox? n := by
  have hinboxes :=
    (framed_register S (.channel b.nextChannel kind) kind options .repeating).inboxes_eq b
  unfold openChannel
  simp only
  revert hinboxes
  rcases b.register S (.channel b.nextChannel kind) kind options .repeating with ⟨e | id, c⟩
  · exact fun hinboxes => .inl ⟨e, rfl, fun n => congrArg (List.lookup n) hinboxes⟩
  · refine fun hinboxes => .inr ⟨id, rfl, rfl, fun n => (inbox?_keep name n _ _).trans ?_⟩
    rw [inbox?, inbox?, ← hinboxes]

/-- Only to take from an inbox, to give it up and to put another in its place changes it. -/
theorem inbox?_perform (invoke : Invoke σ ε) (l : Option String) {c : Command ε} {a : Action ε}
    (hc : c.action = .ok a) (hq : a.quiet = true) (hreceive : a ≠ .receive name)
    {b : Switchboard σ ε}
    (hkept : (Event.did l c (b.perform S invoke a).1).abandons name = false) :
    (b.perform S invoke a).2.inbox? name = b.inbox? name := by
  obtain ⟨word, action⟩ := c
  cases (hc : action = .ok a)
  cases hn : a.namesChannel with
  | false =>
      have hinboxes := (framed_perform S invoke hq hn).inboxes_eq b
      rw [inbox?, inbox?, hinboxes]
  | true =>
      cases a with
      | channel n kind options =>
          rcases opened S n kind options b with ⟨e, -, hinbox⟩ | ⟨given, hok, -, hinbox⟩
          · exact hinbox name
          · have houtcome : (b.perform S invoke (.channel n kind options)).1 = .ok (.id given) :=
              congrArg (Except.map Reply.id) hok
            rw [houtcome] at hkept
            have hne : n ≠ name := beq_eq_false_iff_ne.mp hkept
            exact (hinbox name).trans (if_neg hne.symm)
      | receive n =>
          have hne : name ≠ n := fun heq => hreceive (heq ▸ rfl)
          show (b.receive n).2.inbox? name = b.inbox? name
          unfold receive
          split
          · rfl
          · exact (inbox?_keep n name _ b).trans (if_neg hne)
      | drop n =>
          have hne : n ≠ name := beq_eq_false_iff_ne.mp hkept
          exact (inbox?_dropInbox n name b).trans (if_neg hne.symm)
      | _ => contradiction

/-- A command that calls nobody. -/
theorem carries_obey (invoke : Invoke σ ε) (l : Option String) {c : Command ε}
    (hq : c.quiet = true) (b : Switchboard σ ε) :
    Carries name serial id b (b.obey S invoke l c).2 := by
  have hmarked := marked_obey (S := S) invoke l hq b
  cases hc : c.action with
  | error e =>
      rw [obey_of_error hc] at hmarked ⊢
      refine hmarked.carries_of_inbox?_eq (fun _ => rfl) rfl ?_
      exact fetched?_of_action_ne (by simp [hc]) l _
  | ok a =>
      rw [Command.quiet_of_action hc] at hq
      rw [obey_of_action hc] at hmarked ⊢
      by_cases hreceive : a = .receive name
      · -- what waited is taken
        subst hreceive
        refine hmarked.carries fun inbox hb hserial _ => ?_
        have hreceived : b.receive name =
            (some (inbox.waiting, b.closed inbox), b.keep name { inbox with waiting := [] }) := by
          simp only [receive, hb]
        have hperform : b.perform S invoke (.receive name) =
            (.ok (.received inbox.waiting (b.closed inbox)),
              b.keep name { inbox with waiting := [] }) := by
          simp only [perform, hreceived, Option.elim_some]
        obtain ⟨word, action⟩ := c
        cases hc
        refine ⟨{ inbox with waiting := [] }, ?_, hserial, rfl, ?_⟩
        · rw [hperform]
          exact (inbox?_keep name name _ b).trans (if_pos rfl)
        · rw [hperform]
          simp [Event.handed?, Event.fetched?]
      · have hother : c.action ≠ .ok (.receive name) := by simpa [hc] using hreceive
        exact hmarked.carries_of_inbox?_eq
          (fun hkept => inbox?_perform invoke l hc hq hreceive (hkept _ rfl)) rfl
          (fetched?_of_action_ne hother l _)

/-- A call puts the payload into the inbox of the channel that is called. -/
theorem inbox?_hand {r : Registration} {p : Payload} (haccepts : r.callback.accepts p = true)
    (hr : r.id = id ↔ ∃ k, r.callback = .channel serial k) {b : Switchboard σ ε} {inbox : Inbox}
    (hinbox : b.inbox? name = some inbox) (hserial : inbox.serial = serial) :
    (b.hand r p).2.inbox? name =
      some { inbox with waiting := inbox.waiting ++ if r.id = id then [p] else [] } := by
  have hother (hne : r.id ≠ id) :
      some inbox = some { inbox with waiting := inbox.waiting ++ if r.id = id then [p] else [] } := by
    rw [if_neg hne, List.append_nil]
  unfold hand
  rw [if_pos haccepts]
  cases hcallback : r.callback with
  | whole l => exact hinbox.trans (hother (by simp [hr, hcallback]))
  | typed l k => exact hinbox.trans (hother (by simp [hr, hcallback]))
  | channel n k =>
      refine (inbox?_enqueue n p name _).trans ?_
      have hfed : (b.inbox? name).map (Inbox.fed n p) = some (inbox.fed n p) := by
        rw [hinbox, Option.map_some]
      refine hfed.trans ?_
      by_cases hn : n = serial
      · have hid : r.id = id := hr.mpr ⟨k, by rw [hcallback, hn]⟩
        rw [Inbox.fed, if_pos (hserial.trans hn.symm), if_pos hid]
      · have hid : r.id ≠ id := by simp [hr, hcallback, hn]
        rw [Inbox.fed, if_neg fun h => hn (h.symm.trans hserial)]
        exact hother hid

/-- **No step loses anything or adds anything else**, as long as a call of the registration is a
call of the channel. -/
theorem Advance.carries {b b' : Switchboard σ ε} (h : Advance S b b')
    (hsuited : Suited b.registry b.running.flatten (story b.trace))
    (hids : ∀ r ∈ b.running.flatten, (r.id = id ↔ ∃ k, r.callback = .channel serial k)) :
    Carries name serial id b b' := by
  cases h with
  | obey invoke l c hc => exact carries_obey invoke l hc b
  | report slot p =>
      have hmarked : Marked b (b.report S slot p).2 none :=
        ⟨List.suffix_cons _ _, [.updated slot p (b.report S slot p).1], story_cons rfl _,
          by simp [Event.isMark]⟩
      exact hmarked.carries_of_inbox?_eq (fun _ => rfl) rfl rfl
  | @launch kind p slot hp =>
      have hmarked : Marked b (b.launch S kind slot p) none :=
        ⟨suffix_launch S kind slot p b, [.published kind slot p (b.audience kind slot)],
          story_launch S kind slot p b, by simp [Event.isMark]⟩
      refine hmarked.carries_of_inbox?_eq (fun _ => ?_) rfl rfl
      exact congrArg (List.lookup name)
        ((framed_stopAll S (b.registry.collect kind slot).released).inboxes_eq _)
  | @skip r rs rest b hr ha =>
      have hmarked : Marked b (b.comeTo r rs).2 none :=
        ⟨List.suffix_refl _, [], rfl, List.forall_mem_nil _⟩
      exact hmarked.carries_of_inbox?_eq (fun _ => rfl) rfl rfl
  | @call r rs rest b p hr ha hk =>
      have hdue : r ∈ b.running.flatten := by
        rw [hr]
        exact List.mem_append_left _ List.mem_cons_self
      have haccepts : r.callback.accepts p = true :=
        Callback.accepts_of_suits (hk ▸ hsuited r (.inr hdue))
      have htrace : ((b.comeTo r rs).2.hand r p).2.trace = r.handed p :: b.trace :=
        (alike_hand r p _).trace
      have hmarked : Marked b ((b.comeTo r rs).2.hand r p).2 (some (r.handed p)) := by
        refine ⟨?_, [], ?_, List.forall_mem_nil _⟩
        · rw [htrace]
          exact List.suffix_cons _ _
        · rw [htrace, story_cons (isRequest_handed r p)]
          rfl
      refine hmarked.carries fun inbox hinbox hserial _ => ?_
      refine ⟨_, inbox?_hand haccepts (hids r hdue) hinbox hserial, hserial, rfl, ?_⟩
      simp only [Option.bind_some, handed?_handed, fetched?_handed]
      split <;> rfl
  | land =>
      have hmarked : Marked b b.land none := ⟨List.suffix_refl _, [], rfl, List.forall_mem_nil _⟩
      exact hmarked.carries_of_inbox?_eq (fun _ => rfl) rfl rfl
  | remark l c o hc =>
      have hmarked : Marked b (b.note (.did l c o)) (some (.did l c o)) :=
        ⟨List.suffix_cons _ _, [], story_cons rfl _, List.forall_mem_nil _⟩
      refine hmarked.carries_of_inbox?_eq (fun _ => rfl) rfl (fetched?_of_action_ne ?_ l o)
      intro hreceive
      rw [Command.quiet_of_action hreceive] at hc
      contradiction

end Switchboard

end SlotWatch

import Mathlib.Data.List.Forall2
import SlotWatch.Proofs.Mirrored

/-!
# SlotWatch.Proofs.ByName

Registering by name is registering by kind.

1. Nothing is lost by renaming: the board that was used by kind can be told from the one used
   by name (`Mirrored.unique`).  So whatever listeners do by kind, others can do by name
   (`exists_mirrors`).
2. Then the two runs go alike, step by step and call by call (`named_api_agrees`).
3. A name that is nobody's is refused, and nothing else happens (`obey_of_unknown`).
-/

namespace SlotWatch

variable {σ ε : Type}

/-! ## nothing is lost -/

/-- A name is the name of one kind. -/
theorem Kind.name_injective : Function.Injective Kind.name := by
  intro k k' h
  have hk : Named.ofName? Kind k.name = some k := LawfulNamed.ofName?_name k
  have hk' : Named.ofName? Kind k'.name = some k' := LawfulNamed.ofName?_name k'
  rw [h, hk'] at hk
  exact (Option.some.inj hk).symm

section

variable {n : Naming}

/-- Only by its word is the removal of all callbacks by kind told from the same by name. -/
theorem Action.eq_of_renamed_eq {a a' : Action ε} (hkind : a.byKind = a'.byKind)
    (h : a.renamed n = a'.renamed n) : a = a' := by
  have hmap (k : Option Kind) : Function.Injective (Option.map (n.of k)) :=
    Option.map_injective (n.of_injective k)
  cases a <;> cases a' <;> simp only [byKind, Bool.true_eq_false, Bool.false_eq_true] at hkind <;>
    simp only [renamed, reduceCtorEq] at h
  case on.on =>
      obtain ⟨hname, hlistener, rfl, rfl⟩ := subscribe.inj h
      cases Kind.name_injective hname
      rw [n.of_injective _ hlistener]
  case off.off =>
      obtain ⟨hname, hlistener⟩ := unsubscribe.inj h
      cases Kind.name_injective hname
      rw [hmap _ hlistener]
  case subscribe.subscribe =>
      obtain ⟨rfl, hlistener, rfl, rfl⟩ := subscribe.inj h
      rw [n.of_injective _ hlistener]
  case unsubscribe.unsubscribe =>
      obtain ⟨rfl, hlistener⟩ := unsubscribe.inj h
      rw [hmap _ hlistener]
  case compare.compare =>
      obtain ⟨hx, hy⟩ := compare.inj h
      rw [n.of_injective _ hx, n.of_injective _ hy]
  case inspect.inspect => rfl
  all_goals exact h

/-- Commands that differ still differ by name. -/
theorem Command.renamed_injective : Function.Injective (Command.renamed (ε := ε) n) := by
  rintro ⟨word, action⟩ ⟨word', action'⟩ h
  obtain ⟨hword, haction⟩ := Command.mk.inj h
  obtain ⟨hkind, rfl⟩ := n.word_inj hword
  cases action with
  | error e =>
      cases action' with
      | error e' =>
          cases haction
          rfl
      | ok a' => contradiction
  | ok a =>
      cases action' with
      | error e' => contradiction
      | ok a' => rw [Action.eq_of_renamed_eq hkind (Except.ok.inj haction)]

theorem Reply.renamed_injective : Function.Injective (Reply.renamed (σ := σ) n) := by
  intro r r' h
  cases r <;> cases r' <;> simp only [renamed, reduceCtorEq] at h
  case state.state =>
      obtain ⟨hregistry, rfl⟩ := state.inj h
      rw [Registry.renamed_injective n hregistry]
  all_goals first | exact h | rfl

/-- Whoever gave a command is told different outcomes apart. -/
theorem Command.told_injective (c : Command ε) : Function.Injective (c.told (σ := σ) n) := by
  intro o o' h
  unfold Command.told Action.told at h
  split at h
  · split at h
    · cases o <;> cases o' <;> simp only [Except.map, reduceCtorEq] at h
      · exact congrArg _ (Except.error.inj h)
      · rw [Reply.renamed_injective (Except.ok.inj h)]
    · exact h
  · exact h

/-- An event is renamed to one event, and comes from one. -/
theorem Event.Renamed.unique {e₁ e₂ e₁' e₂' : Event σ ε} (h₁ : e₁.Renamed n e₁')
    (h₂ : e₂.Renamed n e₂') (h : e₁' = e₂') : e₁ = e₂ := by
  have hmap : Function.Injective (List.map (Registration.renamed n)) :=
    List.map_injective_iff.mpr (Registration.renamed_injective n)
  cases h₁ <;> cases h₂ <;> try contradiction
  case asked.asked => exact h
  case updated.updated => exact h
  case published.published =>
      obtain ⟨rfl, rfl, rfl, hcalled⟩ := Event.published.inj h
      rw [hmap hcalled]
  case delivered.delivered =>
      obtain ⟨hr, rfl⟩ := Event.delivered.inj h
      rw [Registration.renamed_injective n hr]
  case withdrawn.withdrawn => rw [hmap (Event.withdrawn.inj h)]
  case did.did l c o k l' c' o' k' =>
      obtain ⟨hlistener, hcommand, houtcome⟩ := Event.did.inj h
      cases Command.renamed_injective hcommand
      rw [Command.told_injective _ houtcome]
      cases l with
      | none =>
          cases l' with
          | none => rfl
          | some => contradiction
      | some x =>
          cases l' with
          | none => contradiction
          | some x' => rw [(n.of_inj (Option.some.inj hlistener)).2]

end

namespace Switchboard

variable {S : Source σ ε} {n : Naming}

/-- Only one board can have been used by kind where a board was used by name. -/
theorem Mirrored.unique {b₁ b₂ b' : Switchboard σ ε} (h₁ : Mirrored n b₁ b')
    (h₂ : Mirrored n b₂ b') : b₁ = b₂ := by
  have hregistry := Registry.renamed_injective n (h₁.registry_eq.symm.trans h₂.registry_eq)
  have hmap : Function.Injective (List.map (List.map (Registration.renamed n))) :=
    List.map_injective_iff.mpr (List.map_injective_iff.mpr (Registration.renamed_injective n))
  have hrunning := hmap (h₁.running_eq.symm.trans h₂.running_eq)
  have hevents : Relator.LeftUnique (Event.Renamed (σ := σ) (ε := ε) n) :=
    fun _ _ _ h h' => h.unique h' rfl
  have htrace : b₁.trace = b₂.trace := hevents.forall₂ h₁.trace h₂.trace
  have hinboxes := h₁.inboxes_eq.symm.trans h₂.inboxes_eq
  have hchannel := h₁.nextChannel_eq.symm.trans h₂.nextChannel_eq
  have hsource := h₁.source_eq.symm.trans h₂.source_eq
  cases b₁
  cases b₂
  simp_all only

/-- **Whatever listeners do by kind, others can do by name.** -/
theorem exists_mirrors (n : Naming) (react : React σ ε) : ∃ react', Mirrors n react react' := by
  classical
  refine ⟨fun r' p b' =>
    if h : ∃ x : Registration × Switchboard σ ε, x.1.renamed n = r' ∧ Mirrored n x.2 b' then
      (react h.choose.1 p h.choose.2).map (Move.renamed n)
    else [], fun r p b b' hb => ?_⟩
  have h : ∃ x : Registration × Switchboard σ ε, x.1.renamed n = r.renamed n ∧ Mirrored n x.2 b' :=
    ⟨(r, b), rfl, hb⟩
  obtain ⟨hr, hboard⟩ := h.choose_spec
  simp only [dif_pos h, Registration.renamed_injective n hr, hboard.unique hb]

/-! ## by kind and by name -/

/-- A name that no kind has stands for none. -/
theorem ofName?_of_unknown {event : String} (h : ∀ k : Kind, k.name ≠ event) :
    Named.ofName? Kind event = none :=
  List.find?_eq_none.mpr fun k _ hk => h k (beq_iff_eq.mp hk)

/-- A command for a name that is nobody's is refused, and nothing else happens. -/
theorem obey_of_unknown {event : String} (h : ∀ k : Kind, k.name ≠ event) {c : Command ε}
    (hc : (∃ listener options mode, c.action = .ok (.subscribe event listener options mode)) ∨
      ∃ listener, c.action = .ok (.unsubscribe event listener))
    (invoke : Invoke σ ε) (l : Option String) (b : Switchboard σ ε) :
    b.obey S invoke l c =
      (.error (.unknownEvent event), b.note (.did l c (.error (.unknownEvent event)))) := by
  have hevent := ofName?_of_unknown h
  rcases hc with ⟨listener, options, mode, hc⟩ | ⟨listener, hc⟩
  · simp only [obey, attempt, hc, perform, subscribe, hevent]
    rfl
  · simp only [obey, attempt, hc, perform, unsubscribe, hevent]
    rfl

/-- **The API by name and the API by kind agree.**  Whatever listeners do by kind, others can do
by name.  When they do, and so do the commands from outside,

* the boards stay mirrored: the source has the same state and was asked the same, the registry
  and what is due are the same but for the names, and the same has happened in the same order,
  with the same outcomes; where a callback for values got a value, its substitute got the payload
  of that value;
* the lists of registrations are the same;
* every further command has the same outcome, names aside.

A command for a name that is nobody's is refused, and nothing else happens. -/
theorem named_api_agrees (n : Naming) (S : Source σ ε) (react : React σ ε) (limit : Nat)
    (settings : SlotSettings) (source : σ) :
    (∃ react', Mirrors n react react') ∧
    (∀ react', Mirrors n react react' → ∀ cs : List (Command ε),
      let b := run S react limit cs (fresh settings source)
      let b' := run S react' limit (cs.map (Command.renamed n)) (fresh settings source)
      Mirrored n b b' ∧
      (∀ label, b'.registry.live.map (Registration.toJson label) =
        b.registry.live.map (Registration.toJson label)) ∧
      ∀ c : Command ε, (b'.step S react' limit (c.renamed n)).1 = c.told n (b.step S react limit c).1) ∧
    (∀ event, (∀ k : Kind, k.name ≠ event) →
      (Failure.unknownEvent event).category = .invalidParameter ∧
      ∀ c : Command ε,
        ((∃ listener options mode, c.action = .ok (.subscribe event listener options mode)) ∨
          ∃ listener, c.action = .ok (.unsubscribe event listener)) →
        ∀ (invoke : Invoke σ ε) l (b : Switchboard σ ε), b.obey S invoke l c =
          (.error (.unknownEvent event), b.note (.did l c (.error (.unknownEvent event))))) := by
  refine ⟨exists_mirrors n react, fun react' hreact cs => ?_, fun event h => ?_⟩
  · have hrun := mirrored_run (S := S) hreact limit cs (mirrored_fresh n settings source)
    refine ⟨hrun, fun label => ?_, fun c => ?_⟩
    · rw [hrun.registry_eq]
      exact List.map_map
    · exact (hrun.obey (mirrored_hear hreact limit) none none c).1
  · exact ⟨rfl, fun c hc invoke l b => obey_of_unknown h hc invoke l b⟩

namespace Sample

/-- A mark for the callback of each kind, and one for whole payloads. -/
def mark : Option Kind → Char
  | none => '*'
  | some k => Char.ofNat ('0'.toNat + k.rank)

/-- The marks are different. -/
theorem mark_injective : Function.Injective mark := by
  intro k k' h
  rcases k with _ | k <;> rcases k' with _ | k'
  · rfl
  · cases k' <;> contradiction
  · cases k <;> contradiction
  · cases k <;> cases k' <;> first | rfl | contradiction

/-- Names and words with a mark in front. -/
def naming : Naming where
  of k l := String.ofList (mark k :: l.toList)
  word x w := String.ofList ((if x then '+' else '-') :: w.toList)
  of_inj h := by
    obtain ⟨hmark, hname⟩ := List.cons.inj (String.ofList_injective h)
    exact ⟨mark_injective hmark, String.toList_inj.mp hname⟩
  word_inj {x x' _ _} h := by
    obtain ⟨hmark, hword⟩ := List.cons.inj (String.ofList_injective h)
    refine ⟨?_, String.toList_inj.mp hword⟩
    cases x <;> cases x' <;> first | rfl | contradiction

/-- The listeners of the sample run, by name. -/
def echo : React Bench Bench.Control := fun r p b => (react r p b).map (Move.renamed naming)

theorem mirrors_echo : Mirrors naming react echo := fun _ _ _ _ _ => rfl

end Sample

/-- The sample run and the same run by name end on boards that mirror each other. -/
theorem named_api_agrees_echo :
    Mirrors Sample.naming Sample.react Sample.echo ∧
      Mirrored Sample.naming
        (run Bench.source Sample.react 2 (Sample.registrations ++ [Sample.publication])
          (fresh Sample.settings Sample.bench))
        (run Bench.source Sample.echo 2
          ((Sample.registrations ++ [Sample.publication]).map (Command.renamed Sample.naming))
          (fresh Sample.settings Sample.bench)) :=
  ⟨Sample.mirrors_echo,
    ((named_api_agrees Sample.naming Bench.source Sample.react 2 Sample.settings
      Sample.bench).2.1 Sample.echo Sample.mirrors_echo _).1⟩

end Switchboard

end SlotWatch

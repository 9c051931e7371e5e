import SlotWatch.Phone

/-!
# SlotWatch.Proofs.Phone

What a phone lets its application observe.

* The application is *entitled* to a kind if it has what observing the kind takes
  (`Phone.Entitled`); the phone *admits* a kind if it starts feeds of it (`Phone.Admits`).
* Permissions come and go by `grant` and `revoke`.
-/

namespace SlotWatch

namespace Phone

/-! ## what an application is entitled to -/

/-- Whether the application has what it takes to observe the kind: it is a system
application, if the kind is for those, and holds every permission of the kind. -/
def Entitled (p : Phone) (kind : Kind) : Prop :=
  (kind.systemOnly = true → p.systemApp = true) ∧
    ∀ permission ∈ kind.permissions, p.holds permission = true

instance (p : Phone) (kind : Kind) : Decidable (p.Entitled kind) :=
  inferInstanceAs (Decidable (_ ∧ _))

/-- Whether the phone starts feeds of the kind. -/
def Admits (p : Phone) (kind : Kind) : Prop :=
  p.connected = true ∧ p.Entitled kind

/-- Whoever is not entitled is denied access for want of a permission. -/
theorem access_of_not_entitled {p : Phone} {kind : Kind} (h : ¬ p.Entitled kind) :
    ∃ e, p.access kind = .error e ∧ e.category = .permissionDenied := by
  unfold access
  by_cases hsystem : (kind.systemOnly && !p.systemApp) = true
  · exact ⟨_, if_pos hsystem, rfl⟩
  rw [if_neg hsystem]
  cases hfind : kind.permissions.find? (fun permission => !p.holds permission) with
  | some permission => exact ⟨_, rfl, rfl⟩
  | none =>
      have hpermissions := List.find?_eq_none.mp hfind
      refine absurd ⟨fun hs => ?_, fun permission hp => ?_⟩ h
      · simpa [hs] using hsystem
      · simpa using hpermissions permission hp

/-- A phone does not start what the application is not entitled to, and says so if it is
connected. -/
theorem start_of_not_entitled {p : Phone} (feed : Feed) (h : ¬ p.Entitled feed.2) :
    ∃ e, (p.start feed).1 = .error e ∧
      (p.connected = true → e.category = .permissionDenied) := by
  unfold start
  cases hconnected : p.connected with
  | false => exact ⟨_, rfl, by simp⟩
  | true =>
      obtain ⟨e, he, hcategory⟩ := access_of_not_entitled h
      simp only [he]
      exact ⟨e, rfl, fun _ => hcategory⟩

/-- A phone starts only what it admits. -/
theorem admits_of_start {p : Phone} {feed : Feed} (h : (p.start feed).1 = .ok ()) :
    p.Admits feed.2 := by
  have hentitled : p.Entitled feed.2 := by
    refine Decidable.byContradiction fun hnot => ?_
    obtain ⟨e, he, -⟩ := start_of_not_entitled feed hnot
    rw [he] at h
    contradiction
  refine ⟨?_, hentitled⟩
  cases hconnected : p.connected with
  | true => rfl
  | false => simp [start, hconnected] at h

/-! ## permissions -/

/-- A permission that is granted is held, and no other comes with it. -/
theorem holds_grant (p : Phone) (permission other : String) :
    (p.grant permission).holds other = (p.holds other || permission == other) := by
  unfold grant
  by_cases hheld : p.holds permission = true
  · rw [if_pos hheld]
    by_cases hsame : permission = other
    · subst hsame
      simp [hheld]
    · simp [hsame]
  · rw [if_neg hheld, BEq.comm]
    simp only [holds, List.contains_cons, Bool.or_comm]

/-- A permission that is revoked is not held, and no other goes with it. -/
theorem holds_revoke (p : Phone) (permission other : String) :
    (p.revoke permission).holds other = (p.holds other && permission != other) := by
  by_cases hsame : permission = other
  · subst hsame
    simp [holds, revoke]
  · simp [holds, revoke, hsame, Ne.symm hsame]

/-- Nothing has happened yet on a phone that was made with permissions. -/
theorem withGrants_eq (clock : String) (systemApp : Bool) (grants : List String) :
    ∃ granted, withGrants clock systemApp grants = { clock, systemApp, granted } := by
  have hfold (granted : List String) : ∃ granted',
      grants.foldl (fun p permission => p.grant permission)
        ({ clock, systemApp, granted } : Phone) = { clock, systemApp, granted := granted' } := by
    induction grants generalizing granted with
    | nil => exact ⟨granted, rfl⟩
    | cons permission grants ih =>
        rw [List.foldl_cons, grant]
        split
        · exact ih granted
        · exact ih (permission :: granted)
  exact hfold []

/-- A phone holds what it was made with. -/
theorem holds_withGrants (clock : String) (systemApp : Bool) (grants : List String)
    (permission : String) :
    (withGrants clock systemApp grants).holds permission = grants.contains permission := by
  have hfold (p : Phone) : (grants.foldl (fun p granted => p.grant granted) p).holds permission =
      (p.holds permission || grants.contains permission) := by
    induction grants generalizing p with
    | nil => simp
    | cons granted grants ih =>
        rw [List.foldl_cons, ih, holds_grant, List.contains_cons, Bool.or_assoc, BEq.comm]
  exact hfold { clock, systemApp }

end Phone

end SlotWatch

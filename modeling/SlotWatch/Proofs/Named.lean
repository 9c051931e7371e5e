import SlotWatch.Kind
import SlotWatch.State.Code

/-!
# SlotWatch.Proofs.Named

Enumerations are read back by name: no two values that share a list go by the same name.
-/

namespace SlotWatch

open State

/-- An enumeration whose values are found again by their names. -/
class LawfulNamed (α : Type) [Named α] : Prop where
  ofName?_name : ∀ a : α, Named.ofName? α (Named.name a) = some a

instance : LawfulNamed Kind := ⟨by intro k; cases k <;> decide⟩

instance : LawfulNamed NetworkType := ⟨by intro n; cases n <;> decide⟩

instance : LawfulNamed RadioTechnology := ⟨by intro t; cases t <;> decide⟩

instance : LawfulNamed ServiceState := ⟨by intro s; cases s <;> decide⟩

instance : LawfulNamed NsaState := ⟨by intro s; cases s <;> decide⟩

instance : LawfulNamed CallState := ⟨by intro s; cases s <;> decide⟩

instance : LawfulNamed ConnectState := ⟨by intro s; cases s <;> decide⟩

instance : LawfulNamed DataFlow := ⟨by intro f; cases f <;> decide⟩

instance : LawfulNamed CardType := ⟨by intro t; cases t <;> decide⟩

instance : LawfulNamed SimState := ⟨by intro s; cases s <;> decide⟩

instance : LawfulNamed LockReason := ⟨by intro l; cases l <;> decide⟩

end SlotWatch

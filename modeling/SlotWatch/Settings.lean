import SlotWatch.Failure

/-!
# SlotWatch.Settings

The configuration: how many slots the phone has, which slot listeners without a
selector follow, and where messages are logged.  Every part has a default, so a
configuration text may leave out any of it.
-/

namespace SlotWatch

/-- The slots of the phone. -/
structure SlotSettings where
  slotCount : Slot := 2
  defaultSlot : Slot := 0
deriving DecidableEq, Repr

/-- Which messages are logged, and the file they go to, if any. -/
structure LogSettings where
  level : String := "info"
  file : Option String := none
deriving DecidableEq, Repr

/-- The configuration. -/
structure Settings where
  slots : SlotSettings := {}
  log : LogSettings := {}
deriving DecidableEq, Repr

/-! ## JSON form -/

namespace SlotSettings

/-- Field names in writing order. -/
def fieldNames : List String := ["slot_count", "default_slot_id"]

end SlotSettings

namespace LogSettings

/-- Field names in writing order. -/
def fieldNames : List String := ["level", "file"]

end LogSettings

namespace Settings

/-- Field names in writing order. -/
def fieldNames : List String := ["registry", "logging"]

end Settings

/-- Read a field that may be left out. -/
def readOr [Wire α] (m : Json.Manner) (default : α) : Option Json → Option α
  | none => some default
  | some v => Wire.read m v

instance : Wire SlotSettings where
  write s := .record [
    ("slot_count", Wire.write s.slotCount),
    ("default_slot_id", Wire.write s.defaultSlot)]
  read m v := match Json.fields? SlotSettings.fieldNames v with
    | some [slotCount, defaultSlot] => do
      let standard : SlotSettings := {}
      return ⟨← readOr m.inside standard.slotCount slotCount,
        ← readOr m.inside standard.defaultSlot defaultSlot⟩
    | _ => none

instance : Wire LogSettings where
  write s := .record [("level", Wire.write s.level), ("file", Wire.write s.file)]
  read m v := match Json.fields? LogSettings.fieldNames v with
    | some [level, file] => do
      let standard : LogSettings := {}
      return ⟨← readOr m.inside standard.level level, ← readOr m.inside standard.file file⟩
    | _ => none

instance : Wire Settings where
  write s := .record [("registry", Wire.write s.slots), ("logging", Wire.write s.log)]
  read m v := match Json.fields? Settings.fieldNames v with
    | some [slots, log] => do
      return ⟨← readOr m.inside {} slots, ← readOr m.inside {} log⟩
    | _ => none

/-! ## Validation -/

namespace Settings

/-- A configuration is usable if there is a slot and the default slot is one. -/
def validate (s : Settings) : Except Failure Unit :=
  if s.slots.slotCount ≤ 0 then .error .noSlots
  else if s.slots.defaultSlot < 0 ∨ s.slots.slotCount ≤ s.slots.defaultSlot then
    .error (.badDefaultSlot s.slots.defaultSlot s.slots.slotCount)
  else .ok ()

end Settings

end SlotWatch

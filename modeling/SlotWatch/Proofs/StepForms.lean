import SlotWatch.Proofs.WireOrder
import SlotWatch.Replay.Script

/-!
# SlotWatch.Proofs.StepForms

Reading the steps of a script in all their forms.

1. A value that may be absent is `null` then, and no value that is there is (`NeverNull`).  A field
   with a default may be left out if it holds the default (`Json.RecordField.defaulted`).
2. A step is a record whose first field is the word for it (`Step.Form`): an object with its fields
   in any order, or an array of them.  It is buffered as a whole, the payload in it included, and
   told apart by its word before its fields are read (`Step.read_form`).
3. A script is a record of one field, the list of its steps, each in a form of its own
   (`Script.Form`).
4. So every text of a step is read as the step, and every text of a script as its steps in order
   (`Script.forms_read`).
-/

namespace SlotWatch

open Json (RecordField RecordForm Laid)
open Json.RecordField (says_of_cons fits_of fits_defaulted)
open WireForms (Form depth form_write read_form isPlain_form read_buffered)

/-! ## what may be absent -/

/-- A type that has no value written as `null`. -/
class NeverNull (α : Type) [Wire α] : Prop where
  read_null : ∀ m, (Wire.read m .null : Option α) = none

instance : NeverNull String := ⟨fun _ => rfl⟩

instance : NeverNull Int32 := ⟨fun _ => rfl⟩

instance : NeverNull Options := ⟨fun _ => rfl⟩

instance {α : Type} [Wire α] [WireForms α] [NeverNull α] : WireForms (Option α) where
  Form
    | none, v => v = .null
    | some a, v => Form a v
  depth := depth α
  form_write o := by
    cases o with
    | none => rfl
    | some a => exact form_write a
  read_form m o v h := by
    cases o with
    | none => subst h; rfl
    | some a =>
        have hread : Wire.read m v = some a := read_form m h
        -- `null` would be taken for the absent value, but it is no form of `a`
        cases v with
        | null => rw [NeverNull.read_null] at hread; contradiction
        | _ => exact congrArg (Option.map some) hread
  isPlain_form {o v room} h hroom := by
    cases o with
    | none => subst h; cases room <;> rfl
    | some a => exact isPlain_form (show Form a v from h) hroom
  read_buffered {outside o v} h := by
    cases v with
    | null => exact h
    | _ =>
        obtain ⟨a, ha, heq⟩ := Option.map_eq_some_iff.mp h
        exact Option.map_eq_some_iff.mpr ⟨a, read_buffered ha, heq⟩

namespace Options

/-- The field of the options. -/
def fields (o : Options) : List RecordField := [.of "slotId" o.slot]

instance : WireForms Options where
  Form o := RecordForm o.fields
  depth := 1
  form_write o := .inl (.of_record (by simp [fields, RecordField.of, form_write]))
  read_form m o v h := by
    obtain ⟨values, hfields, hvalues⟩ := h.fields? fieldNames rfl (by decide)
    simp only [fields, says_of_cons] at hvalues
    obtain ⟨slot, _, rfl, hslot, ⟨⟩⟩ := hvalues
    unfold Wire.read instWire
    simp [hfields, read_form m.inside hslot]
  isPlain_form h hroom := h.isPlain hroom fun room _ => by
    simp only [fields, List.forall_mem_cons]
    exact ⟨fits_of (Nat.zero_le room), List.forall_mem_nil _⟩
  read_buffered {outside o v} h := by
    unfold Wire.read instWire at h ⊢
    dsimp only at h ⊢
    split at h
    · obtain ⟨slot, hslot, heq⟩ := Option.map_eq_some_iff.mp h
      exact Option.map_eq_some_iff.mpr ⟨slot, read_buffered hslot, heq⟩
    · contradiction

end Options

/-! ## steps -/

namespace Step

/-- The fields of a step, in the order in which an array lists them. -/
def fields : Step → List RecordField
  | subscribe event listener options once =>
    [.of "event" event, .of "listener" listener, .defaulted "options" options none,
      .defaulted "once" once false]
  | unsubscribe event listener => [.of "event" event, .defaulted "listener" listener none]
  | publish slot payload =>
    [.defaulted "slotId" slot none, { name := "payload", Value := payload.Form }]
  | setDefaultSlot slot => [.of "slotId" slot]
  | grant permission => [.of "permission" permission]
  | revoke permission => [.of "permission" permission]
  | setConnected connected => [.of "connected" connected]

/-- The forms of a step: a record of the word for it and its fields. -/
def Form (s : Step) (v : Json) : Prop :=
  RecordForm (.of "action" s.action :: s.fields) v

theorem nodup_names (s : Step) :
    ((RecordField.of "action" s.action :: s.fields).map RecordField.name).Nodup := by
  cases s <;> simp [fields, RecordField.of, RecordField.defaulted]

/-- A step of one field is read from its record. -/
theorem single?_form {α : Type} [Wire α] [WireForms α] {field : String} {step : α → Step} {a : α}
    {v : Json} (h : RecordForm [.of field a] v) : single? field step v = some (step a) := by
  obtain ⟨values, hfields, hvalues⟩ := h.fields? [field] rfl (List.nodup_singleton field)
  obtain ⟨w, _, rfl, hw, ⟨⟩⟩ := says_of_cons.mp hvalues
  simp [single?, hfields, read_form .buffered hw]

/-- A subscription is read from its record, with its options and its mode left out or not. -/
theorem subscribe?_form {event listener : String} {options : Option Options} {once : Bool}
    {v : Json} (h : RecordForm (subscribe event listener options once).fields v) :
    subscribe? v = some (subscribe event listener options once) := by
  obtain ⟨values, hfields, hvalues⟩ :=
    h.fields? ["event", "listener", "options", "once"] rfl (by decide)
  obtain ⟨e, _, rfl, he, hvalues⟩ := says_of_cons.mp hvalues
  obtain ⟨l, _, rfl, hl, hvalues⟩ := says_of_cons.mp hvalues
  obtain ⟨o, _, ho, hlast, rfl⟩ := List.forall₂_cons_left_iff.mp hvalues
  obtain ⟨b, _, hb, ⟨⟩, rfl⟩ := List.forall₂_cons_left_iff.mp hlast
  simp [subscribe?, hfields, read_form .buffered he, read_form .buffered hl,
    RecordField.readOr_of_says .buffered ho, RecordField.readOr_of_says .buffered hb]

/-- A step that removes a listener, or all of them, is read from its record. -/
theorem unsubscribe?_form {event : String} {listener : Option String} {v : Json}
    (h : RecordForm (unsubscribe event listener).fields v) :
    unsubscribe? v = some (unsubscribe event listener) := by
  obtain ⟨values, hfields, hvalues⟩ := h.fields? ["event", "listener"] rfl (by decide)
  obtain ⟨e, _, rfl, he, hvalues⟩ := says_of_cons.mp hvalues
  obtain ⟨o, _, ho, ⟨⟩, rfl⟩ := List.forall₂_cons_left_iff.mp hvalues
  simp [unsubscribe?, hfields, read_form .buffered he, RecordField.readOr_of_says .buffered ho]

/-- A publish is read from its record, whatever form its payload has. -/
theorem publish?_form {slot : Option Slot} {payload : Payload} {v : Json}
    (h : RecordForm (publish slot payload).fields v) :
    publish? v = some (publish slot payload) := by
  obtain ⟨values, hfields, hvalues⟩ := h.fields? ["slotId", "payload"] rfl (by decide)
  obtain ⟨o, _, ho, hlast, rfl⟩ := List.forall₂_cons_left_iff.mp hvalues
  obtain ⟨q, _, hq, ⟨⟩, rfl⟩ := List.forall₂_cons_left_iff.mp hlast
  obtain ⟨w, rfl, hw⟩ := RecordField.says_of_needed.mp hq
  have hpayload : Wire.read .buffered w = some payload :=
    Payload.read_form (show Json.Manner.buffered.Allows 5 from trivial) hw
  simp [publish?, hfields, hpayload, RecordField.readOr_of_says .buffered ho]

/-- The fields of a step are read from every form of the record they make up. -/
theorem ofFields?_form {s : Step} {v : Json} (h : RecordForm s.fields v) :
    ofFields? s.action v = some s := by
  cases s with
  | subscribe => exact subscribe?_form h
  | unsubscribe => exact unsubscribe?_form h
  | publish => exact publish?_form h
  | setDefaultSlot | grant | revoke | setConnected => exact single?_form h

/-- The word for a step is found wherever it stands, and its fields are what is left. -/
theorem ofBuffered?_form {s : Step} {v : Json} (h : s.Form v) : ofBuffered? v = some s := by
  rcases h with h | h
  · obtain ⟨ms, w, rest, rfl, hw, hpartition, hrest⟩ := h.partition id s.nodup_names
    have haction : w = .str s.action := hw
    subst haction
    have hsplit : ms.partition (·.1 == some "action") =
        ([(some "action", .string (some s.action))], rest) := hpartition
    simp only [ofBuffered?, hsplit]
    exact ofFields?_form (.inl hrest)
  -- an array has the word in front, because it may not be left out
  · obtain ⟨w, rest, rfl, hw, hrest⟩ := h.eq_cons id
    have haction : w = .str s.action := hw
    subst haction
    exact ofFields?_form (.inr hrest)

/-- A step has at most six containers around each other: its payload has five. -/
theorem isPlain_form {s : Step} {v : Json} (h : s.Form v) {room : Nat} (hroom : 6 ≤ room) :
    v.isPlain room = true := by
  refine RecordForm.isPlain h hroom fun room hroom => ?_
  have hzero : 0 ≤ room := Nat.zero_le room
  have hone : 1 ≤ room := Nat.le_trans (by decide) hroom
  refine List.forall_mem_cons.mpr ⟨fits_of hzero, ?_⟩
  cases s with
  | subscribe =>
      simp only [fields, List.forall_mem_cons]
      exact ⟨fits_of hzero, fits_of hzero, fits_defaulted hone, fits_defaulted hzero,
        List.forall_mem_nil _⟩
  | unsubscribe =>
      simp only [fields, List.forall_mem_cons]
      exact ⟨fits_of hzero, fits_defaulted hzero, List.forall_mem_nil _⟩
  | publish slot payload =>
      simp only [fields, List.forall_mem_cons]
      exact ⟨fits_defaulted hzero, fun w hw => Payload.isPlain_form hw hroom,
        List.forall_mem_nil _⟩
  | setDefaultSlot | grant | revoke | setConnected =>
      exact List.forall_mem_singleton.mpr (fits_of hzero)

/-- **A step is read from each of its forms**, wherever six containers may still be opened. -/
theorem read_form {m : Json.Manner} (hm : m.Allows 6) {s : Step} {v : Json} (h : s.Form v) :
    read m v = some s := by
  rw [read, Json.buffer_eq hm fun room hroom => isPlain_form h hroom]
  exact ofBuffered?_form h

end Step

/-! ## scripts -/

namespace Script

/-- The field of a script: an array with a form of each step, in their order. -/
def fields (script : Script) : List RecordField :=
  [{ name := "steps",
     Value := fun w => ∃ vs, w = .array vs ∧ List.Forall₂ Step.Form script.steps vs,
     Spare := script.steps = [] }]

/-- The forms of a script. -/
def Form (script : Script) (v : Json) : Prop := RecordForm script.fields v

/-- Steps are read from their forms one by one. -/
theorem mapM_read_form {m : Json.Manner} (hm : m.Allows 6) {steps : List Step} {vs : List Json}
    (h : List.Forall₂ Step.Form steps vs) : vs.mapM (Step.read m) = some steps := by
  induction h with
  | nil => rfl
  | cons hv _ ih => simp [List.mapM_cons, Step.read_form hm hv, ih]

/-- **A script is read from each of its forms.** -/
theorem read_form {m : Json.Manner} (hm : m.Allows 8) {script : Script} {v : Json}
    (h : script.Form v) : read m v = some script := by
  obtain ⟨values, hfields, hvalues⟩ := RecordForm.fields? h ["steps"] rfl (by decide)
  obtain ⟨o, _, ho, ⟨⟩, rfl⟩ := List.forall₂_cons_left_iff.mp hvalues
  have hsteps : steps? m.inside o = some script.steps := by
    cases o with
    | none =>
        have hnil : script.steps = [] := ho
        rw [steps?, hnil]
    | some w =>
        obtain ⟨vs, rfl, hvs⟩ := ho
        exact mapM_read_form hm.inside.inside hvs
  simp [read, hfields, hsteps]

/-- **Every form of a step means the same step.**  A step may be an object with its fields in any
order, those left out that hold their default, or an array of its word and its fields, those at the
end left off that hold their default; and its payload may have any of its forms.

* Every text of a step is read as that step.
* Every text of a script is read as its steps, in their order, each in a form of its own. -/
theorem forms_read :
    (∀ (s : Step) v text, s.Form v → Laid v.tokens text.toList →
      (Json.parse text).bind (Step.read (.direct 0)) = some s) ∧
    (∀ (script : Script) v text, script.Form v → Laid v.tokens text.toList →
      ofText? text = some script) := by
  constructor
  · intro s v text hform htext
    rw [Json.parse_of_laid htext, Option.bind_some]
    have hm : (Json.Manner.direct 0).Allows 6 := show 0 + 6 ≤ Json.maxNesting by decide
    exact Step.read_form hm hform
  · intro script v text hform htext
    rw [ofText?, Json.parse_of_laid htext, Option.bind_some]
    have hm : (Json.Manner.direct 0).Allows 8 := show 0 + 8 ≤ Json.maxNesting by decide
    exact read_form hm hform

set_option maxRecDepth 2048 in
/-- Two objects with their members in other orders and the defaults left out, and between them an
array that ends before its default. -/
theorem forms_read_mixed :
    ofText? (" \x7b \"steps\" : [ \x7b \"event\" : \"b\" , \"action\" : \"subscribe\" , "
      ++ "\"listener\" : \"a\" \x7d , [ \"unsubscribe\" , \"b\" ] , "
      ++ "\x7b \"payload\" : \x7b \"data\" : true , \"type\" : \"cfuIndicatorChange\" \x7d , "
      ++ "\"action\" : \"publish\" \x7d ] \x7d") =
        some ⟨[.subscribe "b" "a" none false, .unsubscribe "b" none,
          .publish none (.callForwarding true)]⟩ := by
  let subscribe : Json :=
    .record [("event", .str "b"), ("action", .str "subscribe"), ("listener", .str "a")]
  let unsubscribe : Json := .array [.str "unsubscribe", .str "b"]
  let payload : Json := .record [("data", .bool true), ("type", .str "cfuIndicatorChange")]
  let publish : Json := .record [("payload", payload), ("action", .str "publish")]
  let v : Json := .record [("steps", .array [subscribe, unsubscribe, publish])]
  have hsubscribe : (Step.subscribe "b" "a" none false).Form subscribe := by
    have hvalues : List.Forall₂ RecordField.Says
        (.of "action" "subscribe" :: (Step.subscribe "b" "a" none false).fields)
        [some (.str "subscribe"), some (.str "b"), some (.str "a"), none, none] :=
      .cons rfl (.cons rfl (.cons rfl (.cons rfl (.cons rfl .nil))))
    exact .inl (.mk hvalues (List.forall_mem_nil _) (.swap _ _ _))
  have hunsubscribe : (Step.unsubscribe "b" none).Form unsubscribe := by
    have hvalues : List.Forall₂ RecordField.Says
        (.of "action" "unsubscribe" :: (Step.unsubscribe "b" none).fields)
        ([.str "unsubscribe", .str "b"].map some ++ List.replicate 1 none) :=
      .cons rfl (.cons rfl (.cons rfl .nil))
    exact .inr (.mk hvalues)
  have hpayload : (Payload.callForwarding true).Form payload := by
    have hvalues : List.Forall₂ RecordField.Says (Payload.callForwarding true).fields
        [some (.str "cfuIndicatorChange"), some (.bool true)] := .cons (.inl rfl) (.cons rfl .nil)
    exact .object (.mk hvalues (List.forall_mem_nil _) (.swap _ _ _))
  have hpublish : (Step.publish none (.callForwarding true)).Form publish := by
    have hvalues : List.Forall₂ RecordField.Says
        (.of "action" "publish" :: (Step.publish none (.callForwarding true)).fields)
        [some (.str "publish"), none, some payload] :=
      .cons rfl (.cons rfl (.cons hpayload .nil))
    exact .inl (.mk hvalues (List.forall_mem_nil _) (.swap _ _ _))
  have hform : Form _ v := .inl (.of_record (.cons ⟨rfl, _, rfl,
    .cons hsubscribe (.cons hunsubscribe (.cons hpublish .nil))⟩ .nil))
  have hblank : ∀ c ∈ [' '], Json.isBlank c = true := List.forall_mem_singleton.mpr rfl
  have hlegible : v.Legible := by
    have hbool : (Json.bool true).Legible := List.forall_mem_singleton.mpr trivial
    have hsubscribe : subscribe.Legible := Json.legible_record (by simp [Json.legible_str])
    have hunsubscribe : unsubscribe.Legible := Json.legible_array (by simp [Json.legible_str])
    have hpayload : payload.Legible := Json.legible_record (by simp [hbool, Json.legible_str])
    have hpublish : publish.Legible := Json.legible_record (by simp [hpayload, Json.legible_str])
    have hsteps : (Json.array [subscribe, unsubscribe, publish]).Legible :=
      Json.legible_array (by simp [hsubscribe, hunsubscribe, hpublish])
    exact Json.legible_record (by simp [hsteps])
  refine forms_read.2 _ v _ hform ?_
  simp only [String.toList_append, String.reduceToList]
  exact Laid.of_legible hblank hlegible

end Script

end SlotWatch

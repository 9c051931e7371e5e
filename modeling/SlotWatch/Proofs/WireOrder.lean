import SlotWatch.Proofs.Forms
import SlotWatch.Proofs.Layout

/-!
# SlotWatch.Proofs.WireOrder

Reading a payload whatever the order of its members.

1. A payload is an object with a kind and a value in either order, or an array of the two; an
   account change needs no value (`Payload.Form`).
2. A value that stands behind its kind is read straight from the text, and one that stands before
   it is buffered first.  The value of a payload is never nested too deep for the buffer, and
   either way the same is read (`Payload.ofData?_form`, `Payload.ofData?_buffered`).
3. So every text of a payload is read as the payload (`Payload.read_in_any_order`).
-/

namespace SlotWatch

open Json (RecordField ObjectForm Laid)
open WireForms (form_write read_form isPlain_form read_buffered)

/-- Whether containers may be nested so much deeper where a value is read. -/
def Json.Manner.Allows (depth : Nat) : Manner → Prop
  | .direct outside => outside + depth ≤ maxNesting
  | .buffered => True

/-- What is not nested too deeply is buffered as it is. -/
theorem Json.buffer_eq {m : Manner} {v : Json} {depth : Nat} (hm : m.Allows depth)
    (hv : ∀ room, depth ≤ room → v.isPlain room = true) : buffer m v = some v := by
  cases m with
  | direct outside =>
      have hroom : outside + depth ≤ maxNesting := hm
      exact if_pos (hv _ (by omega))
  | buffered => rfl

/-- Within a container one level fewer is allowed. -/
theorem Json.Manner.Allows.inside {m : Manner} {depth : Nat} (h : m.Allows (depth + 1)) :
    m.inside.Allows depth := by
  cases m with
  | direct outside =>
      have hroom : outside + (depth + 1) ≤ maxNesting := h
      show outside + 1 + depth ≤ maxNesting
      omega
  | buffered => trivial

namespace Payload

/-! ## the value of a payload -/

/-- The forms of the value of a payload. -/
def DataForm : Payload → Json → Prop
  | networkState n => WireForms.Form n
  | signalInfo ss => WireForms.Form ss
  | cellInfo cs => WireForms.Form cs
  | dataConnection d => WireForms.Form d
  | dataFlow f => WireForms.Form f
  | callState c => WireForms.Form c
  | callForwarding on => WireForms.Form on
  | voiceMail waiting => WireForms.Form waiting
  | simState c => WireForms.Form c
  | iccAccount => fun v => v = .null

theorem dataForm_data (p : Payload) : p.DataForm p.data := by
  cases p with
  | iccAccount => rfl
  | _ => exact form_write _

/-- The value of a payload is read from each of its forms, in whatever manner. -/
theorem ofData?_form (m : Json.Manner) {p : Payload} {v : Json} (h : p.DataForm v) :
    ofData? m p.kind v = some p := by
  cases p with
  | iccAccount => subst h; rfl
  | _ => simp [kind, ofData?, read_form m h]

/-- No value of a payload has more than four containers around each other: a list of cells, a
cell, its signal and a name in that. -/
theorem isPlain_dataForm {p : Payload} {v : Json} (h : p.DataForm v) {room : Nat}
    (hroom : 4 ≤ room) : v.isPlain room = true := by
  cases p with
  | iccAccount => subst h; cases room <;> rfl
  | cellInfo cs => exact isPlain_form (show WireForms.Form cs v from h) hroom
  | _ => exact isPlain_form h (Nat.le_trans (by decide) hroom)

/-- **What is read behind its kind is read in front of it too.** -/
theorem ofData?_buffered {depth : Nat} {k : Kind} {v : Json} {p : Payload}
    (h : ofData? (.direct depth) k v = some p) : ofData? .buffered k v = some p := by
  cases k with
  | iccAccount => exact h
  | _ =>
      obtain ⟨a, ha, heq⟩ := Option.map_eq_some_iff.mp h
      exact Option.map_eq_some_iff.mpr ⟨a, read_buffered ha, heq⟩

/-! ## payloads -/

/-- The members of a payload. -/
def fields (p : Payload) : List RecordField :=
  [.of "type" p.kind, { name := "data", Value := p.DataForm, Spare := p = .iccAccount }]

/-- The forms of a payload. -/
inductive Form (p : Payload) : Json → Prop where
  | object {v : Json} (h : ObjectForm p.fields v) : Form p v
  | array {v : Json} (h : p.DataForm v) : Form p (.array [.str p.kind.name, v])

/-- The usual form of a payload is one of its forms. -/
theorem form_write (p : Payload) : p.Form (Wire.write p) := by
  refine .object ?_
  by_cases h : p = .iccAccount
  · subst h
    have hvalues : List.Forall₂ RecordField.Says (fields .iccAccount)
        [some (Wire.write Kind.iccAccount), none] := .cons (WireForms.form_write _) (.cons rfl .nil)
    exact .mk hvalues (List.forall_mem_nil _) (.refl _)
  · rw [write_of_ne h]
    exact .of_record (by simp [fields, RecordField.of, WireForms.form_write, dataForm_data])

/-- A payload has at most five containers around each other. -/
theorem isPlain_form {p : Payload} {v : Json} (h : p.Form v) {room : Nat} (hroom : 5 ≤ room) :
    v.isPlain room = true := by
  obtain ⟨room, rfl⟩ := Nat.exists_eq_add_of_le' (Nat.le_trans (by decide : 1 ≤ 5) hroom)
  have hdata : ∀ w, p.DataForm w → w.isPlain room = true :=
    fun w hw => isPlain_dataForm hw (by omega)
  cases h with
  | object h =>
      refine h.isPlain ?_
      simp only [fields, List.forall_mem_cons]
      exact ⟨RecordField.fits_of (show 1 ≤ room by omega), hdata, List.forall_mem_nil _⟩
  | array h => simp [Json.isPlain, Json.elementsPlain, hdata _ h, Json.str]

/-- **A payload is read from each of its forms**, wherever five containers may still be opened. -/
theorem read_form {m : Json.Manner} (hm : m.Allows 5) {p : Payload} {v : Json} (h : p.Form v) :
    Wire.read m v = some p := by
  cases h with
  | object h =>
      obtain ⟨values, hfields, hvalues⟩ := h.fields? (show ["type", "data"].Nodup by decide)
      obtain ⟨type, _, rfl, htype, hrest⟩ := RecordField.says_of_cons.mp hvalues
      have hkind : Wire.read m.inside type = some p.kind := WireForms.read_form m.inside htype
      obtain ⟨o, _, ho, ⟨⟩, rfl⟩ := List.forall₂_cons_left_iff.mp hrest
      obtain @⟨_, _, ms, -, -, -⟩ := h
      show ofMembers? m (ms.map fun m => (some m.1, m.2)) = some p
      unfold ofMembers?
      rw [show Json.fields? ["type", "data"] (.object _) = _ from hfields]
      -- whichever member comes first, the value is read from its form
      cases o with
      | none =>
          have hp : p = .iccAccount := ho
          subst hp
          simp [hkind, kind]
      | some data =>
          have hdata : p.DataForm data := ho
          have hbuffer : Json.buffer m.inside data = some data :=
            Json.buffer_eq hm.inside fun room hroom => isPlain_dataForm hdata hroom
          simp [hkind, hbuffer, ofData?_form _ hdata]
  | array h =>
      show (arrayTag? m (.str p.kind.name)).bind (fun k => ofData? m.inside k _) = some p
      have htag : arrayTag? m (.str p.kind.name) = some p.kind := LawfulNamed.ofName?_name p.kind
      rw [htag, Option.bind_some, ofData?_form m.inside h]

/-- **The order of the members of a payload does not matter.**

* Whatever the order of its members and of those of the records in it, whatever members of other
  names stand among them, and however the text is laid out, the payload is read from it.
* The text it is written as is one of these texts.
* Its value is read alike straight from the text and out of a buffered value.
* This is so of everything that is read straight from the text, whatever its form. -/
theorem read_in_any_order (p : Payload) :
    (∀ v text, p.Form v → Laid v.tokens text.toList → Wire.ofText? Payload text = some p) ∧
    (p.Form (Wire.write p) ∧ Laid (Wire.write p).tokens (Wire.toText p).toList) ∧
    (∀ data, p.DataForm data → ∀ m, ofData? m p.kind data = some p) ∧
    (∀ depth data, ofData? (.direct depth) p.kind data = some p →
      ofData? .buffered p.kind data = some p) := by
  refine ⟨fun v text hform htext => ?_, ⟨p.form_write, Json.laid_print (LawfulWire.legible p)⟩,
    fun data hdata m => ofData?_form m hdata, fun depth data hdirect => ofData?_buffered hdirect⟩
  have hm : (Json.Manner.direct 0).Allows 5 := show 0 + 5 ≤ Json.maxNesting by decide
  rw [Wire.ofText?, Json.parse_of_laid htext, Option.bind_some]
  exact read_form hm hform

/-- The state of a call in front of its kind, the number of the call in front of its state, and a
member of another name in either object. -/
theorem read_in_any_order_call :
    Wire.ofText? Payload (" \x7b \"data\" : \x7b \"number\" : \"12\" , \"state\" : "
      ++ "\"IDLE\" , \"seen\" : -7 \x7d , \"type\" : \"callStateChange\" , \"note\" : null \x7d") =
        some (.callState ⟨.idle, "12"⟩) := by
  let c : State.Call := ⟨.idle, "12"⟩
  let data : Json := .record [("number", .str "12"), ("state", .str "IDLE"), ("seen", .int (-7))]
  let v : Json := .record [("data", data), ("type", .str "callStateChange"), ("note", .null)]
  have hdata : (callState c).DataForm data := by
    have hvalues : List.Forall₂ RecordField.Says c.fields [some (.str "IDLE"), some (.str "12")] :=
      .cons (.inl rfl) (.cons rfl .nil)
    have hseen : ∀ e ∈ [("seen", Json.int (-7))],
        e.1 ∉ c.fields.map RecordField.name ∧ Json.Scalar e.2 :=
      List.forall_mem_singleton.mpr ⟨by decide, .int (by decide)⟩
    exact .inl (.mk hvalues hseen (.swap _ _ _))
  have hform : (callState c).Form v := by
    have hvalues : List.Forall₂ RecordField.Says (callState c).fields
        [some (.str "callStateChange"), some data] := .cons (.inl rfl) (.cons hdata .nil)
    have hnote : ∀ e ∈ [("note", Json.null)],
        e.1 ∉ (callState c).fields.map RecordField.name ∧ Json.Scalar e.2 :=
      List.forall_mem_singleton.mpr ⟨by decide, .null⟩
    exact .object (.mk hvalues hnote (.swap _ _ _))
  have hblank : ∀ c ∈ [' '], Json.isBlank c = true := List.forall_mem_singleton.mpr rfl
  have hlegible : v.Legible := by
    have hdata : data.Legible :=
      Json.legible_record (by simp [Json.legible_str, Json.legible_int])
    have hnull : Json.null.Legible := List.forall_mem_singleton.mpr trivial
    exact Json.legible_record (by simp [hdata, hnull, Json.legible_str])
  refine (read_in_any_order (callState c)).1 v _ hform ?_
  simp only [String.toList_append, String.reduceToList]
  exact Laid.of_legible hblank hlegible

end Payload

end SlotWatch

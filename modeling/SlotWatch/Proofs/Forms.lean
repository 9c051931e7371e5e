import SlotWatch.Proofs.Fields

/-!
# SlotWatch.Proofs.Forms

All JSON forms of a value.

1. A type has forms (`WireForms`) if each of its values is written in one of them and read from
   all of them, straight from a text or out of a buffered value.  How deep containers are nested
   in a form is known too, because a buffer takes only so many.
2. Truth values, texts and numbers have one form; a name can be a member of an object, and a list
   has a form for its elements.
3. The records of telephony state list their fields, and their forms are those of `RecordForm`.
-/

namespace SlotWatch

open Json (RecordField RecordForm ObjectForm)

/-- The JSON forms of the values of a type, nested no deeper than `depth`. -/
class WireForms (α : Type) [Wire α] where
  Form : α → Json → Prop
  depth : Nat
  form_write : ∀ a, Form a (Wire.write a)
  read_form : ∀ (m : Json.Manner) {a : α} {v : Json}, Form a v → Wire.read m v = some a
  isPlain_form : ∀ {a : α} {v : Json} {room : Nat}, Form a v → depth ≤ room →
    v.isPlain room = true
  /-- Whatever is read straight from a text is read so out of a buffered value. -/
  read_buffered : ∀ {depth : Nat} {a : α} {v : Json},
    Wire.read (.direct depth) v = some a → Wire.read .buffered v = some a

open WireForms (Form depth form_write read_form isPlain_form read_buffered)

/-! ## single values -/

instance : WireForms Bool where
  Form b v := v = .bool b
  depth := 0
  form_write _ := rfl
  read_form m b v h := by subst h; rfl
  isPlain_form {b v room} h _ := by subst h; cases room <;> rfl
  read_buffered {depth a v} h := by cases v <;> exact h

instance : WireForms String where
  Form s v := v = .str s
  depth := 0
  form_write _ := rfl
  read_form m s v h := by subst h; rfl
  isPlain_form {s v room} h _ := by subst h; cases room <;> rfl
  read_buffered {depth a v} h := by cases v <;> exact h

instance : WireForms Int32 where
  Form n v := v = .int n.toInt
  depth := 0
  form_write _ := rfl
  read_form m n v h := by subst h; exact LawfulWire.read_write m n
  isPlain_form {n v room} h _ := by
    subst h
    have hlow := n.le_toInt
    have hhigh := n.toInt_lt
    have hsize : UInt64.size = 18446744073709551616 := rfl
    exact Json.isPlain_int (by omega) room
  read_buffered {depth a v} h := by cases v <;> exact h

/-- A name that is read directly is read from a buffer. -/
theorem unitName?_buffered {depth : Nat} {v : Json} {name : String}
    (h : Json.unitName? (.direct depth) v = some name) :
    Json.unitName? .buffered v = some name := by
  unfold Json.unitName? at h ⊢
  split at h <;> simp_all

/-- A name is written as a string, or as the only member of an object. -/
instance {α : Type} [Named α] [LawfulNamed α] : WireForms α where
  Form a v := v = .str (Named.name a) ∨ v = .object [(some (Named.name a), .null)]
  depth := 1
  form_write _ := .inl rfl
  read_form m a v h := by rcases h with rfl | rfl <;> exact LawfulNamed.ofName?_name a
  isPlain_form {a v room} h hroom := by
    obtain ⟨room, rfl⟩ := Nat.exists_eq_add_of_le' hroom
    rcases h with rfl | rfl
    · rfl
    · cases room <;> rfl
  read_buffered {depth a v} h := by
    obtain ⟨name, hname, ha⟩ := Option.bind_eq_some_iff.mp h
    exact Option.bind_eq_some_iff.mpr ⟨name, unitName?_buffered hname, ha⟩

section

variable {α : Type} [Wire α] [WireForms α]

/-- A list is read from the forms of its elements. -/
theorem mapM_read_form (m : Json.Manner) {as : List α} {vs : List Json}
    (h : List.Forall₂ Form as vs) : vs.mapM (Wire.read m) = some as := by
  induction h with
  | nil => rfl
  | cons hv _ ih => simp [List.mapM_cons, read_form m hv, ih]

theorem form_map_write (as : List α) : List.Forall₂ Form as (as.map Wire.write) := by
  induction as with
  | nil => exact .nil
  | cons a as ih => exact .cons (form_write a) ih

/-- The forms of the elements of a list can be buffered. -/
theorem elementsPlain_form {as : List α} {vs : List Json} (h : List.Forall₂ Form as vs)
    {room : Nat} (hroom : depth α ≤ room) : Json.elementsPlain room vs = true := by
  induction h with
  | nil => rfl
  | cons hv _ ih => simp [Json.elementsPlain, isPlain_form hv hroom, ih]

theorem mapM_read_buffered {depth : Nat} {vs : List Json} {as : List α}
    (h : vs.mapM (Wire.read (.direct depth)) = some as) :
    vs.mapM (Wire.read .buffered) = some as := by
  induction vs generalizing as with
  | nil => exact h
  | cons v vs ih =>
      simp only [List.mapM_cons, Option.bind_eq_bind, Option.bind_eq_some_iff] at h ⊢
      obtain ⟨a, ha, rest, hrest, heq⟩ := h
      exact ⟨a, read_buffered ha, rest, ih hrest, heq⟩

instance : WireForms (List α) where
  Form as v := ∃ vs, v = .array vs ∧ List.Forall₂ Form as vs
  depth := depth α + 1
  form_write as := ⟨_, rfl, form_map_write as⟩
  read_form m as v h := by
    obtain ⟨vs, rfl, hvs⟩ := h
    exact mapM_read_form m.inside hvs
  isPlain_form {as v room} h hroom := by
    obtain ⟨vs, rfl, hvs⟩ := h
    obtain ⟨room, rfl⟩ := Nat.exists_eq_add_of_le' (Nat.le_trans (Nat.le_add_left 1 _) hroom)
    exact elementsPlain_form hvs (Nat.le_of_succ_le_succ hroom)
  read_buffered {depth as v} h := by
    cases v with
    | array vs => exact mapM_read_buffered h
    | _ => contradiction

end

/-! ## fields -/

namespace Json.RecordField

variable {α : Type} [Wire α] [WireForms α]

/-- The field that holds a value. -/
def of (name : String) (a : α) : RecordField := { name, Value := Form a }

/-- The field that holds a value and may be left out if that is the default. -/
def defaulted (name : String) (a default : α) : RecordField :=
  { name, Value := Form a, Spare := a = default }

/-- The first field says a value by one of its forms, and the others say theirs. -/
theorem says_of_cons {name : String} {a : α} {fields : List RecordField}
    {values : List (Option Json)} :
    List.Forall₂ Says (of name a :: fields) values ↔
      ∃ v rest, values = some v :: rest ∧ Form a v ∧ List.Forall₂ Says fields rest := by
  rw [List.forall₂_cons_left_iff]
  constructor
  · rintro ⟨o, rest, ho, hrest, rfl⟩
    obtain ⟨v, rfl, hv⟩ := says_of_needed.mp ho
    exact ⟨v, rest, rfl, hv, hrest⟩
  · rintro ⟨v, rest, rfl, hv, hrest⟩
    exact ⟨some v, rest, hv, hrest, rfl⟩

theorem fits_of {name : String} {a : α} {room : Nat} (hroom : depth α ≤ room) :
    (of name a).Fits room :=
  fun _ hv => isPlain_form hv hroom

/-- A field with a default is read whether it is left out or not. -/
theorem readOr_of_says {name : String} {a default : α} (m : Manner) {o : Option Json}
    (h : (defaulted name a default).Says o) : readOr m default o = some a := by
  cases o with
  | none =>
      have heq : a = default := h
      rw [readOr, heq]
  | some v => exact read_form m h

theorem fits_defaulted {name : String} {a default : α} {room : Nat} (hroom : depth α ≤ room) :
    (defaulted name a default).Fits room :=
  fun _ hv => isPlain_form hv hroom

end Json.RecordField

/-! ## state -/

namespace State

open Json.RecordField (says_of_cons fits_of)

namespace Signal

/-- The fields of a measurement. -/
def fields (s : Signal) : List RecordField :=
  [.of "signalType" s.network, .of "signalLevel" s.level, .of "dBm" s.dBm]

instance : WireForms Signal where
  Form s := RecordForm s.fields
  depth := 2
  form_write s := .inl (.of_record (by simp [fields, Json.RecordField.of, form_write]))
  read_form m s v h := by
    obtain ⟨values, hfields, hvalues⟩ := h.fields? fieldNames rfl (by decide)
    simp only [fields, says_of_cons] at hvalues
    obtain ⟨network, _, rfl, hnetwork, level, _, rfl, hlevel, dBm, _, rfl, hdBm, ⟨⟩⟩ := hvalues
    unfold Wire.read instWire
    simp [hfields, read_form m.inside hnetwork, read_form m.inside hlevel, read_form m.inside hdBm]
  isPlain_form h hroom := h.isPlain hroom fun room hroom => by
    simp only [fields, List.forall_mem_cons]
    exact ⟨fits_of hroom, fits_of (Nat.zero_le room), fits_of (Nat.zero_le room),
      List.forall_mem_nil _⟩
  read_buffered {depth v a} h := by
    unfold Wire.read instWire at h ⊢
    dsimp only at h ⊢
    split at h
    · simp only [Option.bind_eq_bind, Option.bind_eq_some_iff] at h ⊢
      obtain ⟨network, hnetwork, level, hlevel, dBm, hdBm, heq⟩ := h
      exact ⟨network, read_buffered hnetwork, level, read_buffered hlevel,
        dBm, read_buffered hdBm, heq⟩
    · contradiction

end Signal

namespace Cell

/-- The fields of a cell. -/
def fields (c : Cell) : List RecordField :=
  [.of "networkType" c.network, .of "signalInformation" c.signal]

instance : WireForms Cell where
  Form c := RecordForm c.fields
  depth := 3
  form_write c := .inl (.of_record (by simp [fields, Json.RecordField.of, form_write]))
  read_form m c v h := by
    obtain ⟨values, hfields, hvalues⟩ := h.fields? fieldNames rfl (by decide)
    simp only [fields, says_of_cons] at hvalues
    obtain ⟨network, _, rfl, hnetwork, signal, _, rfl, hsignal, ⟨⟩⟩ := hvalues
    unfold Wire.read instWire
    simp [hfields, read_form m.inside hnetwork, read_form m.inside hsignal]
  isPlain_form h hroom := h.isPlain hroom fun room hroom => by
    simp only [fields, List.forall_mem_cons]
    exact ⟨fits_of (Nat.le_of_succ_le hroom), fits_of hroom, List.forall_mem_nil _⟩
  read_buffered {depth v a} h := by
    unfold Wire.read instWire at h ⊢
    dsimp only at h ⊢
    split at h
    · simp only [Option.bind_eq_bind, Option.bind_eq_some_iff] at h ⊢
      obtain ⟨network, hnetwork, signal, hsignal, heq⟩ := h
      exact ⟨network, read_buffered hnetwork, signal, read_buffered hsignal, heq⟩
    · contradiction

end Cell

namespace Network

/-- The fields of a network. -/
def fields (n : Network) : List RecordField :=
  [.of "longOperatorName" n.longName, .of "shortOperatorName" n.shortName,
    .of "plmnNumeric" n.plmn, .of "isRoaming" n.roaming, .of "regState" n.service,
    .of "cfgTech" n.technology, .of "nsaState" n.nsa, .of "isEmergency" n.emergency]

instance : WireForms Network where
  Form n := RecordForm n.fields
  depth := 2
  form_write n := .inl (.of_record (by simp [fields, Json.RecordField.of, form_write]))
  read_form m n v h := by
    obtain ⟨values, hfields, hvalues⟩ := h.fields? fieldNames rfl (by decide)
    simp only [fields, says_of_cons] at hvalues
    obtain ⟨longName, _, rfl, hlongName, shortName, _, rfl, hshortName, plmn, _, rfl, hplmn,
      roaming, _, rfl, hroaming, service, _, rfl, hservice, technology, _, rfl, htechnology,
      nsa, _, rfl, hnsa, emergency, _, rfl, hemergency, ⟨⟩⟩ := hvalues
    unfold Wire.read instWire
    simp [hfields, read_form m.inside hlongName, read_form m.inside hshortName,
      read_form m.inside hplmn, read_form m.inside hroaming, read_form m.inside hservice,
      read_form m.inside htechnology, read_form m.inside hnsa, read_form m.inside hemergency]
  isPlain_form h hroom := h.isPlain hroom fun room hroom => by
    simp only [fields, List.forall_mem_cons]
    exact ⟨fits_of (Nat.zero_le room), fits_of (Nat.zero_le room),
      fits_of (Nat.zero_le room), fits_of (Nat.zero_le room), fits_of hroom,
      fits_of hroom, fits_of hroom, fits_of (Nat.zero_le room), List.forall_mem_nil _⟩
  read_buffered {depth v a} h := by
    unfold Wire.read instWire at h ⊢
    dsimp only at h ⊢
    split at h
    · simp only [Option.bind_eq_bind, Option.bind_eq_some_iff] at h ⊢
      obtain ⟨longName, hlongName, shortName, hshortName, plmn, hplmn, roaming, hroaming,
        service, hservice, technology, htechnology, nsa, hnsa, emergency, hemergency, heq⟩ := h
      exact ⟨longName, read_buffered hlongName, shortName, read_buffered hshortName,
        plmn, read_buffered hplmn, roaming, read_buffered hroaming,
        service, read_buffered hservice, technology, read_buffered htechnology,
        nsa, read_buffered hnsa, emergency, read_buffered hemergency, heq⟩
    · contradiction

end Network

namespace DataConnection

/-- The fields of a data connection. -/
def fields (d : DataConnection) : List RecordField :=
  [.of "state" d.state, .of "network" d.network]

instance : WireForms DataConnection where
  Form d := RecordForm d.fields
  depth := 2
  form_write d := .inl (.of_record (by simp [fields, Json.RecordField.of, form_write]))
  read_form m d v h := by
    obtain ⟨values, hfields, hvalues⟩ := h.fields? fieldNames rfl (by decide)
    simp only [fields, says_of_cons] at hvalues
    obtain ⟨state, _, rfl, hstate, network, _, rfl, hnetwork, ⟨⟩⟩ := hvalues
    unfold Wire.read instWire
    simp [hfields, read_form m.inside hstate, read_form m.inside hnetwork]
  isPlain_form h hroom := h.isPlain hroom fun room hroom => by
    simp only [fields, List.forall_mem_cons]
    exact ⟨fits_of hroom, fits_of hroom, List.forall_mem_nil _⟩
  read_buffered {depth v a} h := by
    unfold Wire.read instWire at h ⊢
    dsimp only at h ⊢
    split at h
    · simp only [Option.bind_eq_bind, Option.bind_eq_some_iff] at h ⊢
      obtain ⟨state, hstate, network, hnetwork, heq⟩ := h
      exact ⟨state, read_buffered hstate, network, read_buffered hnetwork, heq⟩
    · contradiction

end DataConnection

namespace Call

/-- The fields of a call. -/
def fields (c : Call) : List RecordField :=
  [.of "state" c.state, .of "number" c.number]

instance : WireForms Call where
  Form c := RecordForm c.fields
  depth := 2
  form_write c := .inl (.of_record (by simp [fields, Json.RecordField.of, form_write]))
  read_form m c v h := by
    obtain ⟨values, hfields, hvalues⟩ := h.fields? fieldNames rfl (by decide)
    simp only [fields, says_of_cons] at hvalues
    obtain ⟨state, _, rfl, hstate, number, _, rfl, hnumber, ⟨⟩⟩ := hvalues
    unfold Wire.read instWire
    simp [hfields, read_form m.inside hstate, read_form m.inside hnumber]
  isPlain_form h hroom := h.isPlain hroom fun room hroom => by
    simp only [fields, List.forall_mem_cons]
    exact ⟨fits_of hroom, fits_of (Nat.zero_le room), List.forall_mem_nil _⟩
  read_buffered {depth v a} h := by
    unfold Wire.read instWire at h ⊢
    dsimp only at h ⊢
    split at h
    · simp only [Option.bind_eq_bind, Option.bind_eq_some_iff] at h ⊢
      obtain ⟨state, hstate, number, hnumber, heq⟩ := h
      exact ⟨state, read_buffered hstate, number, read_buffered hnumber, heq⟩
    · contradiction

end Call

namespace Card

/-- The fields of a card. -/
def fields (c : Card) : List RecordField :=
  [.of "type" c.type, .of "state" c.state, .of "reason" c.lock]

instance : WireForms Card where
  Form c := RecordForm c.fields
  depth := 2
  form_write c := .inl (.of_record (by simp [fields, Json.RecordField.of, form_write]))
  read_form m c v h := by
    obtain ⟨values, hfields, hvalues⟩ := h.fields? fieldNames rfl (by decide)
    simp only [fields, says_of_cons] at hvalues
    obtain ⟨type, _, rfl, htype, state, _, rfl, hstate, lock, _, rfl, hlock, ⟨⟩⟩ := hvalues
    unfold Wire.read instWire
    simp [hfields, read_form m.inside htype, read_form m.inside hstate, read_form m.inside hlock]
  isPlain_form h hroom := h.isPlain hroom fun room hroom => by
    simp only [fields, List.forall_mem_cons]
    exact ⟨fits_of hroom, fits_of hroom, fits_of hroom, List.forall_mem_nil _⟩
  read_buffered {depth v a} h := by
    unfold Wire.read instWire at h ⊢
    dsimp only at h ⊢
    split at h
    · simp only [Option.bind_eq_bind, Option.bind_eq_some_iff] at h ⊢
      obtain ⟨type, htype, state, hstate, lock, hlock, heq⟩ := h
      exact ⟨type, read_buffered htype, state, read_buffered hstate, lock, read_buffered hlock,
        heq⟩
    · contradiction

end Card

end State

end SlotWatch

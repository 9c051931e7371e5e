import Mathlib.Data.List.Forall2
import SlotWatch.Proofs.Wire

/-!
# SlotWatch.Proofs.Fields

Records in all their forms.

1. A field is a name and the values that say what is meant there; some fields are meant as well
   if they are left out (`RecordField`).
2. A record is an object with its fields in any order, and members of other names among them, or
   an array of its fields in their order, where what is left out is left off the end
   (`RecordForm`).
3. In each of these forms every field is found again (`RecordForm.fields?`).
4. Other members may hold what any buffer takes (`Scalar`), so a record can be buffered if its
   fields can (`RecordForm.isPlain`).
-/

namespace SlotWatch.Json

/-! ## what is ignored -/

/-- What a member of an unknown name may hold: `null`, a truth value or an integer of 64 bits,
with a sign or without. -/
inductive Scalar : Json → Prop where
  | null : Scalar .null
  | bool (b : Bool) : Scalar (.bool b)
  | int {n : Int} (h : Int64.minValue.toInt ≤ n ∧ n < UInt64.size) : Scalar (.int n)

/-- More digits make no smaller number. -/
theorem le_ofDigitChars (cs : List Char) (n : Nat) : n ≤ Nat.ofDigitChars 10 cs n := by
  induction cs generalizing n with
  | nil => exact Nat.le_refl n
  | cons c cs ih =>
      have hnext : n ≤ 10 * n + (c.toNat - '0'.toNat) := by omega
      exact Nat.le_trans hnext (ih _)

namespace Numeral

/-- Digits are taken as long as they fit. -/
theorem takeWhole_eq {cs : List Char} {n : Nat}
    (h : Nat.ofDigitChars 10 cs n ≤ maxSignificand) :
    takeWhole cs n = (Nat.ofDigitChars 10 cs n, 0) := by
  induction cs generalizing n with
  | nil => rfl
  | cons c cs ih =>
      have hnext : 10 * n + (c.toNat - '0'.toNat) ≤ maxSignificand :=
        Nat.le_trans (le_ofDigitChars cs _) h
      rw [takeWhole, if_pos hnext]
      exact ih h

/-- Rounding to a float does not double a number. -/
theorem roundDouble_lt {n : Nat} (h : n < UInt64.size) :
    Text.roundDouble n < 2 * UInt64.size := by
  have hlog : n.log2 + 1 - 53 ≤ 11 := by
    rcases Nat.eq_zero_or_pos n with rfl | hn
    · decide
    · have hlt : n.log2 < 64 := (Nat.log2_lt (Nat.ne_of_gt hn)).mpr h
      omega
  have hunit : 1 <<< (n.log2 + 1 - 53) ≤ 2048 := by
    rw [Nat.shiftLeft_eq, Nat.one_mul]
    exact Nat.pow_le_pow_right (by decide) hlog
  unfold Text.roundDouble
  generalize 1 <<< (n.log2 + 1 - 53) = unit at hunit
  have hlow : n / unit * unit ≤ n := Nat.div_mul_le_self n unit
  have hsize : UInt64.size = 18446744073709551616 := rfl
  dsimp only
  split
  · omega
  · rw [Nat.succ_mul]
    omega

/-- **An integer of 64 bits is in the range of a double.** -/
theorem overflows_ofInt {n : Int} (h : n.natAbs < UInt64.size) :
    (ofInt n).overflows = false := by
  have hdigits : Nat.ofDigitChars 10 (Nat.toDigits 10 n.natAbs) 0 = n.natAbs :=
    Nat.ofDigitChars_ten_toDigits
  have hwhole : takeWhole (Nat.toDigits 10 n.natAbs) 0 = _ :=
    takeWhole_eq (hdigits.symm ▸ Nat.le_sub_one_of_lt h)
  have hround := roundDouble_lt h
  have hone : Text.roundDouble (Nat.pow 10 0) = 1 := by decide
  have hinfinite : 2 * UInt64.size ≤ Text.firstInfinite := by decide
  simp only [overflows, ofInt, hwhole, hdigits, takeFraction]
  show scaleOverflows n.natAbs (Int.ofNat 0) = false
  simp only [scaleOverflows, hone, Nat.mul_one]
  split
  · rfl
  · exact decide_eq_false (by omega)

end Numeral

theorem isPlain_int {n : Int} (h : n.natAbs < UInt64.size) (room : Nat) :
    (int n).isPlain room = true := by
  cases room <;> simp [int, isPlain, Numeral.overflows_ofInt h]

/-- What is ignored can be buffered. -/
theorem Scalar.isPlain {v : Json} (h : Scalar v) (room : Nat) : v.isPlain room = true := by
  cases h with
  | null | bool => cases room <;> rfl
  | int h =>
      have hmin : Int64.minValue.toInt = -9223372036854775808 := rfl
      have hsize : UInt64.size = 18446744073709551616 := rfl
      exact isPlain_int (by omega) room

/-! ## fields -/

/-- A field of a record: its name, the values that say what is meant there, and whether the same is
meant by leaving the field out. -/
structure RecordField where
  name : String
  Value : Json → Prop
  Spare : Prop := False

/-- Whether the value of a field, or its absence, says what is meant. -/
def RecordField.Says (f : RecordField) : Option Json → Prop
  | some v => f.Value v
  | none => f.Spare

/-- Whether the values of a field can be buffered where so many more containers may be nested. -/
def RecordField.Fits (room : Nat) (f : RecordField) : Prop :=
  ∀ v, f.Value v → v.isPlain room = true

/-- A field that may not be left out has a value. -/
theorem RecordField.says_of_needed {name : String} {Value : Json → Prop} {o : Option Json} :
    RecordField.Says { name, Value } o ↔ ∃ v, o = some v ∧ Value v := by
  cases o <;> simp [Says]

/-- The members that give the fields their values. -/
def given : List RecordField → List (Option Json) → List (String × Json)
  | f :: fs, some v :: os => (f.name, v) :: given fs os
  | _ :: fs, none :: os => given fs os
  | _, _ => []

/-- Fields that are given keep their order and their names. -/
theorem keys_given (fs : List RecordField) (os : List (Option Json)) :
    ((given fs os).map Prod.fst).Sublist (fs.map RecordField.name) := by
  fun_induction given fs os with
  | case1 f fs v os ih => exact ih.cons_cons f.name
  | case2 f fs os ih => exact ih.cons f.name
  | case3 => exact List.nil_sublist _

/-- Only values that are there are given. -/
theorem mem_of_mem_given {fs : List RecordField} {os : List (Option Json)} {m : String × Json}
    (h : m ∈ given fs os) : some m.2 ∈ os := by
  fun_induction given fs os with
  | case1 f fs v os ih =>
      rcases List.mem_cons.mp h with rfl | h
      · exact List.mem_cons_self
      · exact List.mem_cons_of_mem _ (ih h)
  | case2 f fs os ih => exact List.mem_cons_of_mem _ (ih h)
  | case3 => contradiction

/-- A value that is there is a value of one of the fields. -/
theorem value_of_mem {fs : List RecordField} {os : List (Option Json)}
    (h : List.Forall₂ RecordField.Says fs os) {v : Json} (hv : some v ∈ os) :
    ∃ f ∈ fs, f.Value v := by
  induction h with
  | nil => contradiction
  | @cons f o fs os hf _ ih =>
      rcases List.mem_cons.mp hv with rfl | hv
      · exact ⟨f, List.mem_cons_self, hf⟩
      · obtain ⟨g, hg, hvalue⟩ := ih hv
        exact ⟨g, List.mem_cons_of_mem f hg, hvalue⟩

/-- The values that members of a name hold. -/
def valuesOf (name : String) (ms : List (String × Json)) : List Json :=
  (ms.filter (·.1 == name)).map Prod.snd

/-- A name that no member has holds nothing. -/
theorem valuesOf_eq_nil {name : String} {ms : List (String × Json)}
    (h : name ∉ ms.map Prod.fst) : valuesOf name ms = [] := by
  have hnone : ∀ m ∈ ms, ¬ (m.1 == name) = true := by
    intro m hm heq
    exact h (eq_of_beq heq ▸ List.mem_map_of_mem hm)
  rw [valuesOf, List.filter_eq_nil_iff.mpr hnone, List.map_nil]

/-- Among the members that give the fields their values every field is found once, or not at
all. -/
theorem valuesOf_given {fs : List RecordField} {os : List (Option Json)}
    (h : List.Forall₂ RecordField.Says fs os) (hnames : (fs.map RecordField.name).Nodup) :
    fs.map (fun f => valuesOf f.name (given fs os)) = os.map Option.toList := by
  induction h with
  | nil => rfl
  | @cons f o fs os _ _ ih =>
      obtain ⟨hnew, hfs⟩ := List.nodup_cons.mp hnames
      have hhead : valuesOf f.name (given fs os) = [] :=
        valuesOf_eq_nil fun hmem => hnew ((keys_given fs os).subset hmem)
      cases o with
      | none => rw [List.map_cons, List.map_cons, ← ih hfs, given, hhead]; rfl
      | some v =>
          have htail : ∀ g ∈ fs, valuesOf g.name ((f.name, v) :: given fs os) =
              valuesOf g.name (given fs os) := by
            intro g hg
            have hne : f.name ≠ g.name := fun heq => hnew (heq ▸ List.mem_map_of_mem hg)
            simp [valuesOf, hne]
          rw [List.map_cons, List.map_cons, ← ih hfs, given, List.map_congr_left htail]
          simpa [valuesOf] using hhead

/-! ## objects -/

/-- The forms of a record as an object: its fields in any order, and members of other names among
them. -/
inductive ObjectForm (fields : List RecordField) : Json → Prop where
  | mk {values : List (Option Json)} {extras ms : List (String × Json)}
      (hvalues : List.Forall₂ RecordField.Says fields values)
      (hextras : ∀ e ∈ extras, e.1 ∉ fields.map RecordField.name ∧ Scalar e.2)
      (hms : ms.Perm (given fields values ++ extras)) : ObjectForm fields (record ms)

/-- The members of a record that has every field, in the order of the fields. -/
theorem given_of_record {fields : List RecordField} {ms : List (String × Json)}
    (h : List.Forall₂ (fun (f : RecordField) m => f.name = m.1 ∧ f.Value m.2) fields ms) :
    List.Forall₂ RecordField.Says fields (ms.map fun m => some m.2) ∧
      given fields (ms.map fun m => some m.2) = ms := by
  induction h with
  | nil => exact ⟨.nil, rfl⟩
  | @cons f m fs ms hf _ ih =>
      obtain ⟨hname, hvalue⟩ := hf
      exact ⟨.cons hvalue ih.1, by rw [List.map_cons, given, ih.2, hname]⟩

/-- The fields in their order are a form of the record. -/
theorem ObjectForm.of_record {fields : List RecordField} {ms : List (String × Json)}
    (h : List.Forall₂ (fun (f : RecordField) m => f.name = m.1 ∧ f.Value m.2) fields ms) :
    ObjectForm fields (record ms) := by
  obtain ⟨hvalues, hms⟩ := given_of_record h
  refine .mk hvalues (List.forall_mem_nil _) ?_
  rw [hms, List.append_nil]

section

variable {fields : List RecordField} {values : List (Option Json)}
variable {extras ms : List (String × Json)}

/-- A field that is found once, or not at all, has a value, or none. -/
theorem exists_valuesOf
    (h : fields.map (fun f => valuesOf f.name ms) = values.map Option.toList) {f : RecordField}
    (hf : f ∈ fields) : ∃ o : Option Json, valuesOf f.name ms = o.toList := by
  have hmem : valuesOf f.name ms ∈ values.map Option.toList := h ▸ List.mem_map_of_mem hf
  obtain ⟨o, -, ho⟩ := List.mem_map.mp hmem
  exact ⟨o, ho.symm⟩

/-- In an object every field is found once, or not at all. -/
theorem valuesOf_of_perm (hvalues : List.Forall₂ RecordField.Says fields values)
    (hextras : ∀ e ∈ extras, e.1 ∉ fields.map RecordField.name)
    (hms : ms.Perm (given fields values ++ extras)) (hnames : (fields.map RecordField.name).Nodup) :
    fields.map (fun f => valuesOf f.name ms) = values.map Option.toList := by
  rw [← valuesOf_given hvalues hnames]
  refine List.map_congr_left fun f hf => ?_
  have hother : valuesOf f.name extras = [] := by
    refine valuesOf_eq_nil fun hmem => ?_
    obtain ⟨e, he, heq⟩ := List.mem_map.mp hmem
    exact hextras e he (heq ▸ List.mem_map_of_mem hf)
  have hperm : (valuesOf f.name ms).Perm (valuesOf f.name (given fields values)) := by
    have hfilter := (hms.filter (·.1 == f.name)).map Prod.snd
    rwa [List.filter_append, List.map_append, ← valuesOf, ← valuesOf, ← valuesOf, hother,
      List.append_nil] at hfilter
  obtain ⟨o, ho⟩ := exists_valuesOf (valuesOf_given hvalues hnames) hf
  -- lists with the same elements are the same if there is at most one element
  rw [ho] at hperm ⊢
  cases o with
  | none => exact hperm.eq_nil
  | some v => exact hperm.eq_singleton

theorem count_memberNames (name : String) :
    (ms.map Prod.fst).count name = (valuesOf name ms).length := by
  simp [valuesOf, List.count, List.countP_eq_length_filter, List.filter_map, Function.comp_def]

/-- The member of a name is the first that has it. -/
theorem member?_record_eq (name : String) :
    member? (ms.map fun m => (some m.1, m.2)) name = (valuesOf name ms).head? := by
  rw [member?, valuesOf, List.head?_map, List.head?_filter, List.find?_map, Option.map_map]
  rfl

end

/-- **The fields of an object are found whatever their order**, and whatever other members stand
among them. -/
theorem ObjectForm.fields? {fields : List RecordField} {v : Json} (h : ObjectForm fields v)
    (hnames : (fields.map RecordField.name).Nodup) :
    ∃ values, Json.fields? (fields.map RecordField.name) v = some values ∧
      List.Forall₂ RecordField.Says fields values := by
  obtain ⟨hvalues, hextras, hms⟩ := h
  rename_i values extras ms
  have hfound := valuesOf_of_perm hvalues (fun e he => (hextras e he).1) hms hnames
  have honce : (fields.map RecordField.name).all fun n => (ms.map Prod.fst).count n ≤ 1 := by
    simp only [List.all_eq_true, List.forall_mem_map, decide_eq_true_eq]
    intro f hf
    obtain ⟨o, ho⟩ := exists_valuesOf hfound hf
    rw [count_memberNames, ho]
    exact Option.length_toList_le
  have hvaluesEq : (fields.map RecordField.name).map (member? (ms.map fun m => (some m.1, m.2))) =
      values := by
    have hheads := congrArg (List.map List.head?) hfound
    simpa [Function.comp_def, member?_record_eq] using hheads
  refine ⟨values, ?_, hvalues⟩
  simp only [Json.fields?, record, memberNames_record, Option.bind_eq_bind, Option.bind_some,
    honce, if_true, hvaluesEq]

/-- A record can be buffered if the values of its members can. -/
theorem membersPlain_record {ms : List (String × Json)} {room : Nat}
    (h : ∀ m ∈ ms, m.2.isPlain room = true) :
    membersPlain room (ms.map fun m => (some m.1, m.2)) = true := by
  induction ms with
  | nil => rfl
  | cons m ms ih =>
      obtain ⟨hm, hms⟩ := List.forall_mem_cons.mp h
      simp [membersPlain, hm, ih hms]

/-- An object can be buffered if its fields can: what is ignored in it can be. -/
theorem ObjectForm.isPlain {fields : List RecordField} {v : Json} (h : ObjectForm fields v)
    {room : Nat} (hfields : ∀ f ∈ fields, f.Fits room) : v.isPlain (room + 1) = true := by
  obtain ⟨hvalues, hextras, hms⟩ := h
  refine membersPlain_record fun m hm => ?_
  rcases List.mem_append.mp (hms.subset hm) with hm | hm
  · obtain ⟨f, hf, hvalue⟩ := value_of_mem hvalues (mem_of_mem_given hm)
    exact hfields f hf m.2 hvalue
  · exact (hextras m hm).2.isPlain room

/-- The only member of a name is told apart from the others, wherever it stands. -/
theorem partition_of_perm {m : String × Json} {ms others : List (String × Json)}
    (hms : ms.Perm (m :: others)) (hothers : ∀ n ∈ others, n.1 ≠ m.1) :
    ∃ rest : List (String × Json), rest.Perm others ∧
      (ms.map fun m => (some m.1, m.2)).partition (·.1 == some m.1) =
        ([(some m.1, m.2)], rest.map fun m => (some m.1, m.2)) := by
  have hnone : others.filter (·.1 == m.1) = [] := by simpa using fun _ _ => hothers _
  have hall : others.filter (not ∘ (·.1 == m.1)) = others := by simpa using fun _ _ => hothers _
  have hfirst := hms.filter (·.1 == m.1)
  have hrest := hms.filter (not ∘ (·.1 == m.1))
  rw [List.filter_cons_of_pos (by simp), hnone] at hfirst
  rw [List.filter_cons_of_neg (by simp), hall] at hrest
  refine ⟨_, hrest, ?_⟩
  have hkey : ((fun n : Option String × Json => n.1 == some m.1) ∘
      fun m : String × Json => (some m.1, m.2)) = (·.1 == m.1) := rfl
  rw [List.partition_eq_filter_filter, List.filter_map, List.filter_map, Function.comp_assoc,
    hkey, hfirst.eq_singleton]
  rfl

/-- A field that may not be left out is told apart from the others by its name. -/
theorem ObjectForm.partition {f : RecordField} {fields : List RecordField} {v : Json}
    (h : ObjectForm (f :: fields) v) (hneeded : ¬ f.Spare)
    (hnames : ((f :: fields).map RecordField.name).Nodup) :
    ∃ ms w rest, v = .object ms ∧ f.Value w ∧
      ms.partition (·.1 == some f.name) = ([(some f.name, w)], rest) ∧
      ObjectForm fields (.object rest) := by
  obtain ⟨hnew, -⟩ := List.nodup_cons.mp hnames
  obtain ⟨hvalues, hextras, hms⟩ := h
  rename_i extras ms
  cases hvalues with
  | @cons _ o _ values ho hvalues =>
    cases o with
    | none => exact absurd ho hneeded
    | some w =>
      rw [given, List.cons_append] at hms
      have hothers : ∀ n ∈ given fields values ++ extras, n.1 ≠ f.name := by
        intro n hn hname
        rcases List.mem_append.mp hn with hn | hn
        · exact hnew ((keys_given fields values).subset (hname ▸ List.mem_map_of_mem hn))
        · exact (hextras n hn).1 (hname ▸ List.mem_cons_self)
      obtain ⟨rest, hrest, hpartition⟩ := partition_of_perm hms hothers
      refine ⟨_, w, _, rfl, ho, hpartition, .mk hvalues (fun e he => ?_) hrest⟩
      exact ⟨fun hmem => (hextras e he).1 (List.mem_cons_of_mem _ hmem), (hextras e he).2⟩

/-! ## arrays -/

/-- The forms of a record as an array: the fields in their order, those at the end left off if they
may be. -/
inductive ArrayForm (fields : List RecordField) : Json → Prop where
  | mk {values : List Json} {left : Nat}
      (h : List.Forall₂ RecordField.Says fields (values.map some ++ List.replicate left none)) :
      ArrayForm fields (.array values)

/-- An array gives the fields their values in order, and those at the end that are left off
none. -/
theorem ArrayForm.fields? {fields : List RecordField} {v : Json} (h : ArrayForm fields v) :
    ∃ values, Json.fields? (fields.map RecordField.name) v = some values ∧
      List.Forall₂ RecordField.Says fields values := by
  obtain ⟨h⟩ := h
  rename_i values left
  have hlength : fields.length = values.length + left := by simpa using h.length_eq
  have hfits : values.length ≤ fields.length := by omega
  have hleft : fields.length - values.length = left := by omega
  refine ⟨_, ?_, h⟩
  simp only [Json.fields?, List.length_map, hleft, if_pos hfits]

/-- A list can be buffered if its elements can. -/
theorem elementsPlain_of_forall {vs : List Json} {room : Nat}
    (h : ∀ v ∈ vs, v.isPlain room = true) : elementsPlain room vs = true := by
  induction vs with
  | nil => rfl
  | cons v vs ih =>
      obtain ⟨hv, hvs⟩ := List.forall_mem_cons.mp h
      simp [elementsPlain, hv, ih hvs]

/-- A record that is written as an array can be buffered. -/
theorem ArrayForm.isPlain {fields : List RecordField} {v : Json} (h : ArrayForm fields v)
    {room : Nat} (hfields : ∀ f ∈ fields, f.Fits room) : v.isPlain (room + 1) = true := by
  obtain ⟨h⟩ := h
  rename_i values left
  refine elementsPlain_of_forall fun v hv => ?_
  have hmem : some v ∈ values.map some ++ List.replicate left none :=
    List.mem_append_left _ (List.mem_map_of_mem hv)
  obtain ⟨f, hf, hvalue⟩ := value_of_mem h hmem
  exact hfields f hf v hvalue

/-- An array has the field in front of the others if that may not be left out. -/
theorem ArrayForm.eq_cons {f : RecordField} {fields : List RecordField} {v : Json}
    (h : ArrayForm (f :: fields) v) (hneeded : ¬ f.Spare) :
    ∃ w others, v = .array (w :: others) ∧ f.Value w ∧ ArrayForm fields (.array others) := by
  obtain ⟨h⟩ := h
  rename_i values left
  cases values with
  | nil =>
      cases left with
      | zero => cases h
      | succ left => cases h with | cons hf _ => exact absurd hf hneeded
  | cons w others => cases h with | cons hf h => exact ⟨w, others, rfl, hf, .mk h⟩

/-! ## records -/

/-- The forms of a record. -/
def RecordForm (fields : List RecordField) (v : Json) : Prop :=
  ObjectForm fields v ∨ ArrayForm fields v

namespace RecordForm

variable {fields : List RecordField} {v : Json}

/-- **In every form of a record its fields are found**, if they have different names. -/
theorem fields? (h : RecordForm fields v) (names : List String)
    (hfields : fields.map RecordField.name = names) (hnames : names.Nodup) :
    ∃ values, Json.fields? names v = some values ∧ List.Forall₂ RecordField.Says fields values := by
  subst hfields
  exact h.elim (fun h => h.fields? hnames) fun h => h.fields?

/-- **A record can be buffered if its fields can**, with one more container around them. -/
theorem isPlain (h : RecordForm fields v) {depth room : Nat} (hroom : depth < room)
    (hfields : ∀ room, depth ≤ room → ∀ f ∈ fields, f.Fits room) : v.isPlain room = true := by
  obtain ⟨room, rfl⟩ := Nat.exists_eq_add_of_le' (Nat.lt_of_le_of_lt (Nat.zero_le depth) hroom)
  have hinside := hfields room (Nat.le_of_lt_succ hroom)
  exact h.elim (fun h => h.isPlain hinside) fun h => h.isPlain hinside

end RecordForm

end SlotWatch.Json

import Mathlib.Data.List.Nodup
import SlotWatch.Payload
import SlotWatch.Proofs.Named
import SlotWatch.Proofs.Reading
import SlotWatch.Settings

/-!
# SlotWatch.Proofs.Wire

Reading payloads and settings back from their JSON texts.

1. The fields of a record are read back if they have different names (`Json.fields?_record`).
2. A type is lawful (`LawfulWire`) if its values are read back from their JSON forms, straight
   from a text or out of a buffered value, and those forms are legible.  Every type that a
   payload or the settings hold is lawful: numbers, texts, lists, enumerations, records.
3. So is `Payload`, whose kind stands in front of its value, and so is `Settings`.
4. A text is read as the value it was written from, and nothing of it is left over
   (`texts_read_back`).
-/

namespace SlotWatch

namespace Json

/-! ## legible values -/

theorem legible_int (n : Int) : (int n).Legible := by
  simp [Legible, int, tokens, Token.Legible]

theorem legible_str (s : String) : (str s).Legible := by
  simp [Legible, str, tokens, Token.Legible]

/-- Further elements are legible, and so are the commas before them. -/
theorem legible_moreElementTokens {vs : List Json} (h : ∀ v ∈ vs, v.Legible) :
    ∀ t ∈ moreElementTokens vs, t.Legible := by
  induction vs with
  | nil => simp [moreElementTokens]
  | cons v vs ih =>
      obtain ⟨hv, hvs⟩ := List.forall_mem_cons.mp h
      rw [moreElementTokens, List.forall_mem_cons, List.forall_mem_append]
      exact ⟨trivial, hv, ih hvs⟩

/-- A list of legible values is legible. -/
theorem legible_array {vs : List Json} (h : ∀ v ∈ vs, v.Legible) : (array vs).Legible := by
  unfold Legible
  rw [tokens, List.forall_mem_cons, List.forall_mem_append, List.forall_mem_singleton]
  refine ⟨trivial, ?_, trivial⟩
  cases vs with
  | nil => simp [elementTokens]
  | cons v vs =>
      obtain ⟨hv, hvs⟩ := List.forall_mem_cons.mp h
      rw [elementTokens, List.forall_mem_append]
      exact ⟨hv, legible_moreElementTokens hvs⟩

/-- Names, colons and commas are legible. -/
theorem legible_moreMemberTokens {ms : List (Option String × Json)}
    (h : ∀ m ∈ ms, m.1.isSome ∧ m.2.Legible) : ∀ t ∈ moreMemberTokens ms, t.Legible := by
  induction ms with
  | nil => simp [moreMemberTokens]
  | cons m ms ih =>
      obtain ⟨hm, hms⟩ := List.forall_mem_cons.mp h
      rw [moreMemberTokens, List.forall_mem_cons, List.forall_mem_cons, List.forall_mem_cons,
        List.forall_mem_append]
      exact ⟨trivial, hm.1, trivial, hm.2, ih hms⟩

/-- A record of legible values is legible, as its names are. -/
theorem legible_record {ms : List (String × Json)} (h : ∀ m ∈ ms, m.2.Legible) :
    (record ms).Legible := by
  have hmembers : ∀ m ∈ ms.map fun m => (some m.1, m.2), m.1.isSome ∧ m.2.Legible := by
    intro m hm
    obtain ⟨n, hn, rfl⟩ := List.mem_map.mp hm
    exact ⟨rfl, h n hn⟩
  unfold Legible record
  rw [tokens, List.forall_mem_cons, List.forall_mem_append, List.forall_mem_singleton]
  refine ⟨trivial, ?_, trivial⟩
  revert hmembers
  cases ms.map fun m => (some m.1, m.2) with
  | nil => simp [memberTokens]
  | cons m ms =>
      intro hmembers
      obtain ⟨hm, hms⟩ := List.forall_mem_cons.mp hmembers
      rw [memberTokens, List.forall_mem_cons, List.forall_mem_cons, List.forall_mem_append]
      exact ⟨hm.1, trivial, hm.2, legible_moreMemberTokens hms⟩

/-! ## records -/

/-- A record has the names that it was written with. -/
theorem memberNames_record (ms : List (String × Json)) :
    memberNames (ms.map fun m => (some m.1, m.2)) = some (ms.map Prod.fst) := by
  unfold memberNames
  induction ms with
  | nil => rfl
  | cons m ms ih => simp [List.mapM_cons, ih]

/-- A member is found under its name if no other has it. -/
theorem member?_record {ms : List (String × Json)} (h : (ms.map Prod.fst).Nodup)
    {m : String × Json} (hm : m ∈ ms) :
    member? (ms.map fun m => (some m.1, m.2)) m.1 = some m.2 := by
  induction ms with
  | nil => contradiction
  | cons n ms ih =>
      obtain ⟨hnew, hms⟩ := List.nodup_cons.mp h
      unfold member? at ih ⊢
      rcases List.mem_cons.mp hm with rfl | hm
      · simp
      · have hne : n.1 ≠ m.1 := fun heq => hnew (heq ▸ List.mem_map_of_mem hm)
        rw [List.map_cons, List.find?_cons_of_neg (by simp [hne])]
        exact ih hms hm

/-- **The fields of a record are read back**, if they have different names. -/
theorem fields?_record {ms : List (String × Json)} {names : List String}
    (hnames : ms.map Prod.fst = names) (h : names.Nodup) :
    fields? names (record ms) = some (ms.map fun m => some m.2) := by
  subst hnames
  have honce : (ms.map Prod.fst).all fun n => (ms.map Prod.fst).count n ≤ 1 := by
    simpa using fun n _ _ => List.nodup_iff_count_le_one.mp h n
  simp only [record, fields?, memberNames_record, Option.bind_eq_bind, Option.bind_some, honce,
    if_true, List.map_map, Option.some.injEq, List.map_inj_left]
  exact fun m hm => member?_record h hm

end Json

/-! ## types -/

/-- A type whose values are read back from their JSON forms, which hold no surprises. -/
class LawfulWire (α : Type) [Wire α] : Prop where
  legible : ∀ a : α, (Wire.write a).Legible
  read_write : ∀ (m : Json.Manner) (a : α), Wire.read m (Wire.write a) = some a

attribute [simp] LawfulWire.read_write

section

open Json

variable {α : Type} [Wire α] [LawfulWire α]

instance : LawfulWire Bool where
  legible b := by simp [Wire.write, Legible, tokens, Token.Legible]
  read_write _ _ := rfl

instance : LawfulWire String where
  legible := legible_str
  read_write _ _ := rfl

/-- The numeral of an integer has its value. -/
theorem toInt?_ofInt (n : Int) : (Numeral.ofInt n).toInt? = some n := by
  have hzero : ¬ (n < 0 ∧ Nat.toDigits 10 n.natAbs = ['0']) := by
    rintro ⟨hneg, hdigits⟩
    have hn : n.natAbs = 0 := Toml.head?_toDigits (by rw [hdigits]; rfl)
    omega
  simp only [Numeral.toInt?, Numeral.ofInt, decide_eq_true_eq, true_and, if_pos hzero,
    Text.signed, Nat.ofDigitChars_ten_toDigits, Option.some.injEq]
  split <;> omega

theorem int32?_toInt (n : Int32) : int32? n.toInt = some n := by
  rw [int32?, if_pos ⟨n.minValue_le_toInt, n.toInt_le⟩, Int32.ofInt_toInt]

instance : LawfulWire Int32 where
  legible n := legible_int n.toInt
  read_write _ n := by
    show (Numeral.ofInt n.toInt).toInt?.bind int32? = some n
    rw [toInt?_ofInt, Option.bind_some, int32?_toInt]

/-- A list is read back element by element. -/
theorem mapM_read_write (m : Manner) (as : List α) :
    (as.map Wire.write).mapM (Wire.read m) = some as := by
  induction as with
  | nil => rfl
  | cons a as ih => simp [List.mapM_cons, LawfulWire.read_write, ih]

instance : LawfulWire (List α) where
  legible as := by
    refine legible_array fun v hv => ?_
    obtain ⟨a, -, rfl⟩ := List.mem_map.mp hv
    exact LawfulWire.legible a
  read_write m as := mapM_read_write m.inside as

end

/-- A text that may be absent is never written as the absent one. -/
instance : LawfulWire (Option String) where
  legible s := by
    cases s with
    | none => simp [Wire.write, Json.Legible, Json.tokens, Json.Token.Legible]
    | some s => exact LawfulWire.legible s
  read_write _ s := by cases s <;> rfl

instance {α : Type} [Named α] [LawfulNamed α] : LawfulWire α where
  legible a := Json.legible_str (Named.name a)
  read_write _ a := LawfulNamed.ofName?_name a

/-! ## state -/

namespace State

instance : LawfulWire Signal where
  legible s := Json.legible_record (by simp [LawfulWire.legible])
  read_write m s := by
    unfold Wire.read Signal.instWire
    dsimp only
    rw [Json.fields?_record]
    · simp
    · rfl
    · decide

instance : LawfulWire Cell where
  legible c := Json.legible_record (by simp [LawfulWire.legible])
  read_write m c := by
    unfold Wire.read Cell.instWire
    dsimp only
    rw [Json.fields?_record]
    · simp
    · rfl
    · decide

instance : LawfulWire Network where
  legible n := Json.legible_record (by simp [LawfulWire.legible])
  read_write m n := by
    unfold Wire.read Network.instWire
    dsimp only
    rw [Json.fields?_record]
    · simp
    · rfl
    · decide

instance : LawfulWire DataConnection where
  legible d := Json.legible_record (by simp [LawfulWire.legible])
  read_write m d := by
    unfold Wire.read DataConnection.instWire
    dsimp only
    rw [Json.fields?_record]
    · simp
    · rfl
    · decide

instance : LawfulWire Call where
  legible c := Json.legible_record (by simp [LawfulWire.legible])
  read_write m c := by
    unfold Wire.read Call.instWire
    dsimp only
    rw [Json.fields?_record]
    · simp
    · rfl
    · decide

instance : LawfulWire Card where
  legible c := Json.legible_record (by simp [LawfulWire.legible])
  read_write m c := by
    unfold Wire.read Card.instWire
    dsimp only
    rw [Json.fields?_record]
    · simp
    · rfl
    · decide

end State

/-! ## settings -/

instance : LawfulWire SlotSettings where
  legible s := Json.legible_record (by simp [LawfulWire.legible])
  read_write m s := by
    unfold Wire.read instWireSlotSettings
    dsimp only
    rw [Json.fields?_record]
    · simp [readOr]
    · rfl
    · decide

instance : LawfulWire LogSettings where
  legible s := Json.legible_record (by simp [LawfulWire.legible])
  read_write m s := by
    unfold Wire.read instWireLogSettings
    dsimp only
    rw [Json.fields?_record]
    · simp [readOr]
    · rfl
    · decide

instance : LawfulWire Settings where
  legible s := Json.legible_record (by simp [LawfulWire.legible])
  read_write m s := by
    unfold Wire.read instWireSettings
    dsimp only
    rw [Json.fields?_record]
    · simp [readOr]
    · rfl
    · decide

/-! ## payloads -/

namespace Payload

/-- The value of a payload is legible, whatever its kind. -/
theorem legible_data (p : Payload) : p.data.Legible := by
  cases p with
  | iccAccount => simp [data, Json.Legible, Json.tokens, Json.Token.Legible]
  | _ => exact LawfulWire.legible _

/-- The value of a payload is read back for its kind. -/
theorem ofData?_data (m : Json.Manner) (p : Payload) : ofData? m p.kind p.data = some p := by
  cases p <;> simp [kind, ofData?, data]

theorem write_eq_record (p : Payload) : ∃ ms, Wire.write p = .record ms := by
  cases p <;> exact ⟨_, rfl⟩

/-- Every payload that carries a value is written with its kind in front. -/
theorem write_of_ne {p : Payload} (h : p ≠ .iccAccount) :
    Wire.write p = .record [("type", Wire.write p.kind), ("data", p.data)] := by
  cases p <;> first | rfl | contradiction

instance : LawfulWire Payload where
  legible p := by
    by_cases h : p = .iccAccount
    · subst h
      exact Json.legible_record (by simp [LawfulWire.legible])
    · rw [write_of_ne h]
      exact Json.legible_record (by simp [LawfulWire.legible, legible_data])
  read_write m p := by
    by_cases h : p = .iccAccount
    · subst h
      rfl
    · rw [write_of_ne h]
      show ofMembers? m _ = some p
      have hfields : Json.fields? ["type", "data"] (.record [("type", Wire.write p.kind),
          ("data", p.data)]) = some [some (Wire.write p.kind), some p.data] :=
        Json.fields?_record rfl (by decide)
      simp only [Json.record] at hfields
      simp only [ofMembers?, hfields]
      simp [firstTag?, ofData?_data]

end Payload

/-! ## texts -/

/-- An object is no number, so its text needs nothing after it to end. -/
theorem Wire.ofText?_append {α : Type} [Wire α] [LawfulWire α] {a : α}
    {ms : List (String × Json)} (h : Wire.write a = .record ms) (rest : String) :
    Wire.ofText? α (Wire.toText a ++ rest) =
      if rest.toList.all Json.isBlank then some a else none := by
  have hparse : Json.parse ((Wire.write a).print ++ rest) =
      if rest.toList.all Json.isBlank then some (Wire.write a) else none :=
    Json.parse_print_append (LawfulWire.legible a) (by simp [h, Json.record])
  rw [Wire.ofText?, Wire.toText, hparse]
  split
  · exact LawfulWire.read_write _ a
  · rfl

/-- **Payloads and settings are read back from their compact texts**, and nothing is left over:
only white space may follow a text, and with anything else after it it is refused. -/
theorem texts_read_back (p : Payload) (s : Settings) :
    (Wire.ofText? Payload (Wire.toText p) = some p ∧
      ∀ rest : String, Wire.ofText? Payload (Wire.toText p ++ rest) =
        if rest.toList.all Json.isBlank then some p else none) ∧
    (Wire.ofText? Settings (Wire.toText s) = some s ∧
      ∀ rest : String, Wire.ofText? Settings (Wire.toText s ++ rest) =
        if rest.toList.all Json.isBlank then some s else none) := by
  obtain ⟨ms, hp⟩ := p.write_eq_record
  have hpayload := Wire.ofText?_append hp
  have hsettings := Wire.ofText?_append (a := s) rfl
  exact ⟨⟨by simpa using hpayload "", hpayload⟩, ⟨by simpa using hsettings "", hsettings⟩⟩

end SlotWatch

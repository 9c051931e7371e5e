import SlotWatch.Toml.Scan

/-!
# SlotWatch.Proofs.Numeral

Reading an integer back from its decimal numeral, at the end of a line.

A numeral is a run of digits (`Digits`), after a minus sign if the integer is negative.  A
value is tried as a moment and as a float before it is read as an integer, so the digits
must end where a date, a time, a fraction or an exponent would go on.
-/

namespace SlotWatch.Toml

/-! ## decimal digits -/

/-- The digits of a decimal numeral. -/
structure Digits (ds : List Char) : Prop where
  ne_nil : ds ≠ []
  isDigit : ∀ d ∈ ds, d.isDigit = true
  /-- Nothing follows a zero in front. -/
  zero : ds.head? = some '0' → ds = ['0']

theorem ne_of_isDigit {c d : Char} (hd : d.isDigit = true) (hc : c.isDigit = false) : d ≠ c := by
  rintro rfl
  simp_all

/-- Only zero is written with a zero in front. -/
theorem head?_toDigits {n : Nat} (h : (Nat.toDigits 10 n).head? = some '0') : n = 0 := by
  induction n using Nat.strongRecOn with
  | ind n ih =>
      by_cases hn : n < 10
      · rw [Nat.toDigits_of_lt_base hn, List.head?_singleton, Option.some.injEq] at h
        have hall : ∀ d < 10, Nat.digitChar d = '0' → d = 0 := by decide
        exact hall n hn h
      · rw [Nat.toDigits_of_base_le (by decide) (by omega), List.head?_append,
          List.head?_eq_some_head Nat.toDigits_ne_nil, Option.some_or,
          ← List.head?_eq_some_head] at h
        have hzero := ih (n / 10) (by omega) h
        omega

/-- A number is written in digits. -/
theorem digits_toDigits (n : Nat) : Digits (Nat.toDigits 10 n) where
  ne_nil := Nat.toDigits_ne_nil
  isDigit _ hd := Nat.isDigit_of_mem_toDigits (by decide) (by decide) hd
  zero h := by rw [head?_toDigits h, Nat.toDigits_zero]

/-- The sign of a numeral. -/
def minus (negative : Bool) : List Char := if negative then ['-'] else []

/-- **A decimal numeral is a sign and digits that stand for the integer.** -/
theorem decimal_eq (n : Int) :
    ∃ negative ds, Digits ds ∧ Text.decimal n = minus negative ++ ds ∧
      Text.signed negative ds = n := by
  cases n with
  | ofNat n =>
      refine ⟨false, Nat.toDigits 10 n, digits_toDigits n, rfl, ?_⟩
      simp [Text.signed, Nat.ofDigitChars_ten_toDigits]
  | negSucc n =>
      refine ⟨true, Nat.toDigits 10 (n + 1), digits_toDigits (n + 1), rfl, ?_⟩
      simp only [Text.signed, Nat.ofDigitChars_ten_toDigits, if_true]
      omega

/-! ## digits at the end of a line -/

section

variable {ds : List Char}

/-- Digits are read up to the end of the line. -/
theorem moreDigits_line (h : ∀ d ∈ ds, d.isDigit = true) (rest : List Char) :
    moreDigits Char.isDigit (ds ++ '\n' :: rest) = (ds, '\n' :: rest) := by
  induction ds with
  | nil => simp [moreDigits, Char.isDigit]
  | cons d ds ih =>
      obtain ⟨hd, hds⟩ := List.forall_mem_cons.mp h
      have hne : d ≠ '_' := ne_of_isDigit hd (by decide)
      rw [List.cons_append, moreDigits, ih hds]
      · simp [hd]
      · simp [hne]

/-- A decimal numeral is read up to the end of the line. -/
theorem Digits.decimalDigits?_line (h : Digits ds) (rest : List Char) :
    decimalDigits? (ds ++ '\n' :: rest) = some (ds, '\n' :: rest) := by
  obtain ⟨d, tail, rfl⟩ := List.exists_cons_of_ne_nil h.ne_nil
  by_cases hzero : d = '0'
  · subst hzero
    have htail : tail = [] := by simpa using h.zero rfl
    subst htail
    rfl
  · obtain ⟨hd, htail⟩ := List.forall_mem_cons.mp h.isDigit
    rw [List.cons_append, decimalDigits?]
    · simp [digits?, hd, moreDigits_line htail rest]
    · simp [hzero]

/-- A sign is read if there is one, and digits begin with none. -/
theorem Digits.sign_line (h : Digits ds) (negative : Bool) (rest : List Char) :
    sign (minus negative ++ (ds ++ '\n' :: rest)) = (negative, ds ++ '\n' :: rest) := by
  obtain ⟨d, tail, rfl⟩ := List.exists_cons_of_ne_nil h.ne_nil
  have hd : d.isDigit = true := h.isDigit d List.mem_cons_self
  cases negative with
  | true => rfl
  | false =>
      show sign (d :: _) = _
      rw [sign]
      · rfl
      · simp [ne_of_isDigit hd (show '-'.isDigit = false by decide)]
      · simp [ne_of_isDigit hd (show '+'.isDigit = false by decide)]

/-- A numeral begins with a digit or a minus sign, and with no other mark. -/
theorem Digits.eq_cons (h : Digits ds) (negative : Bool) (rest : List Char) :
    ∃ c tail, minus negative ++ (ds ++ rest) = c :: tail ∧
      ∀ mark : Char, mark.isDigit = false → mark ≠ '-' → c ≠ mark := by
  obtain ⟨d, tail, rfl⟩ := List.exists_cons_of_ne_nil h.ne_nil
  cases negative with
  | true => exact ⟨_, _, rfl, fun _ _ hminus => hminus.symm⟩
  | false =>
      have hd : d.isDigit = true := h.isDigit d List.mem_cons_self
      exact ⟨_, _, rfl, fun _ hmark _ => ne_of_isDigit hd hmark⟩

/-- A numeral that begins with a zero ends there. -/
theorem Digits.eq_of_zero (h : Digits ds) {negative : Bool} {rest tail : List Char}
    (hzero : minus negative ++ (ds ++ rest) = '0' :: tail) : tail = rest := by
  cases negative with
  | true => simp [minus] at hzero
  | false =>
      obtain ⟨d, more, rfl⟩ := List.exists_cons_of_ne_nil h.ne_nil
      obtain ⟨rfl, rfl⟩ := List.cons.inj hzero
      have hmore : more = [] := by simpa using h.zero rfl
      simp [hmore]

/-! ## neither a moment nor a float -/

/-- A fixed number of digits is followed by a digit or the end of the line, so not by a mark. -/
theorem expect?_fixedDigits?_line (h : ∀ d ∈ ds, d.isDigit = true) {rest : List Char}
    {n v : Nat} {after : List Char}
    (hread : fixedDigits? n (ds ++ '\n' :: rest) = some (v, after)) {mark : Char}
    (hmark : mark.isDigit = false) (hline : mark ≠ '\n') :
    expect? mark after = none := by
  simp only [fixedDigits?, Option.ite_none_right_eq_some, Option.some.injEq, Prod.mk.injEq,
    List.all_eq_true] at hread
  obtain ⟨⟨hlen, hall⟩, -, rfl⟩ := hread
  have hn : n ≤ ds.length := by
    rcases Nat.lt_or_ge ds.length n with hlt | hle
    · obtain ⟨k, rfl⟩ : ∃ k, n = ds.length + (k + 1) := ⟨n - ds.length - 1, by omega⟩
      have hend := hall '\n' (by simp [List.take_length_add_append])
      exact absurd hend (by decide)
    · exact hle
  rw [List.drop_append_of_le_length hn]
  cases hdrop : ds.drop n with
  | nil => simp [expect?, hline]
  | cons c tail =>
      have hc : c.isDigit = true := h c (List.mem_of_mem_drop (hdrop ▸ List.mem_cons_self))
      simp [expect?, (ne_of_isDigit hc hmark).symm]

/-- No fixed number of digits begins with a sign. -/
theorem fixedDigits?_minus (n : Nat) (cs : List Char) :
    fixedDigits? (n + 1) ('-' :: cs) = none := by
  simp [fixedDigits?]

/-- A numeral is no date, as nothing but the end of the line follows its digits. -/
theorem Digits.date?_line (h : Digits ds) (negative : Bool) (rest : List Char) :
    date? (minus negative ++ (ds ++ '\n' :: rest)) = none := by
  cases negative with
  | true => simp [date?, minus, fixedDigits?_minus 3]
  | false =>
      show date? (ds ++ '\n' :: rest) = none
      unfold date?
      cases hread : fixedDigits? 4 (ds ++ '\n' :: rest) with
      | none => rfl
      | some r => simp [expect?_fixedDigits?_line h.isDigit hread]

theorem Digits.time?_line (h : Digits ds) (negative : Bool) (rest : List Char) :
    time? (minus negative ++ (ds ++ '\n' :: rest)) = none := by
  cases negative with
  | true => simp [time?, ranged?, minus, fixedDigits?_minus 1]
  | false =>
      show time? (ds ++ '\n' :: rest) = none
      unfold time? ranged?
      cases hread : fixedDigits? 2 (ds ++ '\n' :: rest) with
      | none => rfl
      | some r => simp [expect?_fixedDigits?_line h.isDigit hread]

/-- **A numeral at the end of a line is no moment.** -/
theorem Digits.moment?_line (h : Digits ds) (negative : Bool) (rest : List Char) :
    moment? (minus negative ++ (ds ++ '\n' :: rest)) = none := by
  simp [moment?, h.date?_line, h.time?_line]

/-- **A numeral at the end of a line is no float.** -/
theorem Digits.float?_line (h : Digits ds) (negative : Bool) (rest : List Char) :
    float? (minus negative ++ (ds ++ '\n' :: rest)) = none := by
  obtain ⟨c, tail, heq, hne⟩ := h.eq_cons false ('\n' :: rest)
  simp only [minus, Bool.false_eq_true, if_false, List.nil_append] at heq
  unfold float?
  rw [h.sign_line]
  simp only
  split
  · next hinf =>
      obtain ⟨hc, -⟩ := List.cons.inj (heq.symm.trans hinf)
      exact absurd hc (hne 'i' (by decide) (by decide))
  · next hnan =>
      obtain ⟨hc, -⟩ := List.cons.inj (heq.symm.trans hnan)
      exact absurd hc (hne 'n' (by decide) (by decide))
  · rw [h.decimalDigits?_line]
    rfl

/-! ## integers -/

/-- A numeral is an integer if it fits into 64 bits. -/
theorem Digits.integer?_line (h : Digits ds) (negative : Bool) (rest : List Char) :
    integer? (minus negative ++ (ds ++ '\n' :: rest)) =
      (int64? (Text.signed negative ds)).map fun n => (n, '\n' :: rest) := by
  unfold integer?
  split
  · next hmark => exact absurd (h.eq_of_zero hmark) (by simp)
  · next hmark => exact absurd (h.eq_of_zero hmark) (by simp)
  · next hmark => exact absurd (h.eq_of_zero hmark) (by simp)
  · rw [h.sign_line]
    simp only [h.decimalDigits?_line]
    cases hvalue : int64? (Text.signed negative ds) <;> simp [hvalue]

end

/-- **An integer is read back from its numeral** at the end of a line. -/
theorem scalar?_decimal {n : Int} (hn : int64? n = some n) (rest : List Char) :
    scalar? (Text.decimal n ++ '\n' :: rest) = some (.integer n, '\n' :: rest) := by
  obtain ⟨negative, ds, h, heq, hvalue⟩ := decimal_eq n
  obtain ⟨c, tail, hcons, hne⟩ := h.eq_cons negative ('\n' :: rest)
  have hmoment := h.moment?_line negative rest
  have hfloat := h.float?_line negative rest
  have hinteger := h.integer?_line negative rest
  rw [hvalue, hn] at hinteger
  rw [heq, List.append_assoc]
  rw [hcons] at hmoment hfloat hinteger ⊢
  rw [scalar?]
  · simp [hmoment, hfloat, hinteger]
  all_goals simp [hne]

end SlotWatch.Toml

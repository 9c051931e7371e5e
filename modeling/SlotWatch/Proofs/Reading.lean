import SlotWatch.Proofs.Token

/-!
# SlotWatch.Proofs.Reading

Reading a JSON value back from its compact text.

1. The text of a value spells its tokens, if each of these can be told from its spelling
   (`printed_tokens`).
2. From the tokens of a value a reader gets the value, whatever containers are still open
   (`run_tokens`).
3. So a text is read as the value, and nothing but white space may follow
   (`parse_print_append`).
-/

namespace SlotWatch.Json

/-- Whether each token of a value can be told from its spelling. -/
def Legible (v : Json) : Prop := ∀ t ∈ v.tokens, t.Legible

/-! ## from the text to the tokens -/

/-- Where a comma or the end of a container follows, a number ends. -/
theorem ends_of_mark {c : Char} {rest : List Char} (hc : c = ',' ∨ c = ']' ∨ c = '\x7d') :
    Ends (c :: rest) := by
  rintro _ ⟨⟩
  rcases hc with rfl | rfl | rfl <;> decide

/-- A numeral ends before further elements, which begin with a comma. -/
theorem ends_moreElementTokens (vs : List Json) {rest : List Char} (h : Ends rest) :
    Ends ((moreElementTokens vs).flatMap Token.chars ++ rest) := by
  cases vs with
  | nil => exact h
  | cons => exact ends_of_mark (.inl rfl)

theorem ends_moreMemberTokens (ms : List (Option String × Json)) {rest : List Char}
    (h : Ends rest) : Ends ((moreMemberTokens ms).flatMap Token.chars ++ rest) := by
  cases ms with
  | nil => exact h
  | cons => exact ends_of_mark (.inl rfl)

/-- Whether tokens can be told from their compact text, given what follows it. -/
def Printed (ts : List Token) (rest : List Char) : Prop :=
  Spells ts (ts.flatMap Token.chars ++ rest) rest

namespace Printed

theorem nil (rest : List Char) : Printed [] rest := Spells.nil rest

/-- Tokens are told apart if those before are, given those after. -/
theorem append {ts us : List Token} {rest : List Char}
    (h : Printed ts (us.flatMap Token.chars ++ rest)) (h' : Printed us rest) :
    Printed (ts ++ us) rest := by
  unfold Printed
  rw [List.flatMap_append, List.append_assoc]
  exact Spells.append h h'

/-- A legible token is told from its spelling, a number if it ends there. -/
theorem single {t : Token} (ht : t.Legible) {rest : List Char}
    (hend : t.isNumber = true → Ends rest) : Printed [t] rest := by
  unfold Printed
  rw [List.flatMap_singleton]
  exact .cons (List.forall_mem_nil _) ht hend (.nil rest)

/-- A token other than a number may be followed by anything. -/
theorem mark {t : Token} (ht : t.Legible) (hn : t.isNumber = false) {ts : List Token}
    {rest : List Char} (h : Printed ts rest) : Printed (t :: ts) rest :=
  have hsingle : Printed [t] (ts.flatMap Token.chars ++ rest) := single ht (by simp [hn])
  hsingle.append h

/-- A token that is no number may stand before anything. -/
theorem close {t : Token} (ht : t.Legible) (hn : t.isNumber = false) {ts : List Token}
    {rest : List Char} (h : Printed ts (t.chars ++ rest)) : Printed (ts ++ [t]) rest :=
  append (by rwa [List.flatMap_singleton]) (single ht (by simp [hn]))

end Printed

mutual
/-- **The text of a value spells its tokens.** -/
theorem printed_tokens (v : Json) (hv : ∀ t ∈ v.tokens, t.Legible) {rest : List Char}
    (hend : (∃ n, v = .number n) → Ends rest) : Printed v.tokens rest := by
  match v with
  | .null | .bool _ => exact .single (hv _ List.mem_cons_self) nofun
  | .number n => exact .single (hv _ List.mem_cons_self) fun _ => hend ⟨n, rfl⟩
  | .string s => exact .single (hv _ List.mem_cons_self) nofun
  | .array vs =>
    rw [tokens, List.forall_mem_cons, List.forall_mem_append, List.forall_mem_singleton] at hv
    have hclosed : Ends (']' :: rest) := ends_of_mark (.inr (.inl rfl))
    have helements := printed_elementTokens vs hv.2.1 hclosed
    exact .mark hv.1 rfl (.close hv.2.2 rfl helements)
  | .object ms =>
    rw [tokens, List.forall_mem_cons, List.forall_mem_append, List.forall_mem_singleton] at hv
    have hclosed : Ends ('\x7d' :: rest) := ends_of_mark (.inr (.inr rfl))
    have hmembers := printed_memberTokens ms hv.2.1 hclosed
    exact .mark hv.1 rfl (.close hv.2.2 rfl hmembers)

/-- The elements of an array are told from their text. -/
theorem printed_elementTokens (vs : List Json) (hv : ∀ t ∈ elementTokens vs, t.Legible)
    {rest : List Char} (hend : Ends rest) : Printed (elementTokens vs) rest := by
  match vs with
  | [] => exact .nil rest
  | v :: vs =>
    rw [elementTokens, List.forall_mem_append] at hv
    have hvalue := printed_tokens v hv.1 fun _ => ends_moreElementTokens vs hend
    exact hvalue.append (printed_moreElementTokens vs hv.2 hend)

/-- Further elements are told from their text, each after a comma. -/
theorem printed_moreElementTokens (vs : List Json)
    (hv : ∀ t ∈ moreElementTokens vs, t.Legible) {rest : List Char} (hend : Ends rest) :
    Printed (moreElementTokens vs) rest := by
  match vs with
  | [] => exact .nil rest
  | v :: vs =>
    rw [moreElementTokens, List.forall_mem_cons, List.forall_mem_append] at hv
    have hvalue := printed_tokens v hv.2.1 fun _ => ends_moreElementTokens vs hend
    exact .mark hv.1 rfl (hvalue.append (printed_moreElementTokens vs hv.2.2 hend))

theorem printed_memberTokens (ms : List (Option String × Json))
    (hv : ∀ t ∈ memberTokens ms, t.Legible) {rest : List Char} (hend : Ends rest) :
    Printed (memberTokens ms) rest := by
  match ms with
  | [] => exact .nil rest
  | (k, v) :: ms =>
    rw [memberTokens, List.forall_mem_cons, List.forall_mem_cons, List.forall_mem_append] at hv
    obtain ⟨hname, hcolon, hv, hms⟩ := hv
    have hvalue := printed_tokens v hv fun _ => ends_moreMemberTokens ms hend
    exact .mark hname rfl (.mark hcolon rfl
      (hvalue.append (printed_moreMemberTokens ms hms hend)))

theorem printed_moreMemberTokens (ms : List (Option String × Json))
    (hv : ∀ t ∈ moreMemberTokens ms, t.Legible) {rest : List Char} (hend : Ends rest) :
    Printed (moreMemberTokens ms) rest := by
  match ms with
  | [] => exact .nil rest
  | (k, v) :: ms =>
    rw [moreMemberTokens, List.forall_mem_cons, List.forall_mem_cons, List.forall_mem_cons,
      List.forall_mem_append] at hv
    obtain ⟨hcomma, hname, hcolon, hv, hms⟩ := hv
    have hvalue := printed_tokens v hv fun _ => ends_moreMemberTokens ms hend
    exact .mark hcomma rfl (.mark hname rfl (.mark hcolon rfl
      (hvalue.append (printed_moreMemberTokens ms hms hend))))
end

/-! ## from the tokens to the value -/

namespace Reading

theorem run_cons (r : Reading) (t : Token) (ts : List Token) :
    run r (t :: ts) = (r.take t).bind fun r => run r ts := rfl

/-- Where the first element of an array is due, a value is read as everywhere. -/
theorem run_firstElement (v : Json) (stack : List Frame) (ts : List Token) :
    run (.firstElement stack) (v.tokens ++ ts) =
      run (.value (.elements [] :: stack)) (v.tokens ++ ts) := by
  cases v <;> rfl

mutual
/-- **From the tokens of a value the value is read.** -/
theorem run_tokens (v : Json) (stack : List Frame) (ts : List Token) :
    run (.value stack) (v.tokens ++ ts) = run (.got stack v) ts := by
  match v with
  | .null | .bool _ | .number _ | .string _ => rfl
  | .array [] => rfl
  | .array (v :: vs) =>
    have helements := run_moreElementTokens v vs [] stack ts
    simp only [tokens, elementTokens, List.cons_append, List.append_assoc, run_cons]
    show run (.firstElement stack) _ = _
    rw [run_firstElement, run_tokens]
    exact helements
  | .object [] => rfl
  | .object ((k, v) :: ms) =>
    have hmembers := run_moreMemberTokens k v ms [] stack ts
    simp only [tokens, memberTokens, List.cons_append, List.append_assoc, run_cons]
    show run (.value (.members [] k :: stack)) _ = _
    rw [run_tokens]
    exact hmembers

/-- Further elements are added to those before, and the bracket closes the array. -/
theorem run_moreElementTokens (v : Json) (vs before : List Json) (stack : List Frame)
    (ts : List Token) :
    run (.got (.elements before :: stack) v) (moreElementTokens vs ++ (.closeArray :: ts)) =
      run (.got stack (.array (before.reverse ++ v :: vs))) ts := by
  match vs with
  | [] => simp [moreElementTokens, run_cons, take]
  | w :: vs =>
    have helements := run_moreElementTokens w vs (v :: before) stack ts
    simp only [moreElementTokens, List.cons_append, List.append_assoc, run_cons]
    show run (.value (.elements (v :: before) :: stack)) _ = _
    rw [run_tokens, helements]
    simp

/-- Further members are added to those before, and the brace closes the object. -/
theorem run_moreMemberTokens (k : Option String) (v : Json)
    (ms before : List (Option String × Json)) (stack : List Frame) (ts : List Token) :
    run (.got (.members before k :: stack) v) (moreMemberTokens ms ++ (.closeObject :: ts)) =
      run (.got stack (.object (before.reverse ++ (k, v) :: ms))) ts := by
  match ms with
  | [] => simp [moreMemberTokens, run_cons, take]
  | (l, w) :: ms =>
    have hmembers := run_moreMemberTokens l w ms ((k, v) :: before) stack ts
    simp only [moreMemberTokens, List.cons_append, List.append_assoc, run_cons]
    show run (.value (.members ((k, v) :: before) l :: stack)) _ = _
    rw [run_tokens, hmembers]
    simp
end

end Reading

/-! ## texts -/

/-- A value is read from its tokens if none follow. -/
theorem ofTokens?_append (v : Json) (ts : List Token) :
    ofTokens? (v.tokens ++ ts) = if ts = [] then some v else none := by
  unfold ofTokens?
  rw [Reading.run_tokens]
  cases ts with
  | nil => rfl
  | cons t ts => rfl

/-- **A value is read back from its text**, if nothing but white space follows; anything else
after it is refused. -/
theorem parse_print_append {v : Json} (hv : v.Legible) {rest : String}
    (hend : (∃ n, v = .number n) → Ends rest.toList) :
    parse (v.print ++ rest) = if rest.toList.all isBlank then some v else none := by
  have hprinted : Spells v.tokens (v.print ++ rest).toList rest.toList := by
    rw [String.toList_append, print, String.toList_ofList, chars]
    exact printed_tokens v hv hend
  obtain ⟨fuel, hfuel⟩ := Nat.exists_eq_add_of_le' (Nat.le_of_add_right_le hprinted.length_le)
  rw [parse, lex, hfuel, hprinted.lexWithin]
  by_cases hblank : rest.toList.all isBlank = true
  · rw [if_pos hblank, lexWithin_eq_nil_iff.mpr (List.all_eq_true.mp hblank)]
    have hend := ofTokens?_append v []
    simpa using hend
  · rw [if_neg hblank]
    cases hrest : lexWithin fuel rest.toList with
    | none => rfl
    | some ts =>
      have hts : ts ≠ [] := by
        rintro rfl
        exact hblank (List.all_eq_true.mpr (lexWithin_eq_nil_iff.mp hrest))
      rw [Option.map_some, Option.bind_some, ofTokens?_append, if_neg hts]

end SlotWatch.Json

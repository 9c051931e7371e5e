import SlotWatch.Proofs.Reading

/-!
# SlotWatch.Proofs.Layout

The many texts of one JSON value.

1. Between the quotes of a string a character stands for itself, or is written by a letter after
   a backslash, by its number or by the numbers of two surrogates.  Each of these ways is read as
   the character (`Literal.pieces`).
2. Around the tokens of a value there may be white space.  A text lays out tokens if it spells
   one after the other with white space only between them (`Laid`).
3. A number ends where the text goes on with a comma or the end of a container, and in a value
   nothing else follows a number (`parted_tokens`).
4. So any text that lays out the tokens of a value is read as the value (`parse_of_laid`).  The
   compact text is one of them (`laid_print`).
-/

namespace SlotWatch.Json

/-! ## strings -/

/-- `Literal cs ds`: between the quotes of a string, `ds` writes the characters `cs`. -/
inductive Literal : List Char → List Char → Prop where
  | nil : Literal [] []
  | plain {c : Char} {cs ds : List Char} (hc : 0x20 ≤ c.toNat) (hquote : c ≠ '"')
      (hslash : c ≠ '\\') (h : Literal cs ds) : Literal (c :: cs) (c :: ds)
  | letter {c e : Char} {cs ds : List Char} (he : simpleEscape? e = some c)
      (h : Literal cs ds) : Literal (c :: cs) ('\\' :: e :: ds)
  | number {c a₁ a₂ a₃ a₄ : Char} {cs ds : List Char}
      (hvalue : Text.hexValue? [a₁, a₂, a₃, a₄] = some c.toNat) (h : Literal cs ds) :
      Literal (c :: cs) ('\\' :: 'u' :: a₁ :: a₂ :: a₃ :: a₄ :: ds)
  /-- A character beyond four digits takes two numbers, each of them with ten bits of it. -/
  | pair {c a₁ a₂ a₃ a₄ b₁ b₂ b₃ b₄ : Char} {cs ds : List Char} {high low : Nat}
      (hhigh : Text.hexValue? [a₁, a₂, a₃, a₄] = some (0xD800 + high))
      (hlow : Text.hexValue? [b₁, b₂, b₃, b₄] = some (0xDC00 + low))
      (hten : high < 0x400 ∧ low < 0x400) (hc : c.toNat = 0x10000 + high * 0x400 + low)
      (h : Literal cs ds) :
      Literal (c :: cs)
        ('\\' :: 'u' :: a₁ :: a₂ :: a₃ :: a₄ :: '\\' :: 'u' :: b₁ :: b₂ :: b₃ :: b₄ :: ds)

/-- The number of a character is no surrogate. -/
theorem Piece.ofUnit_toNat (c : Char) : Piece.ofUnit c.toNat = .char c := by
  have hvalid : c.toNat < 0xD800 ∨ 0xDFFF < c.toNat ∧ c.toNat < 0x110000 := c.valid
  rw [Piece.ofUnit, if_neg (by omega), Char.ofNat_toNat]

theorem Piece.ofUnit_surrogate {n : Nat} (h : 0xD800 ≤ n ∧ n < 0xE000) :
    Piece.ofUnit n = .surrogate n :=
  if_pos h

/-- **However the characters of a string are written, they are read back.** -/
theorem Literal.pieces {cs ds : List Char} (h : Literal cs ds) (rest : List Char) :
    ∃ ps, Json.pieces (ds ++ '"' :: rest) = some (ps, rest) ∧ joinPieces ps = some cs := by
  induction h with
  | nil => exact ⟨[], by rw [List.nil_append, Json.pieces], rfl⟩
  | @plain c cs ds hc hquote hslash h ih =>
      obtain ⟨ps, hps, hjoin⟩ := ih
      refine ⟨.char c :: ps, ?_, by rw [joinPieces, hjoin]; rfl⟩
      rw [List.cons_append, Json.pieces]
      · simp only [hps, if_neg (show ¬ (c.toNat < 0x20 ∨ c = '\\') by simp [hslash]; omega)]
        rfl
      all_goals simp_all
  | @letter c e cs ds he h ih =>
      obtain ⟨ps, hps, hjoin⟩ := ih
      have hu : e ≠ 'u' := by rintro rfl; simp [simpleEscape?] at he
      refine ⟨.char c :: ps, ?_, by rw [joinPieces, hjoin]; rfl⟩
      rw [List.cons_append, List.cons_append, Json.pieces]
      · simp [he, hps]
      · simp [hu]
  | @number c a₁ a₂ a₃ a₄ cs ds hvalue h ih =>
      obtain ⟨ps, hps, hjoin⟩ := ih
      refine ⟨.char c :: ps, ?_, by rw [joinPieces, hjoin]; rfl⟩
      simp [Json.pieces, hvalue, hps, Piece.ofUnit_toNat]
  | @pair c a₁ a₂ a₃ a₄ b₁ b₂ b₃ b₄ cs ds high low hhigh hlow hten hc h ih =>
      obtain ⟨ps, hps, hjoin⟩ := ih
      refine ⟨.surrogate (0xD800 + high) :: .surrogate (0xDC00 + low) :: ps, ?_, ?_⟩
      · have hfirst := Piece.ofUnit_surrogate (show 0xD800 ≤ 0xD800 + high ∧ _ by omega)
        have hsecond := Piece.ofUnit_surrogate (show 0xD800 ≤ 0xDC00 + low ∧ _ by omega)
        simp [Json.pieces, hhigh, hlow, hps, hfirst, hsecond]
      · have hcode : 0x10000 + (0xD800 + high - 0xD800) * 0x400 + (0xDC00 + low - 0xDC00) =
            c.toNat := by omega
        rw [joinPieces, if_pos (by omega), hjoin, hcode, Char.ofNat_toNat]
        rfl

/-- An escaped character is one way to write it. -/
theorem Literal.escape {cs ds : List Char} (h : Literal cs ds) (c : Char) :
    Literal (c :: cs) (Json.escape c ++ ds) := by
  have hnumber : c.toNat < 32 → Literal (c :: cs) ('\\' :: 'u' :: (Text.hex 4 c.toNat ++ ds)) := by
    intro hc
    obtain ⟨hlen, hvalue, -⟩ := hexValue?_hex c.toNat hc
    generalize Text.hex 4 c.toNat = digits at hlen hvalue
    match digits, hlen with
    | [a₁, a₂, a₃, a₄], _ => exact .number hvalue h
  unfold Json.escape
  split
  · next hc => exact .letter (by rw [hc]; rfl) h
  split
  · next hc => exact .letter (by rw [hc]; rfl) h
  split
  · next hc => exact .letter (by rw [hc]; rfl) h
  split
  · next hc => exact .letter (by rw [hc]; rfl) h
  split
  · next hc => exact .letter (by rw [hc]; rfl) h
  split
  · next hc => exact .letter (by rw [hc]; rfl) h
  split
  · next hc => exact .letter (by rw [hc]; rfl) h
  split
  · next hc => exact hnumber hc
  · next hquote hslash _ _ _ _ _ hc => exact .plain (Nat.le_of_not_lt hc) hquote hslash h

/-- The way in which strings are written is one of these ways. -/
theorem literal_escape (cs : List Char) : Literal cs (cs.flatMap escape) := by
  induction cs with
  | nil => exact .nil
  | cons c cs ih => exact ih.escape c

/-! ## tokens -/

/-- Whether a word spells a token.  Only strings can be spelled in more than one way: an integer
has one numeral, and other numbers are left out. -/
def Token.Spelled : Token → List Char → Prop
  | string s, word =>
    ∃ cs ds, s = some (String.ofList cs) ∧ Literal cs ds ∧ word = '"' :: (ds ++ ['"'])
  | t, word => t.Legible ∧ word = t.chars

/-- The usual spelling of a token is one of its spellings. -/
theorem Token.spelled_chars {t : Token} (ht : t.Legible) : t.Spelled t.chars := by
  cases t with
  | string s =>
      obtain ⟨s, rfl⟩ := Option.isSome_iff_exists.mp ht
      exact ⟨s.toList, _, by rw [String.ofList_toList], literal_escape s.toList, rfl⟩
  | _ => exact ⟨ht, rfl⟩

/-- **A token is read back from any of its spellings.** -/
theorem token_of_spelled {t : Token} {word rest : List Char} (h : t.Spelled word)
    (hend : t.isNumber = true → Ends rest) : token (word ++ rest) = some (t, rest) := by
  cases t with
  | string s =>
      obtain ⟨cs, ds, rfl, hliteral, rfl⟩ := h
      obtain ⟨ps, hps, hjoin⟩ := hliteral.pieces rest
      simp [token, hps, hjoin]
  | _ =>
      obtain ⟨ht, rfl⟩ := h
      exact token_chars ht hend

theorem Token.Spelled.eq_cons {t : Token} {word : List Char} (h : t.Spelled word) :
    ∃ c tail, word = c :: tail ∧ isBlank c = false := by
  cases t with
  | string s =>
      obtain ⟨cs, ds, -, -, rfl⟩ := h
      exact ⟨_, _, rfl, by decide⟩
  | _ =>
      obtain ⟨ht, rfl⟩ := h
      exact Token.chars_eq_cons ht

/-! ## texts of tokens -/

/-- `Laid ts text`: the text spells the tokens one after the other, with nothing but white space
around them. -/
inductive Laid : List Token → List Char → Prop where
  | nil {blanks : List Char} (hb : ∀ c ∈ blanks, isBlank c = true) : Laid [] blanks
  | cons {blanks word text : List Char} {t : Token} {ts : List Token}
      (hb : ∀ c ∈ blanks, isBlank c = true) (hword : t.Spelled word) (h : Laid ts text) :
      Laid (t :: ts) (blanks ++ (word ++ text))

/-- The marks that may follow a value. -/
def Token.isMark : Token → Bool
  | comma | closeArray | closeObject => true
  | _ => false

/-- Whether nothing but a mark follows a number. -/
def Parted : List Token → Prop
  | [] => True
  | t :: ts => (t.isNumber = true → ∀ u ∈ ts.head?, u.isMark = true) ∧ Parted ts

/-- A numeral ends before white space. -/
theorem ends_of_blanks {blanks rest : List Char} (hb : ∀ c ∈ blanks, isBlank c = true)
    (h : Ends rest) : Ends (blanks ++ rest) := by
  cases blanks with
  | nil => exact h
  | cons c blanks =>
      have hc : isBlank c = true := hb c List.mem_cons_self
      simp only [isBlank, Bool.or_eq_true, decide_eq_true_eq] at hc
      rintro _ ⟨⟩
      rcases hc with ((rfl | rfl) | rfl) | rfl <;> decide

namespace Laid

variable {ts : List Token} {text : List Char}

/-- A number ends where a mark or nothing follows it. -/
theorem ends (h : Laid ts text) (hmark : ∀ u ∈ ts.head?, u.isMark = true) : Ends text := by
  cases h with
  | nil hb => exact List.append_nil text ▸ ends_of_blanks hb nofun
  | @cons blanks word text t ts hb hword h =>
      refine ends_of_blanks hb ?_
      have ht : t.isMark = true := hmark t rfl
      cases t with
      | comma => obtain ⟨-, rfl⟩ := hword; exact ends_of_mark (.inl rfl)
      | closeArray => obtain ⟨-, rfl⟩ := hword; exact ends_of_mark (.inr (.inl rfl))
      | closeObject => obtain ⟨-, rfl⟩ := hword; exact ends_of_mark (.inr (.inr rfl))
      | _ => simp [Token.isMark] at ht

/-- Every token has a character. -/
theorem length_le (h : Laid ts text) : ts.length ≤ text.length := by
  induction h with
  | nil => simp
  | cons _ hword _ ih =>
      obtain ⟨c, tail, rfl, -⟩ := hword.eq_cons
      simp only [List.length_append, List.length_cons]
      omega

/-- **From a text that lays out tokens these tokens are read**, if its numbers end. -/
theorem lexWithin (h : Laid ts text) (hparted : Parted ts) {fuel : Nat}
    (hfuel : ts.length ≤ fuel) : Json.lexWithin fuel text = some ts := by
  induction h generalizing fuel with
  | nil hb => exact lexWithin_eq_nil_iff.mpr hb
  | @cons blanks word text t ts hb hword h ih =>
      obtain ⟨c, tail, rfl, hc⟩ := hword.eq_cons
      have htoken := token_of_spelled hword fun hnumber => h.ends (hparted.1 hnumber)
      have hskip : (blanks ++ (c :: tail ++ text)).dropWhile isBlank = c :: (tail ++ text) := by
        rw [List.dropWhile_append_of_pos hb, List.cons_append,
          List.dropWhile_cons_of_neg (by simp [hc])]
      obtain ⟨fuel, rfl⟩ := Nat.exists_eq_add_of_le' (Nat.le_trans (Nat.le_add_left 1 _) hfuel)
      rw [lexWithin_succ hskip, ← List.cons_append, htoken, Option.bind_some,
        ih hparted.2 (Nat.le_of_succ_le_succ hfuel), Option.map_some]

/-- The same white space may stand before each token. -/
theorem of_legible {blanks : List Char} (hb : ∀ c ∈ blanks, isBlank c = true)
    (h : ∀ t ∈ ts, t.Legible) : Laid ts (ts.flatMap fun t => blanks ++ t.chars) := by
  induction ts with
  | nil => exact .nil (List.forall_mem_nil _)
  | cons t ts ih =>
      obtain ⟨ht, hts⟩ := List.forall_mem_cons.mp h
      rw [List.flatMap_cons, List.append_assoc]
      exact .cons hb (Token.spelled_chars ht) (ih hts)

end Laid

/-! ## the tokens of a value -/

/-- A token that is no number may be followed by anything. -/
theorem Parted.cons {t : Token} {ts : List Token} (ht : t.isNumber = false) (h : Parted ts) :
    Parted (t :: ts) :=
  ⟨by simp [ht], h⟩

theorem Parted.mark {t : Token} {ts : List Token} (ht : t.isMark = true) :
    ∀ u ∈ (t :: ts).head?, u.isMark = true := by
  rintro _ ⟨⟩
  exact ht

mutual
/-- **In the tokens of a value a mark follows every number**, or nothing does. -/
theorem parted_tokens (v : Json) {ts : List Token} (h : Parted ts)
    (hmark : ∀ u ∈ ts.head?, u.isMark = true) : Parted (v.tokens ++ ts) := by
  match v with
  | .null | .bool _ | .string _ => exact .cons rfl h
  | .number _ => exact ⟨fun _ => hmark, h⟩
  | .array [] => exact .cons rfl (.cons rfl h)
  | .array (v :: vs) =>
    -- behind the first element stands a comma or the end of the array
    have helements := parted_moreElementTokens vs (.cons (t := .closeArray) rfl h) rfl
    simp only [tokens, elementTokens, List.cons_append, List.append_assoc, List.nil_append]
    exact .cons rfl (parted_tokens v helements.1 helements.2)
  | .object [] => exact .cons rfl (.cons rfl h)
  | .object ((k, v) :: ms) =>
    have hmembers := parted_moreMemberTokens ms (.cons (t := .closeObject) rfl h) rfl
    simp only [tokens, memberTokens, List.cons_append, List.append_assoc, List.nil_append]
    exact .cons rfl (.cons rfl (.cons rfl (parted_tokens v hmembers.1 hmembers.2)))

/-- A comma or the bracket follows each element. -/
theorem parted_moreElementTokens (vs : List Json) {t : Token} {ts : List Token}
    (h : Parted (t :: ts)) (ht : t.isMark = true) :
    Parted (moreElementTokens vs ++ t :: ts) ∧
      ∀ u ∈ (moreElementTokens vs ++ t :: ts).head?, u.isMark = true := by
  match vs with
  | [] => exact ⟨h, Parted.mark ht⟩
  | v :: vs =>
    have helements := parted_moreElementTokens vs h ht
    simp only [moreElementTokens, List.cons_append, List.append_assoc]
    exact ⟨.cons rfl (parted_tokens v helements.1 helements.2), Parted.mark rfl⟩

theorem parted_moreMemberTokens (ms : List (Option String × Json)) {t : Token} {ts : List Token}
    (h : Parted (t :: ts)) (ht : t.isMark = true) :
    Parted (moreMemberTokens ms ++ t :: ts) ∧
      ∀ u ∈ (moreMemberTokens ms ++ t :: ts).head?, u.isMark = true := by
  match ms with
  | [] => exact ⟨h, Parted.mark ht⟩
  | (k, v) :: ms =>
    have hmembers := parted_moreMemberTokens ms h ht
    simp only [moreMemberTokens, List.cons_append, List.append_assoc]
    exact ⟨.cons rfl (.cons rfl (.cons rfl (parted_tokens v hmembers.1 hmembers.2))),
      Parted.mark rfl⟩
end

/-! ## texts of a value -/

/-- The compact text of a value is one of its texts. -/
theorem laid_print {v : Json} (hv : v.Legible) : Laid v.tokens v.print.toList := by
  rw [print, String.toList_ofList]
  exact Laid.of_legible (List.forall_mem_nil _) hv

/-- **A value is read from any of its texts**, whatever white space stands between the tokens and
however the strings are written. -/
theorem parse_of_laid {v : Json} {text : String} (h : Laid v.tokens text.toList) :
    parse text = some v := by
  have hparted : Parted (v.tokens ++ []) := parted_tokens v trivial nofun
  have htokens : lex text.toList = some (v.tokens ++ []) := by
    rw [List.append_nil] at hparted ⊢
    exact h.lexWithin hparted h.length_le
  rw [parse, htokens, Option.bind_some, ofTokens?_append, if_pos rfl]

end SlotWatch.Json

import Mathlib.Data.List.TakeWhile
import SlotWatch.Json.Basic
import SlotWatch.Proofs.Numeral

/-!
# SlotWatch.Proofs.Token

Reading the tokens of a JSON text back.

1. A character is written in a string by a letter, by its number or as it stands, and each way
   reads as the character (`pieces_escape`, `joinPieces_char`).
2. The literal of an integer is read back where no digit and no other mark of a number follows
   it (`Ends`, `numeral_ofInt`).
3. So a token is read back from its spelling if it is legible: an integer, or a string with a
   value (`token_chars`).
4. A text that spells tokens one after the other is read as these tokens, whatever comes after
   them (`Spells`, `Spells.lexWithin`).
-/

namespace SlotWatch.Json

open Toml (Digits digits_toDigits minus ne_of_isDigit)

/-! ## strings -/

/-- The numbered escape of a control character stands for that character. -/
theorem hexValue?_hex : ∀ n < 32,
    (Text.hex 4 n).length = 4 ∧ Text.hexValue? (Text.hex 4 n) = some n ∧
      Piece.ofUnit n = .char (Char.ofNat n) := by
  decide

/-- How a character is written in a string: by a letter, by its number, or as it stands. -/
theorem escape_cases (c : Char) :
    (∃ e, escape c = ['\\', e] ∧ e ≠ 'u' ∧ simpleEscape? e = some c) ∨
    (∃ digits, escape c = '\\' :: 'u' :: digits ∧ digits.length = 4 ∧
      (Text.hexValue? digits).map Piece.ofUnit = some (.char c)) ∨
    (escape c = [c] ∧ 0x20 ≤ c.toNat ∧ c ≠ '\\' ∧ c ≠ '"') := by
  unfold escape
  split
  · next hc => exact .inl ⟨'"', rfl, by decide, by rw [hc]; rfl⟩
  split
  · next hc => exact .inl ⟨'\\', rfl, by decide, by rw [hc]; rfl⟩
  split
  · next hc => exact .inl ⟨'b', rfl, by decide, by rw [hc]; rfl⟩
  split
  · next hc => exact .inl ⟨'f', rfl, by decide, by rw [hc]; rfl⟩
  split
  · next hc => exact .inl ⟨'n', rfl, by decide, by rw [hc]; rfl⟩
  split
  · next hc => exact .inl ⟨'r', rfl, by decide, by rw [hc]; rfl⟩
  split
  · next hc => exact .inl ⟨'t', rfl, by decide, by rw [hc]; rfl⟩
  split
  · next hnum =>
      obtain ⟨hlen, hvalue, hunit⟩ := hexValue?_hex c.toNat hnum
      refine .inr (.inl ⟨_, rfl, hlen, ?_⟩)
      rw [hvalue, Option.map_some, hunit, Char.ofNat_toNat]
  · next hq hs _ _ _ _ _ hnum => exact .inr (.inr ⟨rfl, Nat.le_of_not_lt hnum, hs, hq⟩)

/-- The written form of a character reads as the character. -/
theorem pieces_escape (c : Char) (rest : List Char) :
    pieces (escape c ++ rest) = (pieces rest).map fun (ps, rest) => (.char c :: ps, rest) := by
  rcases escape_cases c with ⟨e, heq, hu, he⟩ | ⟨digits, heq, hlen, hunit⟩ | ⟨heq, hlow, hs, hq⟩
  · rw [heq]
    show pieces ('\\' :: e :: rest) = _
    rw [pieces]
    · rw [he]
      cases pieces rest <;> rfl
    · simp [hu]
  · match digits, hlen with
    | [a, b, c', d], _ =>
      obtain ⟨unit, hvalue, hunit⟩ := Option.map_eq_some_iff.mp hunit
      rw [heq]
      simp only [List.cons_append, List.nil_append, pieces, hvalue]
      cases pieces rest <;> simp [hunit]
  · rw [heq]
    show pieces (c :: rest) = _
    rw [pieces]
    · rw [if_neg (by simp [hs]; omega)]
      cases pieces rest <;> rfl
    all_goals simp_all

/-- A text that is escaped is read back as its characters, up to the closing quote. -/
theorem pieces_quote (cs rest : List Char) :
    pieces (cs.flatMap escape ++ '"' :: rest) = some (cs.map .char, rest) := by
  induction cs with
  | nil => simp [pieces]
  | cons c cs ih => rw [List.flatMap_cons, List.append_assoc, pieces_escape, ih]; rfl

theorem joinPieces_char (cs : List Char) : joinPieces (cs.map .char) = some cs := by
  induction cs with
  | nil => rfl
  | cons c cs ih => rw [List.map_cons, joinPieces, ih]; rfl

/-! ## numbers -/

/-- Whether a numeral ends before the rest of a text. -/
def Ends (rest : List Char) : Prop :=
  ∀ c ∈ rest.head?, c.isDigit = false ∧ c ≠ '.' ∧ c ≠ 'e' ∧ c ≠ 'E'

/-- Digits are read up to where the numeral ends. -/
theorem digitRun_append {ds rest : List Char} (hds : ∀ d ∈ ds, d.isDigit = true)
    (hrest : Ends rest) : digitRun (ds ++ rest) = (ds, rest) := by
  have hnone : ∀ c ∈ rest.head?, ¬ c.isDigit = true := fun c hc => by simp [(hrest c hc).1]
  unfold digitRun
  rw [List.takeWhile_append_of_pos hds, List.dropWhile_append_of_pos hds]
  cases rest with
  | nil => simp
  | cons c rest => simp [hnone c rfl]

/-- The whole part is the digits, as these begin with no superfluous zero. -/
theorem wholePart_append {ds rest : List Char} (h : Digits ds) (hrest : Ends rest) :
    wholePart (ds ++ rest) = some (ds, rest) := by
  obtain ⟨d, tail, rfl⟩ := List.exists_cons_of_ne_nil h.ne_nil
  by_cases hzero : d = '0'
  · subst hzero
    have htail : tail = [] := by simpa using h.zero rfl
    subst htail
    rfl
  · rw [List.cons_append, wholePart]
    · rw [← List.cons_append, digitRun_append h.isDigit hrest]
    · simp [hzero]

/-- Where a numeral ends there is no fraction. -/
theorem fractionPart_none {rest : List Char} (h : Ends rest) :
    fractionPart rest = some ([], rest) := by
  cases rest with
  | nil => rfl
  | cons c rest =>
      rw [fractionPart]
      simp [(h c rfl).2.1]

theorem exponentPart_none {rest : List Char} (h : Ends rest) :
    exponentPart rest = some (none, rest) := by
  cases rest with
  | nil => rfl
  | cons c rest => simp [exponentPart, (h c rfl).2.2]

/-- Digits alone are a numeral without fraction and exponent. -/
theorem unsignedNumeral_append {ds rest : List Char} (negative : Bool) (h : Digits ds)
    (hrest : Ends rest) :
    unsignedNumeral negative (ds ++ rest) = some (⟨negative, ds, [], none⟩, rest) := by
  simp [unsignedNumeral, wholePart_append h hrest, fractionPart_none hrest,
    exponentPart_none hrest]

theorem chars_ofInt (n : Int) :
    (Numeral.ofInt n).chars = minus (n < 0) ++ Nat.toDigits 10 n.natAbs := by
  simp [Numeral.ofInt, Numeral.chars, minus]

/-- **The literal of an integer is read back** where no digit and no mark of a number follows. -/
theorem numeral_ofInt (n : Int) {rest : List Char} (h : Ends rest) :
    numeral ((Numeral.ofInt n).chars ++ rest) = some (.ofInt n, rest) := by
  have hdigits := digits_toDigits n.natAbs
  rw [chars_ofInt, List.append_assoc]
  by_cases hn : n < 0
  · have hread := unsignedNumeral_append true hdigits h
    simpa [minus, numeral, Numeral.ofInt, hn] using hread
  · have hread := unsignedNumeral_append false hdigits h
    obtain ⟨d, tail, heq⟩ := List.exists_cons_of_ne_nil hdigits.ne_nil
    have hd : d.isDigit = true := hdigits.isDigit d (heq ▸ List.mem_cons_self)
    simp only [hn, decide_false, minus, Bool.false_eq_true, if_false, List.nil_append]
    rw [heq] at hread ⊢
    rw [List.cons_append, numeral, ← List.cons_append, hread]
    · simp [Numeral.ofInt, hn, heq]
    · simp [ne_of_isDigit hd (show '-'.isDigit = false by decide)]

/-! ## tokens -/

namespace Token

/-- Whether a token can be told from its spelling: a number is an integer, and a string has a
value. -/
def Legible : Token → Prop
  | number n => ∃ i, n = .ofInt i
  | string s => s.isSome
  | _ => True

/-- Whether a token is a number, so that it ends only where the text goes on with something else. -/
def isNumber : Token → Bool
  | number _ => true
  | _ => false

end Token

/-- The numeral of an integer is read as one token. -/
theorem token_number (n : Int) {rest : List Char} (h : Ends rest) :
    token ((Numeral.ofInt n).chars ++ rest) = some (.number (.ofInt n), rest) := by
  have hread := numeral_ofInt n h
  obtain ⟨c, tail, heq, hne⟩ := (digits_toDigits n.natAbs).eq_cons (n < 0) rest
  rw [chars_ofInt, List.append_assoc, heq] at hread ⊢
  rw [token]
  · rw [hread]
    rfl
  all_goals simp [hne]

/-- **A token is read back from its spelling.** -/
theorem token_chars {t : Token} (ht : t.Legible) {rest : List Char}
    (hend : t.isNumber = true → Ends rest) : token (t.chars ++ rest) = some (t, rest) := by
  cases t with
  | number n =>
      obtain ⟨i, rfl⟩ := ht
      exact token_number i (hend rfl)
  | string s =>
      obtain ⟨s, rfl⟩ := Option.isSome_iff_exists.mp ht
      simp [Token.chars, quote, token, pieces_quote, joinPieces_char]
  | bool b => cases b <;> rfl
  | _ => rfl

/-! ## sequences of tokens -/

/-- `Spells ts cs rest`: the text `cs` begins with the tokens `ts`, white space allowed before
each, and goes on with `rest`. -/
inductive Spells : List Token → List Char → List Char → Prop where
  | nil (rest : List Char) : Spells [] rest rest
  | cons {blanks cs rest : List Char} {t : Token} {ts : List Token}
      (hb : ∀ c ∈ blanks, isBlank c = true) (ht : t.Legible)
      (hend : t.isNumber = true → Ends cs) (h : Spells ts cs rest) :
      Spells (t :: ts) (blanks ++ (t.chars ++ cs)) rest

/-- A token does not begin with white space. -/
theorem Token.chars_eq_cons {t : Token} (ht : t.Legible) :
    ∃ c tail, t.chars = c :: tail ∧ isBlank c = false := by
  cases t with
  | number n =>
      obtain ⟨i, rfl⟩ := ht
      obtain ⟨c, tail, heq, hne⟩ := (digits_toDigits i.natAbs).eq_cons (i < 0) []
      refine ⟨c, tail, ?_, ?_⟩
      · rw [Token.chars, chars_ofInt, ← heq, List.append_nil]
      · simp [isBlank, hne]
  | string s =>
      obtain ⟨s, rfl⟩ := Option.isSome_iff_exists.mp ht
      exact ⟨_, _, rfl, by decide⟩
  | bool b => cases b <;> exact ⟨_, _, rfl, by decide⟩
  | _ => exact ⟨_, _, rfl, by decide⟩

/-- White space before a token is skipped. -/
theorem lexWithin_succ {cs : List Char} {c : Char} {rest : List Char}
    (h : cs.dropWhile isBlank = c :: rest) (fuel : Nat) :
    lexWithin (fuel + 1) cs =
      (token (c :: rest)).bind fun read => (lexWithin fuel read.2).map (read.1 :: ·) := by
  rw [lexWithin.eq_def]
  simp only [h]
  cases token (c :: rest) with
  | none => rfl
  | some read => cases hrest : lexWithin fuel read.2 <;> simp [hrest]

namespace Spells

variable {ts us : List Token} {cs mid rest : List Char}

/-- A text of tokens can go on with more of them. -/
theorem append (h : Spells ts cs mid) (h' : Spells us mid rest) : Spells (ts ++ us) cs rest := by
  induction h with
  | nil => exact h'
  | cons hb ht hend _ ih => exact .cons hb ht hend (ih h')

/-- A text has no more tokens than characters. -/
theorem length_le (h : Spells ts cs rest) : ts.length + rest.length ≤ cs.length := by
  induction h with
  | nil => simp
  | cons _ ht _ _ ih =>
      obtain ⟨c, tail, heq, -⟩ := Token.chars_eq_cons ht
      simp only [heq, List.length_append, List.length_cons]
      omega

/-- The tokens that a text spells are read one after the other, each for one step. -/
theorem lexWithin (h : Spells ts cs rest) (fuel : Nat) :
    Json.lexWithin (fuel + ts.length) cs = (Json.lexWithin fuel rest).map (ts ++ ·) := by
  induction h with
  | nil => simp
  | @cons blanks cs rest t ts hb ht hend _ ih =>
      obtain ⟨c, tail, heq, hc⟩ := Token.chars_eq_cons ht
      have htoken := token_chars ht hend
      have hskip : (blanks ++ (t.chars ++ cs)).dropWhile isBlank = c :: (tail ++ cs) := by
        rw [List.dropWhile_append_of_pos hb, heq, List.cons_append,
          List.dropWhile_cons_of_neg (by simp [hc])]
      rw [heq, List.cons_append] at htoken
      rw [List.length_cons, ← Nat.add_assoc, lexWithin_succ hskip, htoken, Option.bind_some, ih]
      cases Json.lexWithin fuel rest <;> rfl

end Spells

/-- A text without tokens is white space. -/
theorem lexWithin_eq_nil_iff {fuel : Nat} {cs : List Char} :
    lexWithin fuel cs = some [] ↔ ∀ c ∈ cs, isBlank c = true := by
  rw [← List.dropWhile_eq_nil_iff]
  unfold lexWithin
  cases hskip : cs.dropWhile isBlank with
  | nil => simp
  | cons c rest =>
      cases fuel with
      | zero => simp
      | succ fuel => simp [Option.bind_eq_some_iff]

end SlotWatch.Json

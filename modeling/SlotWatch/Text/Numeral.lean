/-!
# SlotWatch.Text.Numeral

Numerals and columns, over `List Char`: the decimal numerals of integers, the
fixed-width hexadecimal numerals of masks and escapes, and the padding of table
columns.  Digits come from the core library (`Nat.toDigits`,
`Nat.ofDigitChars`), so its lemmas carry the round trips.
-/

namespace SlotWatch.Text

/-! ## Decimal numerals -/

/-- Decimal numeral of an integer: a minus sign before a negative one, no
leading zeros. -/
def decimal : Int → List Char
  | .ofNat n => Nat.toDigits 10 n
  | .negSucc n => '-' :: Nat.toDigits 10 (n + 1)

/-- Decimal numeral of an integer, as a text. -/
def number (n : Int) : String := String.ofList (decimal n)

/-- The integer a sign and a run of decimal digits stand for. -/
def signed (negative : Bool) (digits : List Char) : Int :=
  if negative then -(Nat.ofDigitChars 10 digits 0 : Int) else (Nat.ofDigitChars 10 digits 0 : Int)

/-! ## Hexadecimal numerals -/

/-- Hexadecimal numeral in lower case, filled with zeros up to `width`. -/
def hex (width n : Nat) : List Char :=
  let digits := Nat.toDigits 16 n
  List.replicate (width - digits.length) '0' ++ digits

/-- Hexadecimal numeral in upper case. -/
def upperHex (width n : Nat) : List Char :=
  (hex width n).map Char.toUpper

/-- Value of a hexadecimal digit of either case. -/
def hexDigit? (c : Char) : Option Nat :=
  if c.isDigit then some (c.toNat - '0'.toNat)
  else if 'a' ≤ c ∧ c ≤ 'f' then some (c.toNat - 'a'.toNat + 10)
  else if 'A' ≤ c ∧ c ≤ 'F' then some (c.toNat - 'A'.toNat + 10)
  else none

/-- Value of a run of hexadecimal digits; `none` if anything else is in it. -/
def hexValue? (digits : List Char) : Option Nat :=
  digits.foldlM (fun n c => (hexDigit? c).map (16 * n + ·)) 0

/-! ## Columns -/

/-- A left-aligned column: blanks fill the text up to `width` characters; a
longer text is kept whole. -/
def column (width : Nat) (text : String) : String :=
  text ++ String.ofList (List.replicate (width - text.length) ' ')

/-- A right-aligned column. -/
def rightColumn (width : Nat) (text : String) : String :=
  String.ofList (List.replicate (width - text.length) ' ') ++ text

end SlotWatch.Text

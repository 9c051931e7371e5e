import SlotWatch.Text.Numeral
import SlotWatch.Text.Double

/-!
# SlotWatch.Json.Numeral

Number literals of JSON, kept as they are spelled.  What a literal means is
decided by whoever reads it:

1. `toInt?` — an integer literal has neither fraction nor exponent and is not
   `-0`, which stands for the floating-point negative zero;
2. `overflows` — a literal too large for a double-precision number.
-/

namespace SlotWatch.Json

/-- A number literal.  `fraction` is empty where none is written; `exponent`
holds the sign (`true` for minus) and the digits. -/
structure Numeral where
  negative : Bool
  whole : List Char
  fraction : List Char
  exponent : Option (Bool × List Char)
deriving DecidableEq, Repr

namespace Numeral

/-- The literal of an integer. -/
def ofInt (n : Int) : Numeral :=
  ⟨n < 0, Nat.toDigits 10 n.natAbs, [], none⟩

/-- The integer of an integer literal. -/
def toInt? (n : Numeral) : Option Int :=
  if n.fraction = [] ∧ n.exponent = none ∧ ¬ (n.negative ∧ n.whole = ['0']) then
    some (Text.signed n.negative n.whole)
  else none

/-- A spelling of the literal: the shortest one, with a small `e` and no plus
sign. -/
def chars (n : Numeral) : List Char :=
  (if n.negative then ['-'] else []) ++ n.whole
    ++ (if n.fraction = [] then [] else '.' :: n.fraction)
    ++ match n.exponent with
       | none => []
       | some (minus, digits) => 'e' :: ((if minus then ['-'] else []) ++ digits)

/-! ## Literals beyond the double-precision range

A literal is turned into a 64-bit significand and a power of ten; digits that no
longer fit are dropped.  Both are rounded to double precision, and so is their
product. -/

/-- The largest significand that is kept. -/
def maxSignificand : Nat := UInt64.size - 1

/-- Significand and dropped digits of a whole part: once a digit does not fit,
all further ones count as a factor of ten. -/
def takeWhole : List Char → Nat → Nat × Nat
  | [], s => (s, 0)
  | c :: cs, s =>
    let t := 10 * s + (c.toNat - '0'.toNat)
    if t ≤ maxSignificand then takeWhole cs t else (s, (c :: cs).length)

/-- Significand and taken digits of a fraction: digits are taken while they
fit. -/
def takeFraction : List Char → Nat → Nat × Nat
  | [], s => (s, 0)
  | c :: cs, s =>
    let t := 10 * s + (c.toNat - '0'.toNat)
    if t ≤ maxSignificand then
      let (u, n) := takeFraction cs t
      (u, n + 1)
    else (s, 0)

/-- A significand and a power of ten whose product is no finite double. -/
def scaleOverflows (significand : Nat) (exponent : Int) : Bool :=
  match exponent with
  | .negSucc _ => false
  | .ofNat e =>
    if significand = 0 then false
    else if e > 308 then true
    else Text.firstInfinite ≤ Text.roundDouble significand * Text.roundDouble (Nat.pow 10 e)

/-- Whether the literal is too large for a double. -/
def overflows (n : Numeral) : Bool :=
  let (s, dropped) := takeWhole n.whole 0
  let (s, taken) := takeFraction n.fraction s
  let written : Int := match n.exponent with
    | none => 0
    | some (minus, digits) => Text.signed minus digits
  scaleOverflows s (dropped - taken + written)

end Numeral

end SlotWatch.Json

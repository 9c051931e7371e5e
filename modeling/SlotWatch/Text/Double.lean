/-!
# SlotWatch.Text.Double

Where the double-precision numbers end.  A double has 53 significant bits; a
number rounds to infinity from half a unit above the largest finite double on,
because the tie goes to the even neighbour.
-/

namespace SlotWatch.Text

/-- A natural number rounded to 53 significant bits, a tie going to the even
neighbour. -/
def roundDouble (n : Nat) : Nat :=
  let unit := 1 <<< (n.log2 + 1 - 53)
  let low := n / unit
  let twice := 2 * (n % unit)
  if twice < unit ∨ (twice = unit ∧ low % 2 = 0) then low * unit else (low + 1) * unit

/-- The least number that rounds to infinity. -/
def firstInfinite : Nat := 1 <<< 1024 - 1 <<< 970

/-- Whether `m · 10 ^ e` rounds to infinity.  Far from the limit the number of
digits decides. -/
def decimalOverflows (m : Nat) (e : Int) : Bool :=
  if m = 0 then false
  else
    let size := ((Nat.toDigits 10 m).length : Int) + e
    if size < 300 then false
    else if 320 < size then true
    else match e with
      | .ofNat e => firstInfinite ≤ m * Nat.pow 10 e
      | .negSucc e => firstInfinite * Nat.pow 10 (e + 1) ≤ m

end SlotWatch.Text

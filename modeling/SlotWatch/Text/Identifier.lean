import SlotWatch.Text.Numeral

/-!
# SlotWatch.Text.Identifier

Identifiers made of random bytes: 32 hexadecimal digits in five groups, of which
one digit tells that the identifier is random and one which variant it is.
-/

namespace SlotWatch.Text

/-- The bytes with the marks of a random identifier. -/
def markRandom (bytes : List Nat) : List Nat :=
  bytes.zipIdx.map fun (byte, i) =>
    if i = 6 then 0x40 + byte % 0x10
    else if i = 8 then 0x80 + byte % 0x40
    else byte

/-- Cut digits into groups of these sizes, with hyphens between them. -/
def grouped : List Nat → List Char → List Char
  | [], digits => digits
  | size :: sizes, digits => digits.take size ++ '-' :: grouped sizes (digits.drop size)

/-- The identifier made of sixteen bytes. -/
def identifier (bytes : List Nat) : String :=
  String.ofList (grouped [8, 4, 4, 4] ((markRandom bytes).flatMap (hex 2)))

end SlotWatch.Text

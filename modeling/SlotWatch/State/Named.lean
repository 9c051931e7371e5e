import SlotWatch.Json.Decode

/-!
# SlotWatch.State.Named

Enumerations with wire names and raw codes.

* `Named` gives each value of an enumeration the name it goes by in JSON; the
  JSON form of such a type is a unit name.
* `Coded` gives each value its raw number.  The native services may report any
  number: one that is nobody's code stands for `fallback`.
-/

namespace SlotWatch

/-- An enumeration whose values have distinct names. -/
class Named (α : Type) where
  all : List α
  name : α → String

namespace Named

/-- The value of a name; names are compared letter by letter. -/
def ofName? (α : Type) [Named α] (s : String) : Option α :=
  (all : List α).find? (fun a => name a == s)

end Named

/-- An enumeration is written by name and read from any unit name. -/
instance [Named α] : Wire α where
  write a := .str (Named.name a)
  read m v := (Json.unitName? m v).bind (Named.ofName? α)

/-- An enumeration whose values have raw numbers. -/
class Coded (α : Type) extends Named α where
  code : α → Int32
  fallback : α

namespace Coded

/-- The value of a raw number, if it has one. -/
def ofCode? (α : Type) [Coded α] (n : Int32) : Option α :=
  (Named.all : List α).find? (fun a => code a == n)

/-- The value of a raw number, `fallback` for an unknown one. -/
def ofCode [Coded α] (n : Int32) : α :=
  (ofCode? α n).getD fallback

end Coded

end SlotWatch

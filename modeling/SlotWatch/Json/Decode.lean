import SlotWatch.Json.Basic

/-!
# SlotWatch.Json.Decode

Reading domain values out of JSON.

1. A record is an object with its fields in any order, or an array of its
   fields in the declared order.  Unknown members of an object are ignored and
   may hold anything; a field may not occur twice; an array has no surplus
   elements, and fields missing at its end count as absent.
2. A unit name is a string, or an object whose only member has that name and
   the value `null`.
3. Some values are *buffered*: taken in as a whole before it is known what they
   are.  A buffered value may hold no unpaired surrogate, no number beyond
   double precision and no container nested too deep (`isPlain`), not even
   where it is ignored later.  In a buffered unit name the member may also be
   an empty object.
-/

namespace SlotWatch

namespace Json

/-! ## Buffered values -/

/-- Containers may be nested this deep in a text, counted from its outermost
one. -/
def maxNesting : Nat := 127

mutual
/-- Whether a value can be buffered, `room` more levels of containers being
allowed. -/
def isPlain : Nat → Json → Bool
  | _, null => true
  | _, bool _ => true
  | _, number n => !n.overflows
  | _, string s => s.isSome
  | 0, array _ => false
  | room + 1, array vs => elementsPlain room vs
  | 0, object _ => false
  | room + 1, object ms => membersPlain room ms

/-- Whether all elements can be buffered. -/
def elementsPlain : Nat → List Json → Bool
  | _, [] => true
  | room, v :: vs => isPlain room v && elementsPlain room vs

/-- Whether all members can be buffered. -/
def membersPlain : Nat → List (Option String × Json) → Bool
  | _, [] => true
  | room, (k, v) :: ms => k.isSome && isPlain room v && membersPlain room ms
end

/-- How a value is being read. -/
inductive Manner where
  /-- Straight from the text, inside `depth` open containers. -/
  | direct (depth : Nat)
  /-- Out of a buffered value. -/
  | buffered
deriving DecidableEq, Repr

/-- The manner of reading the members or elements of a container. -/
def Manner.inside : Manner → Manner
  | direct depth => direct (depth + 1)
  | buffered => buffered

/-- Buffer a value, if it can be. -/
def buffer (m : Manner) (v : Json) : Option Json :=
  match m with
  | .direct depth => if isPlain (maxNesting - depth) v then some v else none
  | .buffered => some v

/-! ## Records -/

/-- The names of all members, if all have a value. -/
def memberNames (ms : List (Option String × Json)) : Option (List String) :=
  ms.mapM (·.1)

/-- The first member of a name. -/
def member? (ms : List (Option String × Json)) (name : String) : Option Json :=
  (ms.find? (·.1 == some name)).map (·.2)

/-- The values of the named fields of a record, `none` for an absent one. -/
def fields? (names : List String) : Json → Option (List (Option Json))
  | array vs =>
    if vs.length ≤ names.length then
      some (vs.map some ++ List.replicate (names.length - vs.length) none)
    else none
  | object ms => do
    let present ← memberNames ms
    if names.all (fun n => present.count n ≤ 1) then some (names.map (member? ms)) else none
  | _ => none

/-! ## Unit names -/

/-- The name written as a unit name. -/
def unitName? (m : Manner) : Json → Option String
  | string s => s
  | object [(k, null)] => k
  | object [(k, object [])] => if m = .buffered then k else none
  | _ => none

end Json

/-! ## Types with a JSON form -/

/-- A type with a JSON form.  `read` fails on a value that is no form of the
type. -/
class Wire (α : Type) where
  write : α → Json
  read : Json.Manner → Json → Option α

namespace Wire

/-- The compact JSON text of a value. -/
def toText [Wire α] (a : α) : String :=
  (write a).print

/-- Read a JSON text. -/
def ofText? (α : Type) [Wire α] (text : String) : Option α :=
  (Json.parse text).bind (read (.direct 0))

end Wire

instance : Wire Bool where
  write := .bool
  read
    | _, .bool b => some b
    | _, _ => none

instance : Wire String where
  write := .str
  read
    | _, .string s => s
    | _, _ => none

/-- The 32-bit integer of an integer literal in range. -/
def int32? (n : Int) : Option Int32 :=
  if Int32.minValue.toInt ≤ n ∧ n ≤ Int32.maxValue.toInt then some (Int32.ofInt n) else none

instance : Wire Int32 where
  write n := .int n.toInt
  read
    | _, .number n => n.toInt?.bind int32?
    | _, _ => none

/-- An absent value is `null`. -/
instance [Wire α] : Wire (Option α) where
  write
    | none => .null
    | some a => Wire.write a
  read
    | _, .null => some none
    | m, v => (Wire.read m v).map some

instance [Wire α] : Wire (List α) where
  write as := .array (as.map Wire.write)
  read
    | m, .array vs => vs.mapM (Wire.read m.inside)
    | _, _ => none

end SlotWatch

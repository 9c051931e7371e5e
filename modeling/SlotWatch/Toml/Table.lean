/-!
# SlotWatch.Toml.Table

The tables of a TOML document while it is read, and the rules by which later
lines may add to them:

1. A key is given once.
2. A table is headed once.  A header may complete a table that only other
   headers have implied, but not one that dotted keys have made.
3. A dotted key may extend tables that dotted keys have made, and pass through
   tables that headers have implied; it adds to no table that has a header.
4. An inline table is complete as written.
-/

namespace SlotWatch.Toml

/-- How a table came about. -/
inductive Origin where
  /-- By a header of its own, or as the document itself. -/
  | headed
  /-- By the header of a table inside it. -/
  | implied
  /-- By a dotted key. -/
  | dotted
  /-- Between braces. -/
  | inline
deriving DecidableEq, Repr

mutual
/-- What a key stands for.  Floats and moments are kept as they are spelled. -/
inductive Item where
  | string (s : String)
  | integer (n : Int)
  | float (spelling : String)
  | boolean (b : Bool)
  | moment (spelling : String)
  | array (items : List Item)
  | table (t : Table)
  /-- A table for each header in double brackets, latest last. -/
  | tables (ts : List Table)

/-- A table: its keys in the order in which they were given. -/
inductive Table where
  | mk (origin : Origin) (entries : List (String × Item))
end

namespace Table

/-- How the table came about. -/
def origin : Table → Origin
  | mk o _ => o

/-- Keys and what they stand for. -/
def entries : Table → List (String × Item)
  | mk _ es => es

/-- A table without keys. -/
def empty (o : Origin) : Table := mk o []

/-- What a key stands for, if it was given. -/
def find? (t : Table) (key : String) : Option Item :=
  (t.entries.find? (·.1 == key)).map (·.2)

/-- Give a key a new meaning: in place if it has one, at the end otherwise. -/
def set (t : Table) (key : String) (item : Item) : Table :=
  match t.find? key with
  | none => mk t.origin (t.entries ++ [(key, item)])
  | some _ => mk t.origin (t.entries.map fun (k, old) => if k == key then (k, item) else (k, old))

/-- Change the last element of a list. -/
def changeLast (f : Table → Option Table) : List Table → Option (List Table)
  | [] => none
  | [t] => (f t).map ([·])
  | t :: ts => (changeLast f ts).map (t :: ·)

/-- Change the table at the end of a path.  Missing tables are made on the way,
and an array of tables stands for its latest one.  `byKey` tells a dotted key
from a header: a key passes only through tables without a header. -/
def update (byKey : Bool) : List String → (Table → Option Table) → Table → Option Table
  | [], f, t => f t
  | key :: path, f, t =>
    match t.find? key with
    | none =>
      (update byKey path f (empty (if byKey then .dotted else .implied))).map
        fun sub => t.set key (.table sub)
    | some (.table sub) =>
      if sub.origin = .inline ∨ (byKey ∧ sub.origin = .headed) then none
      else (update byKey path f sub).map fun sub => t.set key (.table sub)
    | some (.tables ts) =>
      (changeLast (update byKey path f) ts).map fun ts => t.set key (.tables ts)
    | some _ => none

/-- Give the key at the end of a dotted key its value. -/
def put (path : List String) (key : String) (item : Item) (t : Table) : Option Table :=
  update true path (fun t =>
    if decide (t.origin = .dotted) == path.isEmpty then none
    else match t.find? key with
      | none => some (t.set key item)
      | some _ => none) t

/-- Head the table at the end of a path. -/
def head (path : List String) (key : String) (t : Table) : Option Table :=
  update false path (fun t =>
    match t.find? key with
    | none => some (t.set key (.table (empty .headed)))
    | some (.table sub) =>
      if sub.origin = .implied then some (t.set key (.table (mk .headed sub.entries))) else none
    | some _ => none) t

/-- Head one more table of the array at the end of a path. -/
def headNext (path : List String) (key : String) (t : Table) : Option Table :=
  update false path (fun t =>
    match t.find? key with
    | none => some (t.set key (.tables [empty .headed]))
    | some (.tables ts) => some (t.set key (.tables (ts ++ [empty .headed])))
    | some _ => none) t

end Table

end SlotWatch.Toml

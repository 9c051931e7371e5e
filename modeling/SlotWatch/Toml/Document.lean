import SlotWatch.Toml.Scan

/-!
# SlotWatch.Toml.Document

Reading a TOML document: values, then lines.  A document is a sequence of
lines, each empty, a header, or a key with its value; values may span several
lines.  The keys of a line go to the table of the latest header.
-/

namespace SlotWatch.Toml

/-- Arrays and inline tables may be nested this deep. -/
def maxNesting : Nat := 79

/-! ## Values -/

mutual
/-- Read a value that may hold `room` more levels of arrays and inline tables.
`fuel` bounds the number of values and elements. -/
def value? (fuel room : Nat) (cs : List Char) : Option (Item × List Char) :=
  match fuel with
  | 0 => none
  | fuel + 1 =>
    match cs, room with
    | '[' :: _, 0 => none
    | '[' :: rest, room + 1 => (elements? fuel room rest).map fun (vs, rest) => (.array vs, rest)
    | '\x7b' :: _, 0 => none
    | '\x7b' :: rest, room + 1 =>
      match skipBlanks rest with
      | '\x7d' :: rest => some (.table (.empty .inline), rest)
      | rest => (pairs? fuel room (.empty .inline) rest).map fun (t, rest) => (.table t, rest)
    | _, _ => scalar? cs

/-- Read the elements of an array, up to and with its closing bracket. -/
def elements? (fuel room : Nat) (cs : List Char) : Option (List Item × List Char) :=
  match fuel with
  | 0 => none
  | fuel + 1 => do
    match ← skipGap? false cs with
    | ']' :: rest => some ([], rest)
    | cs =>
      let (v, cs) ← value? fuel room cs
      match ← skipGap? false cs with
      | ',' :: rest =>
        let (vs, rest) ← elements? fuel room rest
        some (v :: vs, rest)
      | ']' :: rest => some ([v], rest)
      | _ => none

/-- Read the keys and values of an inline table, up to and with its closing
brace, into the table read so far. -/
def pairs? (fuel room : Nat) (t : Table) (cs : List Char) : Option (Table × List Char) :=
  match fuel with
  | 0 => none
  | fuel + 1 => do
    let ((path, key), cs) ← keyPath? maxKeyParts cs
    let cs ← expect? '=' cs
    let (v, cs) ← value? fuel room (skipBlanks cs)
    let t ← t.put path key v
    match skipBlanks cs with
    | ',' :: rest => pairs? fuel room t rest
    | '\x7d' :: rest => some (t, rest)
    | _ => none
end

/-! ## Lines -/

/-- What has been read: the document, and the path to the table of the latest
header. -/
structure Progress where
  root : Table := .empty .headed
  here : List String := []

namespace Progress

/-- Add a key to the table of the latest header. -/
def put (p : Progress) (path : List String) (key : String) (v : Item) : Option Progress :=
  (p.root.update false p.here (·.put path key v)).map fun root => { p with root }

/-- Read the header of a table, its opening bracket taken. -/
def header? (p : Progress) (cs : List Char) : Option (Progress × List Char) := do
  let ((path, key), cs) ← keyPath? maxKeyParts cs
  let cs ← lineEnd? (← expect? ']' cs)
  some (⟨← p.root.head path key, path ++ [key]⟩, cs)

/-- Read the header of one more table of an array, its opening brackets
taken. -/
def nextHeader? (p : Progress) (cs : List Char) : Option (Progress × List Char) := do
  let ((path, key), cs) ← keyPath? maxKeyParts cs
  let cs ← lineEnd? (← expect? ']' (← expect? ']' cs))
  some (⟨← p.root.headNext path key, path ++ [key]⟩, cs)

/-- Read a line that gives a key its value. -/
def pair? (p : Progress) (cs : List Char) : Option (Progress × List Char) := do
  let ((path, key), cs) ← keyPath? maxKeyParts cs
  let cs ← expect? '=' cs
  let (v, cs) ← value? (2 * cs.length + 2) maxNesting (skipBlanks cs)
  let cs ← lineEnd? cs
  some (← p.put path key v, cs)

/-- Read one line. -/
def line? (p : Progress) (cs : List Char) : Option (Progress × List Char) :=
  match skipBlanks cs with
  | '[' :: '[' :: rest => p.nextHeader? rest
  | '[' :: rest => p.header? rest
  | cs =>
    match lineEnd? cs with
    | some rest => some (p, rest)
    | none => p.pair? cs

/-- Read lines to the end of the text, at most `fuel` of them. -/
def lines? : Nat → Progress → List Char → Option Progress
  | _, p, [] => some p
  | 0, _, _ :: _ => none
  | fuel + 1, p, c :: cs => do
    let (p, rest) ← p.line? (c :: cs)
    lines? fuel p rest

end Progress

/-- Drop a byte order mark. -/
def dropMark : List Char → List Char
  | '\ufeff' :: rest => rest
  | cs => cs

/-- Read a document.  Every line takes a character, so there are no more lines
than characters. -/
def parse (text : String) : Option Table :=
  let cs := dropMark text.toList
  (Progress.lines? cs.length {} cs).map (·.root)

end SlotWatch.Toml

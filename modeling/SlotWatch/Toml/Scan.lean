import SlotWatch.Text.Numeral
import SlotWatch.Text.Double
import SlotWatch.Toml.Table

/-!
# SlotWatch.Toml.Scan

The lexical level of TOML: white space and comments, keys, strings, numbers and
moments.  Each reader takes its part off the front of a text and returns the
rest, or fails.

1. A line ends with a line feed, alone or after a carriage return; a carriage
   return has no other place.
2. Text and comments hold no control character but the tab.
3. In a text over several lines a line break right after the opening quotes is
   dropped, every break counts as a line feed, and a backslash at the end of a
   line joins it to the next word.
4. One or two quotes may stand before the closing three.
-/

namespace SlotWatch.Toml

/-! ## White space -/

/-- White space within a line. -/
def isBlank (c : Char) : Bool := c = ' ' || c = '\t'

/-- Characters of comments and texts: no controls except the tab. -/
def isPlain (c : Char) : Bool :=
  c = '\t' || (0x20 ≤ c.toNat && c.toNat != 0x7F)

/-- Skip white space within a line. -/
def skipBlanks (cs : List Char) : List Char := cs.dropWhile isBlank

/-- Take one line break. -/
def lineBreak? : List Char → Option (List Char)
  | '\n' :: rest => some rest
  | '\r' :: '\n' :: rest => some rest
  | _ => none

/-- Skip a comment, if there is one, up to the end of its line. -/
def skipComment : List Char → List Char
  | '#' :: rest => rest.dropWhile isPlain
  | cs => cs

/-- Finish a line: nothing but blanks and a comment may be left on it. -/
def lineEnd? (cs : List Char) : Option (List Char) :=
  match skipComment (skipBlanks cs) with
  | [] => some []
  | cs => lineBreak? cs

/-- Skip blanks, line breaks and comments, as between the elements of an array.
A comment reaches to the end of its line. -/
def skipGap? (inComment : Bool) : List Char → Option (List Char)
  | [] => if inComment then none else some []
  | '\n' :: rest => skipGap? false rest
  | '\r' :: '\n' :: rest => skipGap? false rest
  | c :: rest =>
    if inComment then (if isPlain c then skipGap? true rest else none)
    else if isBlank c then skipGap? false rest
    else if c = '#' then skipGap? true rest
    else some (c :: rest)

/-! ## Strings -/

/-- The character after a backslash that begins no numbered escape. -/
def simpleEscape? : Char → Option Char
  | 'b' => some '\x08'
  | 't' => some '\t'
  | 'n' => some '\n'
  | 'f' => some '\x0c'
  | 'r' => some '\r'
  | '"' => some '"'
  | '\\' => some '\\'
  | _ => none

/-- The character of a numbered escape; surrogates and numbers beyond Unicode
stand for none. -/
def numbered? (digits : List Char) : Option Char := do
  let n ← Text.hexValue? digits
  if n.isValidChar then some (Char.ofNat n) else none

/-- Put a character before a text that has been read. -/
def before (c : Char) (r : Option (List Char × List Char)) : Option (List Char × List Char) :=
  r.map fun (text, rest) => (c :: text, rest)

/-- The rest of a text in double quotes. -/
def basicText : List Char → Option (List Char × List Char)
  | [] => none
  | '"' :: rest => some ([], rest)
  | '\\' :: 'u' :: a :: b :: c :: d :: rest => do
    before (← numbered? [a, b, c, d]) (basicText rest)
  | '\\' :: 'U' :: a :: b :: c :: d :: e :: f :: g :: h :: rest => do
    before (← numbered? [a, b, c, d, e, f, g, h]) (basicText rest)
  | '\\' :: e :: rest => do
    before (← simpleEscape? e) (basicText rest)
  | c :: rest => if isPlain c ∧ c ≠ '\\' then before c (basicText rest) else none

/-- The rest of a text in single quotes. -/
def literalText : List Char → Option (List Char × List Char)
  | [] => none
  | '\'' :: rest => some ([], rest)
  | c :: rest => if isPlain c then before c (literalText rest) else none

/-- Whether a backslash before this text joins two lines. -/
def joinsLines (cs : List Char) : Bool := (lineBreak? (skipBlanks cs)).isSome

/-- The rest of a text in three double quotes; `joining` after a backslash that
joins lines, until the next word. -/
def longBasicText (joining : Bool) : List Char → Option (List Char × List Char)
  | [] => none
  | '"' :: '"' :: '"' :: '"' :: '"' :: rest => some (['"', '"'], rest)
  | '"' :: '"' :: '"' :: '"' :: rest => some (['"'], rest)
  | '"' :: '"' :: '"' :: rest => some ([], rest)
  | '\r' :: '\n' :: rest =>
    if joining then longBasicText true rest else before '\n' (longBasicText false rest)
  | '\\' :: 'u' :: a :: b :: c :: d :: rest => do
    before (← numbered? [a, b, c, d]) (longBasicText false rest)
  | '\\' :: 'U' :: a :: b :: c :: d :: e :: f :: g :: h :: rest => do
    before (← numbered? [a, b, c, d, e, f, g, h]) (longBasicText false rest)
  | '\\' :: e :: rest =>
    if joinsLines (e :: rest) then longBasicText true (e :: rest)
    else do before (← simpleEscape? e) (longBasicText false rest)
  | c :: rest =>
    if joining ∧ (isBlank c ∨ c = '\n') then longBasicText true rest
    else if (isPlain c ∧ c ≠ '\\') ∨ c = '\n' then before c (longBasicText false rest)
    else none

/-- The rest of a text in three single quotes. -/
def longLiteralText : List Char → Option (List Char × List Char)
  | [] => none
  | '\'' :: '\'' :: '\'' :: '\'' :: '\'' :: rest => some (['\'', '\''], rest)
  | '\'' :: '\'' :: '\'' :: '\'' :: rest => some (['\''], rest)
  | '\'' :: '\'' :: '\'' :: rest => some ([], rest)
  | '\r' :: '\n' :: rest => before '\n' (longLiteralText rest)
  | c :: rest =>
    if isPlain c ∨ c = '\n' then before c (longLiteralText rest) else none

/-- Drop a line break right after opening quotes. -/
def dropBreak (cs : List Char) : List Char := (lineBreak? cs).getD cs

/-- A string of any of the four forms. -/
def string? : List Char → Option (String × List Char)
  | '"' :: '"' :: '"' :: rest => text (longBasicText false (dropBreak rest))
  | '"' :: rest => text (basicText rest)
  | '\'' :: '\'' :: '\'' :: rest => text (longLiteralText (dropBreak rest))
  | '\'' :: rest => text (literalText rest)
  | _ => none
where
  text (r : Option (List Char × List Char)) : Option (String × List Char) :=
    r.map fun (cs, rest) => (String.ofList cs, rest)

/-! ## Keys -/

/-- Characters of keys without quotes. -/
def isBare (c : Char) : Bool := c.isAlphanum || c = '-' || c = '_'

/-- One part of a key. -/
def keyPart? : List Char → Option (String × List Char)
  | '"' :: rest => (basicText rest).map fun (cs, rest) => (String.ofList cs, rest)
  | '\'' :: rest => (literalText rest).map fun (cs, rest) => (String.ofList cs, rest)
  | cs =>
    match cs.takeWhile isBare with
    | [] => none
    | key => some (String.ofList key, cs.dropWhile isBare)

/-- A dotted key has fewer than eighty parts. -/
def maxKeyParts : Nat := 79

/-- A key of at most `room` parts, with the blanks around it: the parts before
the last one, and the last. -/
def keyPath? : Nat → List Char → Option ((List String × String) × List Char)
  | 0, _ => none
  | room + 1, cs => do
    let (part, cs) ← keyPart? (skipBlanks cs)
    match skipBlanks cs with
    | '.' :: rest =>
      let ((path, key), rest) ← keyPath? room rest
      some ((part :: path, key), rest)
    | cs => some (([], part), cs)

/-! ## Numbers -/

/-- A sign, if there is one: whether it is a minus. -/
def sign : List Char → Bool × List Char
  | '-' :: rest => (true, rest)
  | '+' :: rest => (false, rest)
  | cs => (false, cs)

/-- Further digits, single underscores between them dropped. -/
def moreDigits (isDigit : Char → Bool) : List Char → List Char × List Char
  | '_' :: c :: rest =>
    if isDigit c then
      let (ds, rest) := moreDigits isDigit rest
      (c :: ds, rest)
    else ([], '_' :: c :: rest)
  | c :: rest =>
    if isDigit c then
      let (ds, rest) := moreDigits isDigit rest
      (c :: ds, rest)
    else ([], c :: rest)
  | [] => ([], [])

/-- A run of digits, single underscores between them dropped. -/
def digits? (isDigit : Char → Bool) : List Char → Option (List Char × List Char)
  | c :: rest =>
    if isDigit c then
      let (ds, rest) := moreDigits isDigit rest
      some (c :: ds, rest)
    else none
  | [] => none

/-- Unsigned decimal digits without a leading zero. -/
def decimalDigits? : List Char → Option (List Char × List Char)
  | '0' :: rest => some (['0'], rest)
  | cs => digits? Char.isDigit cs

/-- Integers have 64 bits. -/
def int64? (n : Int) : Option Int :=
  if Int64.minValue.toInt ≤ n ∧ n ≤ Int64.maxValue.toInt then some n else none

/-- Value of digits in a base. -/
def valueIn (base : Nat) (digits : List Char) : Nat :=
  digits.foldl (fun n c => base * n + (Text.hexDigit? c).getD 0) 0

/-- The digits of an integer with a base mark. -/
def based? (base : Nat) (isDigit : Char → Bool) (cs : List Char) : Option (Int × List Char) := do
  let (ds, rest) ← digits? isDigit cs
  some (← int64? (valueIn base ds), rest)

/-- An integer: decimal with an optional sign, or hexadecimal, octal or binary
after its mark. -/
def integer? : List Char → Option (Int × List Char)
  | '0' :: 'x' :: rest => based? 16 (fun c => (Text.hexDigit? c).isSome) rest
  | '0' :: 'o' :: rest => based? 8 (fun c => '0' ≤ c && c ≤ '7') rest
  | '0' :: 'b' :: rest => based? 2 (fun c => c = '0' || c = '1') rest
  | cs => do
    let (negative, cs) := sign cs
    let (ds, rest) ← decimalDigits? cs
    some (← int64? (Text.signed negative ds), rest)

/-- The fraction of a float. -/
def fraction? : List Char → Option (List Char × List Char)
  | '.' :: rest => digits? Char.isDigit rest
  | _ => none

/-- The exponent of a float. -/
def exponent? : List Char → Option (Int × List Char)
  | c :: rest =>
    if c = 'e' ∨ c = 'E' then do
      let (negative, rest) := sign rest
      let (ds, rest) ← digits? Char.isDigit rest
      some (Text.signed negative ds, rest)
    else none
  | [] => none

/-- What follows the whole part of a float: a fraction, an exponent, or both. -/
def floatTail? (cs : List Char) : Option ((List Char × Int) × List Char) :=
  match exponent? cs with
  | some (e, rest) => some (([], e), rest)
  | none => do
    let (ds, rest) ← fraction? cs
    match exponent? rest with
    | some (e, rest) => some ((ds, e), rest)
    | none => some ((ds, 0), rest)

/-- What was read of `cs`, `rest` being left. -/
def spelling (cs rest : List Char) : String :=
  String.ofList (cs.take (cs.length - rest.length))

/-- A float.  A positive one must be in range; a negative one too low counts as
minus infinity. -/
def float? (cs : List Char) : Option (String × List Char) :=
  let (negative, body) := sign cs
  match body with
  | 'i' :: 'n' :: 'f' :: rest => some (spelling cs rest, rest)
  | 'n' :: 'a' :: 'n' :: rest => some (spelling cs rest, rest)
  | _ => do
    let (whole, tail) ← decimalDigits? body
    let ((ds, e), rest) ← floatTail? tail
    let m := Nat.ofDigitChars 10 (whole ++ ds) 0
    if !negative && Text.decimalOverflows m (e - ds.length) then none
    else some (spelling cs rest, rest)

/-! ## Moments -/

/-- Exactly `n` digits: their value. -/
def fixedDigits? (n : Nat) (cs : List Char) : Option (Nat × List Char) :=
  let ds := cs.take n
  if ds.length = n ∧ ds.all Char.isDigit then some (Nat.ofDigitChars 10 ds 0, cs.drop n) else none

/-- Exactly `n` digits with a value from `low` to `high`. -/
def ranged? (n low high : Nat) (cs : List Char) : Option (Nat × List Char) := do
  let (v, rest) ← fixedDigits? n cs
  if low ≤ v ∧ v ≤ high then some (v, rest) else none

/-- Take one given character. -/
def expect? (c : Char) : List Char → Option (List Char)
  | d :: rest => if c = d then some rest else none
  | [] => none

/-- Days of a month. -/
def daysIn (year month : Nat) : Nat :=
  if month = 2 then (if year % 4 = 0 ∧ (year % 100 ≠ 0 ∨ year % 400 = 0) then 29 else 28)
  else if month = 4 ∨ month = 6 ∨ month = 9 ∨ month = 11 then 30
  else 31

/-- A date. -/
def date? (cs : List Char) : Option (List Char) := do
  let (year, cs) ← fixedDigits? 4 cs
  let cs ← expect? '-' cs
  let (month, cs) ← ranged? 2 1 12 cs
  let cs ← expect? '-' cs
  let (_, cs) ← ranged? 2 1 (daysIn year month) cs
  some cs

/-- A time of day; a minute may have a leap second. -/
def time? (cs : List Char) : Option (List Char) := do
  let (_, cs) ← ranged? 2 0 23 cs
  let cs ← expect? ':' cs
  let (_, cs) ← ranged? 2 0 59 cs
  let cs ← expect? ':' cs
  let (_, cs) ← ranged? 2 0 60 cs
  match cs with
  | '.' :: rest =>
    match rest.takeWhile Char.isDigit with
    | [] => some ('.' :: rest)
    | _ => some (rest.dropWhile Char.isDigit)
  | cs => some cs

/-- The offset of a time from universal time, if there is one. -/
def skipOffset : List Char → List Char
  | c :: rest =>
    if c = 'Z' ∨ c = 'z' then rest
    else if c = '+' ∨ c = '-' then
      match (do
        let (_, cs) ← ranged? 2 0 23 rest
        let cs ← expect? ':' cs
        let (_, cs) ← ranged? 2 0 59 cs
        some cs) with
      | some cs => cs
      | none => c :: rest
    else c :: rest
  | [] => []

/-- A moment: a date, a time of day, or both. -/
def moment? (cs : List Char) : Option (String × List Char) :=
  match date? cs with
  | some [] => some (spelling cs [], [])
  | some (c :: rest) =>
    if c = 'T' ∨ c = 't' ∨ c = ' ' then
      match time? rest with
      | some rest => let rest := skipOffset rest; some (spelling cs rest, rest)
      | none => some (spelling cs (c :: rest), c :: rest)
    else some (spelling cs (c :: rest), c :: rest)
  | none => (time? cs).map fun rest => (spelling cs rest, rest)

/-! ## Scalars -/

/-- A value that is neither array nor table. -/
def scalar? (cs : List Char) : Option (Item × List Char) :=
  match cs with
  | '"' :: _ | '\'' :: _ => (string? cs).map fun (s, rest) => (.string s, rest)
  | 't' :: 'r' :: 'u' :: 'e' :: rest => some (.boolean true, rest)
  | 'f' :: 'a' :: 'l' :: 's' :: 'e' :: rest => some (.boolean false, rest)
  | _ =>
    match moment? cs with
    | some (s, rest) => some (.moment s, rest)
    | none =>
      match float? cs with
      | some (s, rest) => some (.float s, rest)
      | none => (integer? cs).map fun (n, rest) => (.integer n, rest)

end SlotWatch.Toml

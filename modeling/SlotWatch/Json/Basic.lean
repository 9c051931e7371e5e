import SlotWatch.Json.Token

/-!
# SlotWatch.Json.Basic

JSON values, and their texts.  A value keeps what its text says: number
literals as spelled, object members in order with repetitions, strings without a
value where a surrogate escape is unpaired.  Whether any of this is acceptable
is up to the reader of the value (`SlotWatch.Json.Decode`).

* `Json.tokens` lists the tokens of a value; `Json.chars` spells them without
  white space, and `Json.prettyChars` over several indented lines.
* `Json.parse` reads a text.  It works through the tokens with an explicit
  stack of the containers still open (`Reading`), so every nesting depth is
  read alike.
-/

namespace SlotWatch

open Json (Numeral Token)

/-- A JSON value as written.  A string or a member name that holds an unpaired
surrogate escape is `none`. -/
inductive Json where
  | null
  | bool (b : Bool)
  | number (n : Numeral)
  | string (s : Option String)
  | array (elements : List Json)
  | object (members : List (Option String × Json))
deriving Inhabited

namespace Json

/-! ## Building values -/

/-- The value of an integer. -/
def int (n : Int) : Json := .number (Numeral.ofInt n)

/-- The value of a text. -/
def str (s : String) : Json := .string (some s)

/-- An object with the given members. -/
def record (members : List (String × Json)) : Json :=
  .object (members.map fun (k, v) => (some k, v))

/-! ## Writing -/

mutual
/-- The tokens of a value. -/
def tokens : Json → List Token
  | null => [.null]
  | bool b => [.bool b]
  | number n => [.number n]
  | string s => [.string s]
  | array vs => .openArray :: (elementTokens vs ++ [.closeArray])
  | object ms => .openObject :: (memberTokens ms ++ [.closeObject])

/-- The tokens of array elements, with the commas between them. -/
def elementTokens : List Json → List Token
  | [] => []
  | v :: vs => v.tokens ++ moreElementTokens vs

/-- The tokens of further elements, each after its comma. -/
def moreElementTokens : List Json → List Token
  | [] => []
  | v :: vs => .comma :: (v.tokens ++ moreElementTokens vs)

/-- The tokens of object members, with the commas between them. -/
def memberTokens : List (Option String × Json) → List Token
  | [] => []
  | (k, v) :: ms => .string k :: .colon :: (v.tokens ++ moreMemberTokens ms)

/-- The tokens of further members, each after its comma. -/
def moreMemberTokens : List (Option String × Json) → List Token
  | [] => []
  | (k, v) :: ms => .comma :: .string k :: .colon :: (v.tokens ++ moreMemberTokens ms)
end

/-- The compact text of a value: its tokens and nothing between them. -/
def chars (v : Json) : List Char :=
  v.tokens.flatMap Token.chars

/-- The compact text of a value. -/
def print (v : Json) : String :=
  String.ofList v.chars

/-- A new line at an indentation of `depth` levels of two spaces. -/
def newline (depth : Nat) : List Char :=
  '\n' :: List.replicate (2 * depth) ' '

mutual
/-- The text of a value over several lines, its own level being `depth`.  Empty
containers stay on one line. -/
def prettyChars (depth : Nat) : Json → List Char
  | array [] => ['[', ']']
  | array (v :: vs) =>
    '[' :: (newline (depth + 1) ++ prettyChars (depth + 1) v ++ prettyElements (depth + 1) vs
      ++ newline depth ++ [']'])
  | object [] => ['\x7b', '\x7d']
  | object ((k, v) :: ms) =>
    '\x7b' :: (newline (depth + 1) ++ (Token.string k).chars ++ [':', ' ']
      ++ prettyChars (depth + 1) v ++ prettyMembers (depth + 1) ms ++ newline depth ++ ['\x7d'])
  | null => Token.null.chars
  | bool b => (Token.bool b).chars
  | number n => n.chars
  | string s => (Token.string s).chars

/-- Further elements, each on a line of its own. -/
def prettyElements (depth : Nat) : List Json → List Char
  | [] => []
  | v :: vs => ',' :: (newline depth ++ prettyChars depth v ++ prettyElements depth vs)

/-- Further members, each on a line of its own. -/
def prettyMembers (depth : Nat) : List (Option String × Json) → List Char
  | [] => []
  | (k, v) :: ms =>
    ',' :: (newline depth ++ (Token.string k).chars ++ [':', ' '] ++ prettyChars depth v
      ++ prettyMembers depth ms)
end

/-- The text of a value over several lines. -/
def prettyPrint (v : Json) : String :=
  String.ofList (v.prettyChars 0)

/-! ## Reading -/

/-- An open container: what it holds so far, latest first.  An object is open
because the value of `key` is being read. -/
inductive Frame where
  | elements (before : List Json)
  | members (before : List (Option String × Json)) (key : Option String)

/-- Where a reader stands, with the containers around it, innermost first. -/
inductive Reading where
  /-- A value is due. -/
  | value (stack : List Frame)
  /-- An array was just opened: an element is due, or its end. -/
  | firstElement (stack : List Frame)
  /-- A member name is due, or the end of the object if it has no member yet
  and `closable` holds. -/
  | name (stack : List Frame) (before : List (Option String × Json)) (closable : Bool)
  /-- The colon after a member name is due. -/
  | colon (stack : List Frame) (before : List (Option String × Json)) (key : Option String)
  /-- A value has been read. -/
  | got (stack : List Frame) (v : Json)

namespace Reading

/-- A token where a value is due. -/
def enter (stack : List Frame) : Token → Option Reading
  | .null => some (.got stack .null)
  | .bool b => some (.got stack (.bool b))
  | .number n => some (.got stack (.number n))
  | .string s => some (.got stack (.string s))
  | .openArray => some (.firstElement stack)
  | .openObject => some (.name stack [] true)
  | _ => none

/-- Take one token. -/
def take : Reading → Token → Option Reading
  | .value stack, t => enter stack t
  | .firstElement stack, .closeArray => some (.got stack (.array []))
  | .firstElement stack, t => enter (.elements [] :: stack) t
  | .name stack _ true, .closeObject => some (.got stack (.object []))
  | .name stack ms _, .string k => some (.colon stack ms k)
  | .colon stack ms k, .colon => some (.value (.members ms k :: stack))
  | .got (.elements vs :: stack) v, .comma => some (.value (.elements (v :: vs) :: stack))
  | .got (.elements vs :: stack) v, .closeArray =>
    some (.got stack (.array (v :: vs).reverse))
  | .got (.members ms k :: stack) v, .comma => some (.name stack ((k, v) :: ms) false)
  | .got (.members ms k :: stack) v, .closeObject =>
    some (.got stack (.object ((k, v) :: ms).reverse))
  | _, _ => none

/-- Take the tokens one after the other. -/
def run : Reading → List Token → Option Reading
  | r, [] => some r
  | r, t :: ts => (r.take t).bind fun r => run r ts

end Reading

/-- The value of a complete token sequence. -/
def ofTokens? (ts : List Token) : Option Json :=
  match Reading.run (.value []) ts with
  | some (.got [] v) => some v
  | _ => none

/-- Read a text that holds one value and nothing else. -/
def parse (text : String) : Option Json :=
  (lex text.toList).bind ofTokens?

end Json

end SlotWatch

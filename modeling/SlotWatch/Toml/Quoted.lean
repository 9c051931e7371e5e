import SlotWatch.Text.Numeral

/-!
# SlotWatch.Toml.Quoted

Writing a text as a TOML string.  There are four forms: in double quotes, with
escapes, or in single quotes, without any; either in one quote, on one line, or
in three.  A text is written in the first form of this list that suits it:

1. one double quote, if nothing but tabs would be escaped;
2. one single quote, if the text has no single quote and one line;
3. three double quotes, if nothing but tabs would be escaped;
4. three single quotes, if they cannot end early;
5. three double quotes with escapes, if there are several lines;
6. one double quote with escapes.

A text over several lines starts on a line of its own.
-/

namespace SlotWatch.Toml

/-- The forms of a string. -/
inductive Form where
  | basic
  | literal
  | longBasic
  | longLiteral
deriving DecidableEq, Repr

/-- Controls that only an escape can stand for. -/
def isControl (c : Char) : Bool :=
  (c.toNat < 0x20 && c != '\t' && c != '\n') || c.toNat == 0x7F

/-- The longest run of a character, `current` of them having just passed. -/
def longestRun (q : Char) (current : Nat) : List Char → Nat
  | [] => current
  | c :: cs =>
    if c = q then longestRun q (current + 1) cs else max current (longestRun q 0 cs)

/-- Whether the text has several lines. -/
def isLong (cs : List Char) : Bool := cs.contains '\n'

/-- The form a text is written in. -/
def Form.of (cs : List Char) : Form :=
  let escaping := cs.any isControl
  let backslash := cs.contains '\\'
  let double := longestRun '"' 0 cs
  let single := longestRun '\'' 0 cs
  if !escaping && !backslash && double == 0 && !isLong cs then .basic
  else if !escaping && single == 0 && !isLong cs then .literal
  else if !escaping && !backslash && double ≤ 2 then .longBasic
  else if !escaping && single ≤ 2 then .longLiteral
  else if isLong cs then .longBasic
  else .basic

/-- A character other than a quote or a line feed, in double quotes. -/
def escapeControl (c : Char) : List Char :=
  if c = '\x08' then ['\\', 'b']
  else if c = '\t' then ['\\', 't']
  else if c = '\x0c' then ['\\', 'f']
  else if c = '\r' then ['\\', 'r']
  else if c = '\\' then ['\\', '\\']
  else if c.toNat < 0x20 ∨ c.toNat = 0x7F then '\\' :: 'u' :: Text.upperHex 4 c.toNat
  else [c]

/-- A character between single double-quotes. -/
def escapeBasic (c : Char) : List Char :=
  if c = '"' then ['\\', '"']
  else if c = '\n' then ['\\', 'n']
  else escapeControl c

/-- A text between triple double-quotes, `run` quotes having just passed: every
third quote of a run is escaped. -/
def escapeLong (run : Nat) : List Char → List Char
  | [] => []
  | c :: cs =>
    if c = '"' then
      if run = 2 then '\\' :: '"' :: escapeLong 0 cs else '"' :: escapeLong (run + 1) cs
    else if c = '\n' then '\n' :: escapeLong 0 cs
    else escapeControl c ++ escapeLong 0 cs

/-- The line break after opening quotes. -/
def opening (cs : List Char) : List Char := if isLong cs then ['\n'] else []

/-- A text in a given form. -/
def quoteAs (form : Form) (cs : List Char) : List Char :=
  match form with
  | .basic => '"' :: (cs.flatMap escapeBasic ++ ['"'])
  | .literal => '\'' :: (cs ++ ['\''])
  | .longBasic => ['"', '"', '"'] ++ opening cs ++ escapeLong 0 cs ++ ['"', '"', '"']
  | .longLiteral => ['\'', '\'', '\''] ++ opening cs ++ cs ++ ['\'', '\'', '\'']

/-- A text as a TOML string. -/
def quote (cs : List Char) : List Char := quoteAs (Form.of cs) cs

end SlotWatch.Toml

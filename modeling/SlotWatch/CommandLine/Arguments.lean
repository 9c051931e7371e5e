import SlotWatch.CommandLine.Usage
import SlotWatch.State.Named

/-!
# SlotWatch.CommandLine.Arguments

What command-line words ask for.

1. The words before the command and the words after it are gathered apart; each
   command has options of its own, and `--config` and `--verbose` are for both
   parts.
2. An option takes its value from the same word (`--path=v`, `-p=v`, `-pv`) or from
   the next one.  Short options can be run together (`-vc v`).
3. A value in a word of its own, like the script, is *pending* until the next
   option or the end: only then is it judged (`Gathered.settle`).  So an unknown
   word later on is the first thing to be reported.
4. After `--` no word is an option.
-/

namespace SlotWatch

/-! ## Vocabulary -/

/-- What can be asked for. -/
inductive Verb where
  | kinds
  | simulate
  | config
deriving DecidableEq, Repr

instance : Named Verb where
  all := [.kinds, .simulate, .config]
  name
    | .kinds => "kinds"
    | .simulate => "simulate"
    | .config => "config"

/-- An option without a value. -/
inductive Flag where
  | verbose
  | json
  | system
  | help
  | version
deriving DecidableEq, Repr

/-- Something with a value. -/
inductive Field where
  | config
  | path
  | script
  | grant
deriving DecidableEq, Repr

/-- What an option stands for. -/
inductive Mark where
  | flag (f : Flag)
  | field (f : Field)
deriving DecidableEq, Repr

namespace Mark

/-- The options with long names, before the command or after it. -/
def long? (verb : Option Verb) (name : String) : Option Mark :=
  match verb, name with
  | _, "config" => some (.field .config)
  | _, "verbose" => some (.flag .verbose)
  | _, "help" => some (.flag .help)
  | none, "version" => some (.flag .version)
  | some _, "json" => some (.flag .json)
  | some .simulate, "grant" => some (.field .grant)
  | some .simulate, "system" => some (.flag .system)
  | some .config, "path" => some (.field .path)
  | _, _ => none

/-- The options with short names. -/
def short? (verb : Option Verb) (name : Char) : Option Mark :=
  match verb, name with
  | _, 'c' => some (.field .config)
  | _, 'v' => some (.flag .verbose)
  | _, 'h' => some (.flag .help)
  | none, 'V' => some (.flag .version)
  | some .config, 'p' => some (.field .path)
  | _, _ => none

end Mark

/-! ## Gathering words -/

/-- What the words so far amount to. -/
structure Gathered where
  flags : List Flag := []
  /-- In the order in which they were given. -/
  values : List (Field × String) := []
  /-- What is still to be judged; without a value, the next word may be it. -/
  pending : Option (Field × Option String) := none
deriving DecidableEq, Repr

namespace Gathered

/-- The first value of a field. -/
def value? (g : Gathered) (f : Field) : Option String := g.values.lookup f

/-- Whether the next word may be the value of an option. -/
def awaiting (g : Gathered) : Bool :=
  match g.pending with
  | some (_, none) => true
  | _ => false

/-- Whether a script has been named. -/
def hasScript (g : Gathered) : Bool :=
  (g.value? .script).isSome || g.pending.any (·.1 == .script)

/-- Give a field a value.  Only permissions can be given repeatedly, and all else
is a path, which cannot be empty. -/
def put (f : Field) (value : String) (g : Gathered) : Except Usage Gathered :=
  if f = .grant then .ok { g with values := g.values ++ [(f, value)] }
  else if (g.value? f).isSome then .error .repeated
  else if value = "" then .error .badValue
  else .ok { g with values := g.values ++ [(f, value)] }

/-- Judge what is pending. -/
def settle (g : Gathered) : Except Usage Gathered :=
  match g.pending with
  | none => .ok g
  | some (_, none) => .error .badValue
  | some (f, some value) => put f value { g with pending := none }

/-- Take a flag. -/
def raise (f : Flag) (g : Gathered) : Except Usage Gathered := do
  let g ← g.settle
  if f = .help then .error .help
  else if f = .version then .error .version
  else if f ∈ g.flags then .error .repeated
  else return { g with flags := f :: g.flags }

/-- Take an option that has a value, possibly in the same word. -/
def assign (f : Field) (attached : Option String) (g : Gathered) : Except Usage Gathered := do
  let g ← g.settle
  match attached with
  | some value => put f value g
  | none => return { g with pending := some (f, none) }

/-- Take a long option. -/
def takeLong (verb : Option Verb) (name : String) (attached : Option String) (g : Gathered) :
    Except Usage Gathered :=
  match Mark.long? verb name, attached with
  | none, _ => .error .unknownArgument
  | some (.flag f), none => g.raise f
  | some (.flag _), some _ => .error .surplusValue
  | some (.field f), attached => g.assign f attached

/-- The value that the rest of a word of short options holds. -/
def attachedShort : List Char → Option String
  | [] => none
  | '=' :: value => some (String.ofList value)
  | value => some (String.ofList value)

/-- Take short options that are run together. -/
def takeShort (verb : Option Verb) (g : Gathered) : List Char → Except Usage Gathered
  | [] => .ok g
  | c :: cs =>
    match Mark.short? verb c with
    | none => .error .unknownArgument
    | some (.flag f) => (g.raise f).bind fun g => takeShort verb g cs
    | some (.field f) => g.assign f (attachedShort cs)

/-- Whether a word before the command is the command, or asks for help on one. -/
def summons (word : String) : Bool :=
  word == "help" || (Named.ofName? Verb word).isSome

/-- Take a word that is no option. -/
def takePlain (verb : Option Verb) (trailing : Bool) (g : Gathered) (word : String) :
    Except Usage Gathered :=
  if g.awaiting && !trailing then
    .ok { g with pending := g.pending.map fun (f, _) => (f, some word) }
  else if verb = some .simulate ∧ g.hasScript = false then
    g.settle.map fun g => { g with pending := some (.script, some word) }
  else if verb.isNone && !(trailing && summons word) then .error .unknownCommand
  else .error .unknownArgument

/-- Take a word. -/
def take (verb : Option Verb) (trailing : Bool) (g : Gathered) (word : String) :
    Except Usage Gathered :=
  match trailing, word.toList with
  | false, '-' :: '-' :: option =>
    match option.span (· != '=') with
    | (name, '=' :: value) => g.takeLong verb (String.ofList name) (some (String.ofList value))
    | (name, _) => g.takeLong verb (String.ofList name) none
  | false, '-' :: c :: cs => g.takeShort verb (c :: cs)
  | _, _ => g.takePlain verb trailing word

/-- Gather words.  Before the command the command ends them; it is the first of
the words that are left. -/
def gather (verb : Option Verb) (trailing : Bool) (g : Gathered) :
    List String → Except Usage (Gathered × List String)
  | [] => .ok (g, [])
  | word :: words =>
    if verb.isNone && !trailing && !g.awaiting && summons word then .ok (g, word :: words)
    else if !trailing && word == "--" then gather verb true g words
    else (g.take verb trailing word).bind fun g => gather verb trailing g words

end Gathered

/-! ## Invocations -/

/-- A command with its arguments. -/
inductive Task where
  /-- List the kinds of events. -/
  | kinds (json : Bool)
  /-- Replay a script. -/
  | simulate (script : String) (grants : List String) (system json : Bool)
  /-- Show the configuration, or that in a file. -/
  | config (path : Option String) (json : Bool)
deriving DecidableEq, Repr

/-- What command-line words ask for. -/
structure Invocation where
  /-- The configuration file, if one is named. -/
  config : Option String
  verbose : Bool
  task : Task
deriving DecidableEq, Repr

namespace Gathered

/-- The command with the arguments gathered for it. -/
def task (verb : Verb) (g : Gathered) : Except Usage Task :=
  let json := g.flags.contains .json
  match verb with
  | .kinds => .ok (.kinds json)
  | .simulate =>
    match g.value? .script with
    | none => .error .missingScript
    | some script =>
      let grants := (g.values.filter (·.1 == .grant)).map (·.2)
      .ok (.simulate script grants (g.flags.contains .system) json)
  | .config => .ok (.config (g.value? .path) json)

end Gathered

namespace Invocation

/-- What asking for help on something leads to. -/
def helpOn : List String → Usage
  | [] => .help
  | [word] => if Gathered.summons word then .help else .unknownCommand
  | _ => .unknownCommand

/-- What words without a command lead to. -/
def withoutCommand (g : Gathered) : Usage :=
  if g.flags.isEmpty && g.values.isEmpty then .noWords else .missingCommand

/-- What command-line words ask for.  The words after the command are judged first,
and a configuration file named there counts. -/
def ofWords (words : List String) : Except Usage Invocation := do
  match ← Gathered.gather none false {} words with
  | (outer, []) => .error (withoutCommand (← outer.settle))
  | (outer, word :: words) =>
    match Named.ofName? Verb word with
    | none => .error (helpOn words)
    | some verb =>
      let (inner, _) ← Gathered.gather (some verb) false {} words
      let inner ← inner.settle
      let task ← inner.task verb
      let outer ← outer.settle
      return {
        config := (inner.value? .config).or (outer.value? .config)
        verbose := inner.flags.contains .verbose || outer.flags.contains .verbose
        task }

end Invocation

end SlotWatch

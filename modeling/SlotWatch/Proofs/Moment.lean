import SlotWatch.Bench
import SlotWatch.Switchboard.Run

/-!
# SlotWatch.Proofs.Moment

The boards that a run goes through.  Listeners use the switchboard while publishes
are in progress, so what holds after a run does not say what they find there.

* `Occurs` — the boards on which a callback is called, or a command has just been
  completed, while some `Activity` takes place, at any depth of nesting;
* `Moment` — these boards for a whole run, with the one it starts on.
-/

namespace SlotWatch

/-- Something that takes place on a switchboard. -/
inductive Activity (ε : Type) where
  | command (listener : Option String) (c : Command ε)
  | moves (listener : Option String) (ms : List (Move ε))
  | publish (kind : Kind) (slot : Option Slot) (p : Payload)
  /-- Coming to collected registrations. -/
  | deliver (p : Payload) (rs : List Registration)

namespace Switchboard

variable {σ ε : Type}

/-- `Occurs S react limit a b m`: while activity `a` takes place on `b`, a callback is
called on `m`, or a command has just been completed on it. -/
inductive Occurs (S : Source σ ε) (react : React σ ε) :
    Nat → Activity ε → Switchboard σ ε → Switchboard σ ε → Prop where
  /-- A command has been completed. -/
  | completed (limit : Nat) (l : Option String) (c : Command ε) (b : Switchboard σ ε) :
      Occurs S react limit (.command l c) b (b.obey S (hear S react limit) l c).2
  /-- A command to publish. -/
  | publishing (hc : c.action = .ok (.publish kind slot p))
      (h : Occurs S react limit (.publish kind slot p) b m) :
      Occurs S react limit (.command l c) b m
  /-- An update that is only delivered. -/
  | announcing (hc : c.action = .ok (.update slot p)) (hk : p.kind = .iccAccount)
      (h : Occurs S react limit (.publish .iccAccount none p) b m) :
      Occurs S react limit (.command l c) b m
  /-- An update with news. -/
  | updating (hc : c.action = .ok (.update slot p)) (hk : p.kind ≠ .iccAccount)
      (hs : b.registry.validateSlot p.kind slot = .ok ())
      (hn : (b.report S slot p).1 = some q)
      (h : Occurs S react limit (.publish p.kind (some slot) q) (b.report S slot p).2 m) :
      Occurs S react limit (.command l c) b m
  /-- A publish comes to what it has collected. -/
  | delivering (hp : b.checkPublish kind slot p = .ok ())
      (h : Occurs S react limit
        (.deliver p (b.audience kind (slot.getD b.registry.defaultSlot)))
        (b.launch S kind (slot.getD b.registry.defaultSlot) p) m) :
      Occurs S react limit (.publish kind slot p) b m
  /-- A callback is called. -/
  | called (limit : Nat) (p : Payload) (rs : List Registration)
      (ha : (b.comeTo r rs).1 = true) :
      Occurs S react limit (.deliver p (r :: rs)) b ((b.comeTo r rs).2.hand r p).2
  /-- The listener that is called makes its moves. -/
  | acting (ha : (b.comeTo r rs).1 = true) (hl : ((b.comeTo r rs).2.hand r p).1 = true)
      (h : Occurs S react limit
        (.moves r.callback.listener? (react r p ((b.comeTo r rs).2.hand r p).2))
        ((b.comeTo r rs).2.hand r p).2 m) :
      Occurs S react (limit + 1) (.deliver p (r :: rs)) b m
  /-- One of the registrations still to come to. -/
  | others (h : Occurs S react limit (.deliver p rs)
        (b.turn (hear S react limit) p r rs).2 m) :
      Occurs S react limit (.deliver p (r :: rs)) b m
  /-- The first of some moves. -/
  | move (h : Occurs S react limit (.command l c) b m) :
      Occurs S react limit (.moves l (.command c :: ms)) b m
  /-- One of the further moves. -/
  | moves (h : Occurs S react limit (.moves l ms)
        (b.obey S (hear S react limit) l c).2 m) :
      Occurs S react limit (.moves l (.command c :: ms)) b m

/-- The moments of a run: its start, every call of a callback and every completed
command, by a listener or from outside. -/
inductive Moment (S : Source σ ε) (react : React σ ε) (limit : Nat) (cs : List (Command ε))
    (b : Switchboard σ ε) : Switchboard σ ε → Prop where
  | start : Moment S react limit cs b b
  | during (before : List (Command ε)) (c : Command ε) (after : List (Command ε))
      (hcs : cs = before ++ c :: after)
      (h : Occurs S react limit (.command none c) (run S react limit before b) m) :
      Moment S react limit cs b m

/-! ## runs -/

/-- A run can be interrupted. -/
theorem run_append (S : Source σ ε) (react : React σ ε) (limit : Nat)
    (cs ds : List (Command ε)) (b : Switchboard σ ε) :
    run S react limit (cs ++ ds) b = run S react limit ds (run S react limit cs b) :=
  List.foldl_append

/-- The switchboard after a run is a moment of it. -/
theorem moment_run (S : Source σ ε) (react : React σ ε) (limit : Nat) (cs : List (Command ε))
    (b : Switchboard σ ε) : Moment S react limit cs b (run S react limit cs b) := by
  rcases List.eq_nil_or_concat cs with rfl | ⟨before, c, rfl⟩
  · exact .start
  · rw [List.concat_eq_append, run_append]
    exact .during before c [] rfl (.completed limit none c _)

/-- A moment of a run is one of every longer run. -/
theorem Moment.append {S : Source σ ε} {react : React σ ε} {limit : Nat}
    {cs : List (Command ε)} {b m : Switchboard σ ε} (h : Moment S react limit cs b m)
    (ds : List (Command ε)) : Moment S react limit (cs ++ ds) b m := by
  cases h with
  | start => exact .start
  | during before c after hcs h =>
      refine .during before c (after ++ ds) ?_ h
      rw [hcs, List.append_assoc, List.cons_append]

/-! ## a sample run

A listener that publishes when it is called, and then panics; what it publishes is for
a one-shot. -/

namespace Sample

/-- A bench that grants every request. -/
def bench : Bench := { phone := .ordinary "now", wiring := .dummy }

def settings : SlotSettings := {}

def ask (a : Action Bench.Control) : Command Bench.Control := ⟨"", .ok a⟩

def react : React Bench Bench.Control := fun r _ _ =>
  if r.kind = .voiceMail then
    [.command (ask (.publish .callForwarding none (.callForwarding true))), .panic]
  else []

def registrations : List (Command Bench.Control) :=
  [ask (.on .voiceMail "outer" none .repeating),
    ask (.on .callForwarding "inner" none .oneShot)]

def publication : Command Bench.Control :=
  ask (.publish .voiceMail none (.voiceMail true))

def outer : Registration :=
  { id := 1, kind := .voiceMail, selector := none, observed := 0
    callback := .typed "outer" .voiceMail, mode := .repeating }

def inner : Registration :=
  { id := 2, kind := .callForwarding, selector := none, observed := 0
    callback := .typed "inner" .callForwarding, mode := .oneShot }

/-- Both registrations have been made. -/
def ready : Switchboard Bench Bench.Control :=
  run Bench.source react 2 registrations (fresh settings bench)

/-- A publish has just called the only registration it is for. -/
def calling (r : Registration) (p : Payload) (b : Switchboard Bench Bench.Control) :
    Switchboard Bench Bench.Control :=
  (((b.launch Bench.source r.kind 0 p).comeTo r []).2.hand r p).2

/-- The one-shot is called within the call of the other listener. -/
def nested : Switchboard Bench Bench.Control :=
  calling inner (.callForwarding true) (calling outer (.voiceMail true) ready)

/-- The call within the call is a moment of the run. -/
theorem moment_nested :
    Moment Bench.source react 2 (registrations ++ [publication]) (fresh settings bench) nested := by
  refine .during registrations publication [] rfl ?_
  refine .publishing rfl (.delivering rfl ?_)
  refine .acting (r := outer) (by decide) (by decide) (.move ?_)
  refine .publishing rfl (.delivering rfl ?_)
  exact .called (r := inner) 1 (.callForwarding true) [] (by decide)

end Sample

end Switchboard

end SlotWatch

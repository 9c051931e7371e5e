import SlotWatch.Phone

/-!
# SlotWatch.Bench

A test bench: a source in front of a phone.  It can be told to refuse certain
requests, and it need not forward requests to the phone at all.
-/

namespace SlotWatch

/-- What becomes of a request on the bench. -/
inductive Wiring where
  /-- It goes to the phone, unless it is to be refused. -/
  | phone
  /-- It is granted, unless it is to be refused. -/
  | dummy
  /-- It is granted. -/
  | bypass
deriving DecidableEq, Repr

/-- A phone on the bench. -/
structure Bench where
  phone : Phone
  wiring : Wiring
  /-- The requests to refuse, and why.  Requests go by name; nothing is ever asked by
  a name that is none of theirs. -/
  refusals : List ((String × Feed) × Failure) := []

namespace Bench

/-- Put a request to the phone. -/
def forward (request : Request) (feed : Feed) (b : Bench) : Except Failure Unit × Bench :=
  let (answer, phone) := Phone.source.answer request feed b.phone
  (answer, { b with phone })

/-- Answer a request. -/
def answer (request : Request) (feed : Feed) (b : Bench) : Except Failure Unit × Bench :=
  if b.wiring = .bypass then (.ok (), b)
  else
    match b.refusals.lookup (Named.name request, feed) with
    | some failure => (.error failure, b)
    | none => if b.wiring = .phone then b.forward request feed else (.ok (), b)

/-- What can be done on the bench. -/
inductive Control where
  | phone (c : Phone.Control)
  /-- Refuse a request from now on. -/
  | refuse (request : String) (feed : Feed) (failure : Failure)
  /-- Do not refuse it any longer. -/
  | allow (request : String) (feed : Feed)

/-- The refusals other than that of a request. -/
def others (request : String) (feed : Feed) (b : Bench) : List ((String × Feed) × Failure) :=
  b.refusals.filter fun refusal => refusal.1 != (request, feed)

/-- Do something on the bench. -/
def control (b : Bench) : Control → Outcome σ × Bench
  | .phone c =>
    let (outcome, phone) := b.phone.control c
    (outcome, { b with phone })
  | .refuse request feed failure =>
    (.ok .done, { b with refusals := ((request, feed), failure) :: b.others request feed })
  | .allow request feed =>
    (.ok (.flag (b.refusals.lookup (request, feed)).isSome),
      { b with refusals := b.others request feed })

/-- The bench as a source.  States are the business of the phone. -/
def source : Source Bench Control where
  start := answer .start
  stop := answer .stop
  report slot q b :=
    let (news, phone) := b.phone.report slot q
    (news, { b with phone })
  act c b := b.control c

end Bench

end SlotWatch

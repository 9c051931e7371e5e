import SlotWatch.Switchboard.Basic

/-!
# SlotWatch.Phone

A source of telephony state inside the process.  It stands between the phone and
one application.

1. It refuses to observe what the application has no access to, and refuses
   everything while the connection to its service is lost.
2. It remembers the last state of every slot that has reported any.
3. Call numbers are for applications that may read the call log; others are told
   of calls without them.
4. A data connection that is reported again unchanged is no news.
-/

namespace SlotWatch

open State

/-! ## What is known of a slot -/

/-- The last known state of a slot. -/
structure SlotState where
  network : Option Network := none
  signals : Option (List Signal) := none
  cells : Option (List Cell) := none
  dataConnection : Option DataConnection := none
  dataFlow : Option DataFlow := none
  call : Option Call := none
  callForwarding : Option Bool := none
  voiceMail : Option Bool := none
  card : Option Card := none
  /-- When the slot last reported anything. -/
  updatedAt : Option String := none
deriving DecidableEq, Repr

namespace SlotState

/-- The state after a report. -/
def put (p : Payload) (s : SlotState) : SlotState :=
  match p with
  | .networkState n => { s with network := some n }
  | .signalInfo ss => { s with signals := some ss }
  | .cellInfo cs => { s with cells := some cs }
  | .dataConnection d => { s with dataConnection := some d }
  | .dataFlow f => { s with dataFlow := some f }
  | .callState c => { s with call := some c }
  | .callForwarding on => { s with callForwarding := some on }
  | .voiceMail waiting => { s with voiceMail := some waiting }
  | .simState c => { s with card := some c }
  | .iccAccount => s

/-- The JSON form; what is not known is `null`. -/
def toJson (s : SlotState) : Json :=
  .record [
    ("networkState", Wire.write s.network),
    ("signalInfo", Wire.write s.signals),
    ("cellInfo", Wire.write s.cells),
    ("dataConnection", Wire.write s.dataConnection),
    ("dataFlow", Wire.write s.dataFlow),
    ("callState", Wire.write s.call),
    ("cfuIndicator", Wire.write s.callForwarding),
    ("voiceMailIndicator", Wire.write s.voiceMail),
    ("simState", Wire.write s.card),
    ("updatedAt", Wire.write s.updatedAt)]

end SlotState

/-- The states of slots, in ascending order of the slots. -/
abbrev Cache := List (Slot × SlotState)

namespace Cache

/-- Change the state of a slot; a slot without a state has nothing known of it. -/
def alter (slot : Slot) (f : SlotState → SlotState) : Cache → Cache
  | [] => [(slot, f {})]
  | (t, s) :: rest =>
    if slot = t then (t, f s) :: rest
    else if slot < t then (slot, f {}) :: (t, s) :: rest
    else (t, s) :: alter slot f rest

/-- The JSON form, an object with a member for each slot. -/
def toJson (c : Cache) : Json :=
  .record (c.map fun (slot, s) => (Text.number slot.toInt, s.toJson))

end Cache

/-! ## The source -/

/-- A phone, as one application sees it. -/
structure Phone where
  /-- The permissions that the application holds. -/
  granted : List String := []
  /-- Whether it is a system application. -/
  systemApp : Bool := false
  /-- Whether the service can be reached. -/
  connected : Bool := true
  observing : List Feed := []
  cache : Cache := []
  /-- The present time, as it is written. -/
  clock : String
deriving Repr

namespace Phone

/-- Whether the application holds a permission. -/
def holds (p : Phone) (permission : String) : Bool :=
  p.granted.contains permission

/-- Give the application a permission. -/
def grant (permission : String) (p : Phone) : Phone :=
  if p.holds permission then p else { p with granted := permission :: p.granted }

/-- Take a permission away. -/
def revoke (permission : String) (p : Phone) : Phone :=
  { p with granted := p.granted.filter (· != permission) }

/-- A phone seen by an application without permissions. -/
def ordinary (clock : String) : Phone := { clock }

/-- A phone seen by an application with these permissions. -/
def withGrants (clock : String) (systemApp : Bool) (grants : List String) : Phone :=
  grants.foldl (fun p permission => p.grant permission) { clock, systemApp }

/-- A phone seen by a system application with every permission. -/
def privileged (clock : String) : Phone :=
  { clock
    systemApp := true
    granted := (Kind.all.flatMap Kind.permissions).eraseDups ++ [Permission.readCallLog] }

/-- Whether the application has access to a kind. -/
def access (p : Phone) (kind : Kind) : Except Failure Unit :=
  if kind.systemOnly && !p.systemApp then .error (.reservedForSystem kind)
  else
    match kind.permissions.find? (fun permission => !p.holds permission) with
    | some permission => .error (.missingPermission permission)
    | none => .ok ()

/-- Start observing a feed. -/
def start (feed : Feed) (p : Phone) : Except Failure Unit × Phone :=
  if !p.connected then (.error .serviceUnavailable, p)
  else
    match p.access feed.2 with
    | .error e => (.error e, p)
    | .ok () => (.ok (), { p with observing := feed.insert p.observing })

/-- Stop observing a feed. -/
def stop (feed : Feed) (p : Phone) : Except Failure Unit × Phone :=
  if !p.connected then (.error .serviceUnavailable, p)
  else (.ok (), { p with observing := p.observing.filter (· != feed) })

/-- What is known of a slot. -/
def state (p : Phone) (slot : Slot) : SlotState :=
  (p.cache.lookup slot).getD {}

/-- Remember a report. -/
def remember (slot : Slot) (q : Payload) (p : Phone) : Phone :=
  { p with
    cache := Cache.alter slot (fun s => { s.put q with updatedAt := some p.clock }) p.cache }

/-- What the application may be told of a report. -/
def disclose (p : Phone) : Payload → Payload
  | .callState c => .callState (if p.holds Permission.readCallLog then c else c.masked)
  | q => q

/-- Whether a report says nothing new. -/
def repeats (p : Phone) (slot : Slot) : Payload → Bool
  | .dataConnection d => (p.state slot).dataConnection == some d
  | _ => false

/-- Take in a report; the result is what listeners are told. -/
def report (slot : Slot) (q : Payload) (p : Phone) : Option Payload × Phone :=
  if p.repeats slot q then (none, p) else (some (p.disclose q), p.remember slot q)

/-! ## Controls -/

/-- What can be done with a phone beyond reporting states. -/
inductive Control where
  | grant (permission : String)
  | revoke (permission : String)
  | holds (permission : String)
  | systemApp (value : Bool)
  | connected (value : Bool)
  | request (request : Request) (feed : Feed)
  | observes (feed : Feed)
deriving DecidableEq, Repr

/-- Do something with a phone. -/
def control (p : Phone) : Control → Outcome σ × Phone
  | .grant permission => (.ok .done, p.grant permission)
  | .revoke permission => (.ok .done, p.revoke permission)
  | .holds permission => (.ok (.flag (p.holds permission)), p)
  | .systemApp value => (.ok .done, { p with systemApp := value })
  | .connected value => (.ok .done, { p with connected := value })
  | .request .start feed => ((p.start feed).1.map fun () => .done, (p.start feed).2)
  | .request .stop feed => ((p.stop feed).1.map fun () => .done, (p.stop feed).2)
  | .observes feed => (.ok (.flag (p.observing.contains feed)), p)

/-- The phone as a source. -/
def source : Source Phone Control where
  start := start
  stop := stop
  report := report
  act c p := p.control c

end Phone

end SlotWatch

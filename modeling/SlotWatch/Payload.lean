import SlotWatch.Kind
import SlotWatch.State.Record

/-!
# SlotWatch.Payload

What an event carries.  Every kind has exactly one shape of payload:
`Kind.Value` is the type of what a listener of one kind receives, `Payload` the
union over all kinds, and `Payload.wrap` and `Payload.extract?` go between them.

The JSON form of a payload is tagged: `type` holds the kind and `data` the
value, in either order.  Account changes carry no value.  An array of tag and
value is a form too; there the tag is the bare name of the kind or, in a
buffered value, its rank.
-/

namespace SlotWatch

open State

/-- What an event of some kind carries. -/
inductive Payload where
  | networkState (network : Network)
  | signalInfo (signals : List Signal)
  | cellInfo (cells : List Cell)
  | dataConnection (connection : DataConnection)
  | dataFlow (flow : DataFlow)
  | callState (call : Call)
  | callForwarding (on : Bool)
  | voiceMail (waiting : Bool)
  | simState (card : Card)
  | iccAccount
deriving DecidableEq, Repr

/-- What a listener of one kind receives. -/
abbrev Kind.Value : Kind → Type
  | .networkState => Network
  | .signalInfo => List Signal
  | .cellInfo => List Cell
  | .dataConnection => DataConnection
  | .dataFlow => DataFlow
  | .callState => Call
  | .callForwarding => Bool
  | .voiceMail => Bool
  | .simState => Card
  | .iccAccount => Unit

namespace Payload

/-- The only kind of event that carries the payload. -/
def kind : Payload → Kind
  | networkState _ => .networkState
  | signalInfo _ => .signalInfo
  | cellInfo _ => .cellInfo
  | dataConnection _ => .dataConnection
  | dataFlow _ => .dataFlow
  | callState _ => .callState
  | callForwarding _ => .callForwarding
  | voiceMail _ => .voiceMail
  | simState _ => .simState
  | iccAccount => .iccAccount

/-- The payload of a value. -/
def wrap : (k : Kind) → k.Value → Payload
  | .networkState, n => networkState n
  | .signalInfo, ss => signalInfo ss
  | .cellInfo, cs => cellInfo cs
  | .dataConnection, d => dataConnection d
  | .dataFlow, f => dataFlow f
  | .callState, c => callState c
  | .callForwarding, on => callForwarding on
  | .voiceMail, waiting => voiceMail waiting
  | .simState, c => simState c
  | .iccAccount, () => iccAccount

/-- The value of a payload, for listeners of one kind. -/
def extract? : (k : Kind) → Payload → Option k.Value
  | .networkState, networkState n => some n
  | .signalInfo, signalInfo ss => some ss
  | .cellInfo, cellInfo cs => some cs
  | .dataConnection, dataConnection d => some d
  | .dataFlow, dataFlow f => some f
  | .callState, callState c => some c
  | .callForwarding, callForwarding on => some on
  | .voiceMail, voiceMail waiting => some waiting
  | .simState, simState c => some c
  | .iccAccount, iccAccount => some ()
  | _, _ => none

/-! ## JSON form -/

/-- The value of the payload in JSON, `null` where there is none. -/
def data : Payload → Json
  | networkState n => Wire.write n
  | signalInfo ss => Wire.write ss
  | cellInfo cs => Wire.write cs
  | dataConnection d => Wire.write d
  | dataFlow f => Wire.write f
  | callState c => Wire.write c
  | callForwarding on => Wire.write on
  | voiceMail waiting => Wire.write waiting
  | simState c => Wire.write c
  | iccAccount => .null

/-- The payload of a kind, read from the JSON of its value. -/
def ofData? (m : Json.Manner) (k : Kind) (v : Json) : Option Payload :=
  match k with
  | .networkState => (Wire.read m v).map networkState
  | .signalInfo => (Wire.read m v).map signalInfo
  | .cellInfo => (Wire.read m v).map cellInfo
  | .dataConnection => (Wire.read m v).map dataConnection
  | .dataFlow => (Wire.read m v).map dataFlow
  | .callState => (Wire.read m v).map callState
  | .callForwarding => (Wire.read m v).map callForwarding
  | .voiceMail => (Wire.read m v).map voiceMail
  | .simState => (Wire.read m v).map simState
  | .iccAccount => match v with
    | .null => some iccAccount
    | _ => none

/-- The first of the two relevant members of an object, whichever it is. -/
def firstTag? : List (Option String × Json) → Option String
  | [] => none
  | (k, _) :: ms => if k == some "type" || k == some "data" then k else firstTag? ms

/-- Read a payload from the members of an object.  A value that comes before
its kind is known is buffered. -/
def ofMembers? (m : Json.Manner) (ms : List (Option String × Json)) : Option Payload :=
  match Json.fields? ["type", "data"] (.object ms) with
  | some [some type, some value] => do
    if firstTag? ms = some "data" then
      let value ← Json.buffer m.inside value
      let k ← Wire.read m.inside type
      ofData? .buffered k value
    else
      let k ← Wire.read m.inside type
      ofData? m.inside k value
  | some [some type, none] => do
    let k ← Wire.read m.inside type
    if k = Kind.iccAccount then some iccAccount else none
  | _ => none

/-- The kind a tag at the front of an array stands for. -/
def arrayTag? (m : Json.Manner) : Json → Option Kind
  | .string s => s.bind (Named.ofName? Kind)
  | .number n =>
    if m = .buffered then do
      let rank ← n.toInt?
      if 0 ≤ rank then Kind.all[rank.toNat]? else none
    else none
  | _ => none

instance : Wire Payload where
  write
    | .iccAccount => .record [("type", Wire.write Kind.iccAccount)]
    | p => .record [("type", Wire.write p.kind), ("data", p.data)]
  read
    | m, .object ms => ofMembers? m ms
    | m, .array [tag, value] => do
      let k ← arrayTag? m tag
      ofData? m.inside k value
    | _, _ => none

end Payload

end SlotWatch

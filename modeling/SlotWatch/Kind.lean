import SlotWatch.State.Named

/-!
# SlotWatch.Kind

The kinds of events that listeners can observe.  A kind has a wire name, a bit
in the observer mask, the permissions an application needs to observe it, and a
range of slots: listeners of every kind but one may select a slot.
-/

namespace SlotWatch

/-- A kind of event.  The order of the constructors is the order in which kinds
are listed, and the order in which several of them are started or stopped. -/
inductive Kind where
  | networkState
  | signalInfo
  | cellInfo
  | dataConnection
  | dataFlow
  | callState
  | callForwarding
  | voiceMail
  | simState
  | iccAccount
deriving DecidableEq, Repr

namespace Kind

/-- Wire names are stable: scripts and applications register by them. -/
instance : Named Kind where
  all := [.networkState, .signalInfo, .cellInfo, .dataConnection, .dataFlow, .callState,
    .callForwarding, .voiceMail, .simState, .iccAccount]
  name
    | .networkState => "networkStateChange"
    | .signalInfo => "signalInfoChange"
    | .cellInfo => "cellInfoChange"
    | .dataConnection => "cellularDataConnectionStateChange"
    | .dataFlow => "cellularDataFlowChange"
    | .callState => "callStateChange"
    | .callForwarding => "cfuIndicatorChange"
    | .voiceMail => "voiceMailMsgIndicatorChange"
    | .simState => "simStateChange"
    | .iccAccount => "iccAccountInfoChange"

/-- All kinds, in order. -/
def all : List Kind := Named.all

/-- Wire name of the kind. -/
def name (k : Kind) : String := Named.name k

/-- Position of the kind in the order of kinds. -/
def rank : Kind → Nat
  | networkState => 0
  | signalInfo => 1
  | cellInfo => 2
  | dataConnection => 3
  | dataFlow => 4
  | callState => 5
  | callForwarding => 6
  | voiceMail => 7
  | simState => 8
  | iccAccount => 9

/-- The bit of the kind in the observer mask. -/
def mask : Kind → Nat
  | networkState => 0x001
  | callState => 0x004
  | cellInfo => 0x008
  | signalInfo => 0x010
  | simState => 0x020
  | dataConnection => 0x040
  | dataFlow => 0x080
  | callForwarding => 0x100
  | voiceMail => 0x200
  | iccAccount => 0x400

end Kind

/-! ## Permissions -/

namespace Permission

def getNetworkInfo : String := "ohos.permission.GET_NETWORK_INFO"
def location : String := "ohos.permission.LOCATION"
def approximateLocation : String := "ohos.permission.APPROXIMATELY_LOCATION"
def getTelephonyState : String := "ohos.permission.GET_TELEPHONY_STATE"

/-- Needed to see the numbers of calls; no kind requires it. -/
def readCallLog : String := "ohos.permission.READ_CALL_LOG"

end Permission

namespace Kind

/-- Permissions an application must hold to observe the kind, in the order in
which they are checked. -/
def permissions : Kind → List String
  | networkState => [Permission.getNetworkInfo]
  | cellInfo => [Permission.location, Permission.approximateLocation]
  | callForwarding | voiceMail => [Permission.getTelephonyState]
  | _ => []

/-- Whether only system applications may observe the kind. -/
def systemOnly : Kind → Bool
  | cellInfo | callForwarding | voiceMail => true
  | _ => false

/-! ## Slots -/

/-- Whether a listener of the kind may select a slot. -/
def selectable : Kind → Bool
  | iccAccount => false
  | _ => true

/-- The lowest slot of the kind.  Calls that belong to no card are reported on
slot -1. -/
def minSlot : Kind → Int32
  | callState => -1
  | _ => 0

end Kind

/-- A card slot. -/
abbrev Slot := Int32

/-- What a source observes: a kind on a slot. -/
abbrev Feed := Slot × Kind

namespace Feed

/-- Feeds are ordered by slot, then by kind. -/
def precedes (a b : Feed) : Bool :=
  a.1 < b.1 || (a.1 == b.1 && a.2.rank < b.2.rank)

/-- Insert into an ascending list without repetitions. -/
def insert (a : Feed) : List Feed → List Feed
  | [] => [a]
  | b :: bs =>
    if a = b then b :: bs
    else if a.precedes b then a :: b :: bs
    else b :: insert a bs

/-- The feeds of a list in ascending order, each once. -/
def ascending (feeds : List Feed) : List Feed :=
  feeds.foldl (fun sorted a => insert a sorted) []

end Feed

end SlotWatch

import SlotWatch.State.Code

/-!
# SlotWatch.State.Record

The records in which telephony state is reported, with their JSON forms.  Each
record lists its fields once, in the order in which they are written; an array
of the field values in that order is a form of the record too.
-/

namespace SlotWatch.State

/-! ## Signal and cells -/

/-- One signal measurement. -/
structure Signal where
  network : NetworkType
  level : Int32
  dBm : Int32
deriving DecidableEq, Repr

namespace Signal

/-- The measurement a native service reports in raw numbers. -/
def ofRaw (network level dBm : Int32) : Signal :=
  ⟨Coded.ofCode network, level, dBm⟩

/-- Field names in writing order. -/
def fieldNames : List String := ["signalType", "signalLevel", "dBm"]

instance : Wire Signal where
  write s := .record [
    ("signalType", Wire.write s.network),
    ("signalLevel", Wire.write s.level),
    ("dBm", Wire.write s.dBm)]
  read m v := match Json.fields? fieldNames v with
    | some [some network, some level, some dBm] => do
      return ⟨← Wire.read m.inside network, ← Wire.read m.inside level, ← Wire.read m.inside dBm⟩
    | _ => none

end Signal

/-- One observed cell. -/
structure Cell where
  network : NetworkType
  signal : Signal
deriving DecidableEq, Repr

namespace Cell

/-- The cell a native service reports with a raw network type. -/
def ofRaw (network : Int32) (signal : Signal) : Cell :=
  ⟨Coded.ofCode network, signal⟩

/-- Field names in writing order. -/
def fieldNames : List String := ["networkType", "signalInformation"]

instance : Wire Cell where
  write c := .record [
    ("networkType", Wire.write c.network),
    ("signalInformation", Wire.write c.signal)]
  read m v := match Json.fields? fieldNames v with
    | some [some network, some signal] => do
      return ⟨← Wire.read m.inside network, ← Wire.read m.inside signal⟩
    | _ => none

end Cell

/-! ## Network -/

/-- The serving network and its operator.  A phone that has reported nothing
has no service. -/
structure Network where
  longName : String := ""
  shortName : String := ""
  plmn : String := ""
  roaming : Bool := false
  service : ServiceState := .noService
  technology : RadioTechnology := .unknown
  nsa : NsaState := .notSupported
  emergency : Bool := false
deriving DecidableEq, Repr

namespace Network

/-- Field names in writing order. -/
def fieldNames : List String :=
  ["longOperatorName", "shortOperatorName", "plmnNumeric", "isRoaming", "regState", "cfgTech",
    "nsaState", "isEmergency"]

instance : Wire Network where
  write n := .record [
    ("longOperatorName", Wire.write n.longName),
    ("shortOperatorName", Wire.write n.shortName),
    ("plmnNumeric", Wire.write n.plmn),
    ("isRoaming", Wire.write n.roaming),
    ("regState", Wire.write n.service),
    ("cfgTech", Wire.write n.technology),
    ("nsaState", Wire.write n.nsa),
    ("isEmergency", Wire.write n.emergency)]
  read m v := match Json.fields? fieldNames v with
    | some [some longName, some shortName, some plmn, some roaming, some service,
        some technology, some nsa, some emergency] => do
      return {
        longName := ← Wire.read m.inside longName
        shortName := ← Wire.read m.inside shortName
        plmn := ← Wire.read m.inside plmn
        roaming := ← Wire.read m.inside roaming
        service := ← Wire.read m.inside service
        technology := ← Wire.read m.inside technology
        nsa := ← Wire.read m.inside nsa
        emergency := ← Wire.read m.inside emergency }
    | _ => none

end Network

/-! ## Data connection -/

/-- The data connection and the technology it runs on. -/
structure DataConnection where
  state : ConnectState
  network : RadioTechnology
deriving DecidableEq, Repr

namespace DataConnection

/-- The data connection a native service reports in raw numbers. -/
def ofRaw (state network : Int32) : DataConnection :=
  ⟨Coded.ofCode state, Coded.ofCode network⟩

/-- Field names in writing order. -/
def fieldNames : List String := ["state", "network"]

instance : Wire DataConnection where
  write d := .record [("state", Wire.write d.state), ("network", Wire.write d.network)]
  read m v := match Json.fields? fieldNames v with
    | some [some state, some network] => do
      return ⟨← Wire.read m.inside state, ← Wire.read m.inside network⟩
    | _ => none

end DataConnection

/-! ## Calls -/

/-- The call state of a slot and the number of the other party. -/
structure Call where
  state : CallState
  number : String
deriving DecidableEq, Repr

namespace Call

/-- The call without its number, for those who may not read the call log. -/
def masked (c : Call) : Call :=
  { c with number := "" }

/-- Field names in writing order. -/
def fieldNames : List String := ["state", "number"]

instance : Wire Call where
  write c := .record [("state", Wire.write c.state), ("number", Wire.write c.number)]
  read m v := match Json.fields? fieldNames v with
    | some [some state, some number] => do
      return ⟨← Wire.read m.inside state, ← Wire.read m.inside number⟩
    | _ => none

end Call

/-! ## Cards -/

/-- The card in a slot. -/
structure Card where
  type : CardType
  state : SimState
  lock : LockReason
deriving DecidableEq, Repr

namespace Card

/-- The card a native service reports in raw numbers. -/
def ofRaw (type state lock : Int32) : Card :=
  ⟨Coded.ofCode type, Coded.ofCode state, Coded.ofCode lock⟩

/-- Field names in writing order. -/
def fieldNames : List String := ["type", "state", "reason"]

instance : Wire Card where
  write c := .record [
    ("type", Wire.write c.type),
    ("state", Wire.write c.state),
    ("reason", Wire.write c.lock)]
  read m v := match Json.fields? fieldNames v with
    | some [some type, some state, some lock] => do
      return ⟨← Wire.read m.inside type, ← Wire.read m.inside state, ← Wire.read m.inside lock⟩
    | _ => none

end Card

end SlotWatch.State

import SlotWatch.State.Named

/-!
# SlotWatch.State.Code

The enumerations in which telephony state is reported, with their wire names
and raw codes.  Every raw number means something: a number that is no code is
read as the enumeration's own value for "not known".
-/

namespace SlotWatch.State

/-! ## NetworkType -/

/-- Network type reported with signal and cell measurements. -/
inductive NetworkType where
  | unknown
  | gsm
  | cdma
  | wcdma
  | tdscdma
  | lte
  | nr
deriving DecidableEq, Repr

instance : Coded NetworkType where
  all := [.unknown, .gsm, .cdma, .wcdma, .tdscdma, .lte, .nr]
  name
    | .unknown => "UNKNOWN"
    | .gsm => "GSM"
    | .cdma => "CDMA"
    | .wcdma => "WCDMA"
    | .tdscdma => "TDSCDMA"
    | .lte => "LTE"
    | .nr => "NR"
  code
    | .unknown => 0
    | .gsm => 1
    | .cdma => 2
    | .wcdma => 3
    | .tdscdma => 4
    | .lte => 5
    | .nr => 6
  fallback := .unknown

/-! ## RadioTechnology -/

/-- Radio access technology of a connection. -/
inductive RadioTechnology where
  | unknown
  | gsm
  | oneXRtt
  | wcdma
  | hspa
  | hspap
  | tdScdma
  | evdo
  | ehrpd
  | lte
  | lteCa
  | iwlan
  | nr
deriving DecidableEq, Repr

instance : Coded RadioTechnology where
  all := [.unknown, .gsm, .oneXRtt, .wcdma, .hspa, .hspap, .tdScdma, .evdo, .ehrpd, .lte, .lteCa,
    .iwlan, .nr]
  name
    | .unknown => "UNKNOWN"
    | .gsm => "GSM"
    | .oneXRtt => "1XRTT"
    | .wcdma => "WCDMA"
    | .hspa => "HSPA"
    | .hspap => "HSPAP"
    | .tdScdma => "TD_SCDMA"
    | .evdo => "EVDO"
    | .ehrpd => "EHRPD"
    | .lte => "LTE"
    | .lteCa => "LTE_CA"
    | .iwlan => "IWLAN"
    | .nr => "NR"
  code
    | .unknown => 0
    | .gsm => 1
    | .oneXRtt => 2
    | .wcdma => 3
    | .hspa => 4
    | .hspap => 5
    | .tdScdma => 6
    | .evdo => 7
    | .ehrpd => 8
    | .lte => 9
    | .lteCa => 10
    | .iwlan => 11
    | .nr => 12
  fallback := .unknown

/-! ## ServiceState -/

/-- Registration state of the serving network. -/
inductive ServiceState where
  | noService
  | inService
  | emergencyCallOnly
  | powerOff
deriving DecidableEq, Repr

instance : Coded ServiceState where
  all := [.noService, .inService, .emergencyCallOnly, .powerOff]
  name
    | .noService => "NO_SERVICE"
    | .inService => "IN_SERVICE"
    | .emergencyCallOnly => "EMERGENCY_CALL_ONLY"
    | .powerOff => "POWER_OFF"
  code
    | .noService => 0
    | .inService => 1
    | .emergencyCallOnly => 2
    | .powerOff => 3
  fallback := .noService

/-! ## NsaState -/

/-- Attachment state of a non-standalone 5G network. -/
inductive NsaState where
  | notSupported
  | noDetect
  | connectedDetect
  | idleDetect
  | dualConnected
  | saAttached
deriving DecidableEq, Repr

instance : Coded NsaState where
  all := [.notSupported, .noDetect, .connectedDetect, .idleDetect, .dualConnected, .saAttached]
  name
    | .notSupported => "NOT_SUPPORT"
    | .noDetect => "NO_DETECT"
    | .connectedDetect => "CONNECTED_DETECT"
    | .idleDetect => "IDLE_DETECT"
    | .dualConnected => "DUAL_CONNECTED"
    | .saAttached => "SA_ATTACHED"
  code
    | .notSupported => 1
    | .noDetect => 2
    | .connectedDetect => 3
    | .idleDetect => 4
    | .dualConnected => 5
    | .saAttached => 6
  fallback := .notSupported

/-! ## CallState -/

/-- State of the calls of a slot, as listeners see it. -/
inductive CallState where
  | unknown
  | idle
  | ringing
  | offHook
  | answered
deriving DecidableEq, Repr

instance : Coded CallState where
  all := [.unknown, .idle, .ringing, .offHook, .answered]
  name
    | .unknown => "UNKNOWN"
    | .idle => "IDLE"
    | .ringing => "RINGING"
    | .offHook => "OFFHOOK"
    | .answered => "ANSWERED"
  code
    | .unknown => -1
    | .idle => 0
    | .ringing => 1
    | .offHook => 2
    | .answered => 3
  fallback := .unknown

/-! ## CallStatus -/

/-- Status of a single call.  A number that is no code is the status
of no call, so `Coded.ofCode?` is the way in; `idle` is the fallback by
convention only. -/
inductive CallStatus where
  | active
  | holding
  | dialing
  | alerting
  | incoming
  | waiting
  | disconnected
  | disconnecting
  | idle
deriving DecidableEq, Repr

instance : Coded CallStatus where
  all := [.active, .holding, .dialing, .alerting, .incoming, .waiting, .disconnected,
    .disconnecting, .idle]
  name
    | .active => "ACTIVE"
    | .holding => "HOLDING"
    | .dialing => "DIALING"
    | .alerting => "ALERTING"
    | .incoming => "INCOMING"
    | .waiting => "WAITING"
    | .disconnected => "DISCONNECTED"
    | .disconnecting => "DISCONNECTING"
    | .idle => "IDLE"
  code
    | .active => 0
    | .holding => 1
    | .dialing => 2
    | .alerting => 3
    | .incoming => 4
    | .waiting => 5
    | .disconnected => 6
    | .disconnecting => 7
    | .idle => 8
  fallback := .idle

/-- What listeners see of a single call, given its status; a call without a
known status is in no known state. -/
def CallState.ofStatus : Option CallStatus → CallState
  | none => .unknown
  | some .active | some .holding | some .dialing | some .alerting | some .disconnecting => .offHook
  | some .waiting | some .incoming => .ringing
  | some .disconnected | some .idle => .idle

/-! ## ConnectState -/

/-- State of the cellular data connection. -/
inductive ConnectState where
  | unknown
  | disconnected
  | connecting
  | connected
  | suspended
deriving DecidableEq, Repr

instance : Coded ConnectState where
  all := [.unknown, .disconnected, .connecting, .connected, .suspended]
  name
    | .unknown => "UNKNOWN"
    | .disconnected => "DISCONNECTED"
    | .connecting => "CONNECTING"
    | .connected => "CONNECTED"
    | .suspended => "SUSPENDED"
  code
    | .unknown => -1
    | .disconnected => 0
    | .connecting => 1
    | .connected => 2
    | .suspended => 3
  fallback := .unknown

/-! ## DataFlow -/

/-- Direction of the traffic on the data connection. -/
inductive DataFlow where
  | idle
  | down
  | up
  | upDown
  | dormant
deriving DecidableEq, Repr

instance : Coded DataFlow where
  all := [.idle, .down, .up, .upDown, .dormant]
  name
    | .idle => "NONE"
    | .down => "DOWN"
    | .up => "UP"
    | .upDown => "UP_DOWN"
    | .dormant => "DORMANT"
  code
    | .idle => 0
    | .down => 1
    | .up => 2
    | .upDown => 3
    | .dormant => 4
  fallback := .idle

/-! ## CardType -/

/-- Type of the card in a slot. -/
inductive CardType where
  | unknown
  | singleModeSim
  | singleModeUsim
  | singleModeRuim
  | dualModeCg
  | ctNationalRoaming
  | cuDualMode
  | dualModeTelecomLte
  | dualModeUg
  | singleModeIsim
deriving DecidableEq, Repr

instance : Coded CardType where
  all := [.unknown, .singleModeSim, .singleModeUsim, .singleModeRuim, .dualModeCg,
    .ctNationalRoaming, .cuDualMode, .dualModeTelecomLte, .dualModeUg, .singleModeIsim]
  name
    | .unknown => "UNKNOWN_CARD"
    | .singleModeSim => "SINGLE_MODE_SIM_CARD"
    | .singleModeUsim => "SINGLE_MODE_USIM_CARD"
    | .singleModeRuim => "SINGLE_MODE_RUIM_CARD"
    | .dualModeCg => "DUAL_MODE_CG_CARD"
    | .ctNationalRoaming => "CT_NATIONAL_ROAMING_CARD"
    | .cuDualMode => "CU_DUAL_MODE_CARD"
    | .dualModeTelecomLte => "DUAL_MODE_TELECOM_LTE_CARD"
    | .dualModeUg => "DUAL_MODE_UG_CARD"
    | .singleModeIsim => "SINGLE_MODE_ISIM_CARD"
  code
    | .unknown => -1
    | .singleModeSim => 10
    | .singleModeUsim => 20
    | .singleModeRuim => 30
    | .dualModeCg => 40
    | .ctNationalRoaming => 41
    | .cuDualMode => 42
    | .dualModeTelecomLte => 43
    | .dualModeUg => 50
    | .singleModeIsim => 60
  fallback := .unknown

/-! ## SimState -/

/-- Life cycle of a SIM card. -/
inductive SimState where
  | unknown
  | notPresent
  | locked
  | notReady
  | ready
  | loaded
deriving DecidableEq, Repr

instance : Coded SimState where
  all := [.unknown, .notPresent, .locked, .notReady, .ready, .loaded]
  name
    | .unknown => "SIM_STATE_UNKNOWN"
    | .notPresent => "SIM_STATE_NOT_PRESENT"
    | .locked => "SIM_STATE_LOCKED"
    | .notReady => "SIM_STATE_NOT_READY"
    | .ready => "SIM_STATE_READY"
    | .loaded => "SIM_STATE_LOADED"
  code
    | .unknown => 0
    | .notPresent => 1
    | .locked => 2
    | .notReady => 3
    | .ready => 4
    | .loaded => 5
  fallback := .unknown

/-! ## LockReason -/

/-- Why a SIM card is locked: which personalisation asks for which code. -/
inductive LockReason where
  | noLock
  | pin
  | puk
  | networkPin
  | networkPuk
  | subsetPin
  | subsetPuk
  | providerPin
  | providerPuk
  | corporatePin
  | corporatePuk
  | cardPin
  | cardPuk
deriving DecidableEq, Repr

instance : Coded LockReason where
  all := [.noLock, .pin, .puk, .networkPin, .networkPuk, .subsetPin, .subsetPuk, .providerPin,
    .providerPuk, .corporatePin, .corporatePuk, .cardPin, .cardPuk]
  name
    | .noLock => "SIM_NONE"
    | .pin => "SIM_PIN"
    | .puk => "SIM_PUK"
    | .networkPin => "SIM_PN_PIN"
    | .networkPuk => "SIM_PN_PUK"
    | .subsetPin => "SIM_PU_PIN"
    | .subsetPuk => "SIM_PU_PUK"
    | .providerPin => "SIM_PP_PIN"
    | .providerPuk => "SIM_PP_PUK"
    | .corporatePin => "SIM_PC_PIN"
    | .corporatePuk => "SIM_PC_PUK"
    | .cardPin => "SIM_SIM_PIN"
    | .cardPuk => "SIM_SIM_PUK"
  code
    | .noLock => 0
    | .pin => 1
    | .puk => 2
    | .networkPin => 3
    | .networkPuk => 4
    | .subsetPin => 5
    | .subsetPuk => 6
    | .providerPin => 7
    | .providerPuk => 8
    | .corporatePin => 9
    | .corporatePuk => 10
    | .cardPin => 11
    | .cardPuk => 12
  fallback := .noLock

end SlotWatch.State

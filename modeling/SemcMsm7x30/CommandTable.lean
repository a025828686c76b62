import SemcMsm7x30.RilTypes

namespace SemcMsm7x30

inductive DispatchFunction where
  | dispatchVoid | dispatchSimPin | dispatchSimPuk | dispatchSimPinSet | dispatchStrings
  | dispatchDial | dispatchRequestImsi | dispatchInts | dispatchString | dispatchDataCall
  | dispatchSimIo | dispatchCallForward | dispatchQueryFacility | dispatchSetFacility
  | dispatchNetworkManual | dispatchRaw | dispatchSmsWrite | dispatchCdmaSms | dispatchCdmaSmsAck
  | dispatchGsmBrSmsCnf | dispatchCdmaBrSmsCnf | dispatchRilCdmaSmsWriteArgs
  | dispatchCdmaSubscriptionSource | dispatchVoiceRadioTech | dispatchImsSms
  deriving DecidableEq, Repr

inductive ResponseFunction where
  | responseSimStatus | responseInts | responseCallList | responseVoid | responseString
  | responseFailCause | responseRilSignalStrength | responseRegState | responseStrings
  | responseSMS | responseSetupDataCall | responseSimIo | responseCallForwards
  | responseAvailableNetworks | responseDataCallList | responseRaw | responseCellList
  | responseGsmBrSmsCnf | responseCdmaBrSmsCnf | responseSsn | responseSimRefresh
  | responseCallRing | responseCdmaSms | responseCdmaCallWaiting | responseCdmaInformationRecords
  | responseCellInfoList | responseHardwareConfig | responseDcRtInfo | responseRadioCapability
  | responseSSData | responseLceData
  deriving DecidableEq, Repr

inductive WakeType where
  | DONT_WAKE | WAKE_PARTIAL
  deriving DecidableEq, Repr

structure CommandInfo where
  requestNumber : Int
  dispatchFunction : Option DispatchFunction
  responseFunction : Option ResponseFunction
  deriving DecidableEq, Repr

structure UnsolResponseInfo where
  requestNumber : Int
  responseFunction : ResponseFunction
  wakeType : WakeType
  deriving DecidableEq, Repr

def RIL_REQUEST_VOICE_RADIO_TECH_V3 : Int := 104
def RIL_REQUEST_CDMA_GET_SUBSCRIPTION_SOURCE_V3 : Int := 105
def RIL_REQUEST_IMS_SEND_SMS_V3 : Int := 108

def command (number : Int) (dispatch : DispatchFunction) (response : ResponseFunction) :
    CommandInfo :=
  ⟨number,some dispatch,some response⟩

-- ril_commands.h. The last rows answer the newer codes of the client with the
-- V3 numbers the vendor library knows.
def s_commands : List CommandInfo := [
  ⟨0,none,none⟩,command 1 .dispatchVoid .responseSimStatus,
  command 2 .dispatchSimPin .responseInts,command 3 .dispatchSimPuk .responseInts,
  command 4 .dispatchSimPin .responseInts,command 5 .dispatchSimPuk .responseInts,
  command 6 .dispatchSimPinSet .responseInts,command 7 .dispatchSimPinSet .responseInts,
  command 8 .dispatchStrings .responseInts,command 9 .dispatchVoid .responseCallList,
  command 10 .dispatchDial .responseVoid,command 11 .dispatchRequestImsi .responseString,
  command 12 .dispatchInts .responseVoid,command 13 .dispatchVoid .responseVoid,
  command 14 .dispatchVoid .responseVoid,command 15 .dispatchVoid .responseVoid,
  command 16 .dispatchVoid .responseVoid,command 17 .dispatchVoid .responseVoid,
  command 18 .dispatchVoid .responseFailCause,command 19 .dispatchVoid .responseRilSignalStrength,
  command 20 .dispatchVoid .responseRegState,command 21 .dispatchVoid .responseRegState,
  command 22 .dispatchVoid .responseStrings,command 23 .dispatchInts .responseVoid,
  command 24 .dispatchString .responseVoid,command 25 .dispatchStrings .responseSMS,
  command 26 .dispatchStrings .responseSMS,command 27 .dispatchDataCall .responseSetupDataCall,
  command 28 .dispatchSimIo .responseSimIo,
  command 29 .dispatchString .responseVoid,command 30 .dispatchVoid .responseVoid,
  command 31 .dispatchVoid .responseInts,command 32 .dispatchInts .responseVoid,
  command 33 .dispatchCallForward .responseCallForwards,
  command 34 .dispatchCallForward .responseVoid,command 35 .dispatchInts .responseInts,
  command 36 .dispatchInts .responseVoid,command 37 .dispatchInts .responseVoid,
  command 38 .dispatchVoid .responseString,command 39 .dispatchVoid .responseString,
  command 40 .dispatchVoid .responseVoid,command 41 .dispatchStrings .responseVoid,
  command 42 .dispatchQueryFacility .responseInts,command 43 .dispatchSetFacility .responseInts,
  command 44 .dispatchStrings .responseVoid,command 45 .dispatchVoid .responseInts,
  command 46 .dispatchNetworkManual .responseVoid,command 47 .dispatchNetworkManual .responseVoid,
  command 48 .dispatchVoid .responseAvailableNetworks,command 49 .dispatchString .responseVoid,
  command 50 .dispatchVoid .responseVoid,command 51 .dispatchVoid .responseString,
  command 52 .dispatchInts .responseVoid,command 53 .dispatchInts .responseVoid,
  command 54 .dispatchVoid .responseInts,command 55 .dispatchVoid .responseInts,
  command 56 .dispatchVoid .responseInts,command 57 .dispatchVoid .responseDataCallList,
  command 58 .dispatchVoid .responseVoid,command 59 .dispatchRaw .responseRaw,
  command 60 .dispatchStrings .responseStrings,command 61 .dispatchInts .responseVoid,
  command 62 .dispatchInts .responseVoid,command 63 .dispatchSmsWrite .responseInts,
  command 64 .dispatchInts .responseVoid,command 65 .dispatchInts .responseVoid,
  command 66 .dispatchVoid .responseInts,command 67 .dispatchVoid .responseString,
  command 68 .dispatchString .responseVoid,command 69 .dispatchString .responseString,
  command 70 .dispatchString .responseVoid,command 71 .dispatchInts .responseVoid,
  command 72 .dispatchVoid .responseVoid,command 73 .dispatchInts .responseVoid,
  command 74 .dispatchVoid .responseInts,command 75 .dispatchVoid .responseCellList,
  command 76 .dispatchInts .responseVoid,command 77 .dispatchInts .responseVoid,
  command 78 .dispatchInts .responseVoid,command 79 .dispatchVoid .responseInts,
  command 80 .dispatchInts .responseVoid,command 81 .dispatchVoid .responseInts,
  command 82 .dispatchInts .responseVoid,command 83 .dispatchVoid .responseInts,
  command 84 .dispatchString .responseVoid,command 85 .dispatchStrings .responseVoid,
  command 86 .dispatchString .responseVoid,command 87 .dispatchCdmaSms .responseSMS,
  command 88 .dispatchCdmaSmsAck .responseVoid,command 89 .dispatchVoid .responseGsmBrSmsCnf,
  command 90 .dispatchGsmBrSmsCnf .responseVoid,command 91 .dispatchInts .responseVoid,
  command 92 .dispatchVoid .responseCdmaBrSmsCnf,command 93 .dispatchCdmaBrSmsCnf .responseVoid,
  command 94 .dispatchInts .responseVoid,command 95 .dispatchVoid .responseStrings,
  command 96 .dispatchRilCdmaSmsWriteArgs .responseInts,command 97 .dispatchInts .responseVoid,
  command 98 .dispatchVoid .responseStrings,command 99 .dispatchVoid .responseVoid,
  command 100 .dispatchVoid .responseString,command 101 .dispatchString .responseVoid,
  command 102 .dispatchInts .responseVoid,command 103 .dispatchVoid .responseVoid,
  command RIL_REQUEST_CDMA_GET_SUBSCRIPTION_SOURCE_V3 .dispatchCdmaSubscriptionSource .responseInts,
  command 0 .dispatchVoid .responseVoid,command 0 .dispatchVoid .responseVoid,
  command 0 .dispatchVoid .responseVoid,
  command RIL_REQUEST_VOICE_RADIO_TECH_V3 .dispatchVoiceRadioTech .responseInts,
  command 0 .dispatchVoid .responseVoid,command 0 .dispatchVoid .responseVoid,
  command 0 .dispatchVoid .responseVoid,command 0 .dispatchVoid .responseInts,
  command RIL_REQUEST_IMS_SEND_SMS_V3 .dispatchImsSms .responseSMS]

def RIL_UNSOL_RESPONSE_BASE : Int := 1000
def RIL_UNSOL_RESPONSE_RADIO_STATE_CHANGED : Int := 1000
def RIL_UNSOL_NITZ_TIME_RECEIVED : Int := 1008
def RIL_UNSOL_RESPONSE_SIM_STATUS_CHANGED : Int := 1019
def RIL_UNSOL_CDMA_SUBSCRIPTION_SOURCE_CHANGED : Int := 1031
def RIL_UNSOL_CDMA_PRL_CHANGED : Int := 1032
def RIL_UNSOL_EXIT_EMERGENCY_CALLBACK_MODE : Int := 1033
def RIL_UNSOL_RIL_CONNECTED : Int := 1034
def RIL_UNSOL_VOICE_RADIO_TECH_CHANGED : Int := 1035
def RIL_UNSOL_RESPONSE_IMS_NETWORK_STATE_CHANGED : Int := 1037

def RIL_UNSOL_VOICE_RADIO_TECH_CHANGED_V3 : Int := 1031
def RIL_UNSOL_RESPONSE_TETHERED_MODE_STATE_CHANGED_V3 : Int := 1032
def RIL_UNSOL_RESPONSE_DATA_NETWORK_STATE_CHANGED_V3 : Int := 1033
def RIL_UNSOL_CDMA_SUBSCRIPTION_SOURCE_CHANGED_V3 : Int := 1034
def RIL_UNSOL_CDMA_PRL_CHANGED_V3 : Int := 1035
def RIL_UNSOL_RESPONSE_IMS_NETWORK_STATE_CHANGED_V3 : Int := 1036
def RIL_UNSOL_EXIT_EMERGENCY_CALLBACK_MODE_V3 : Int := 1037
def RIL_UNSOL_RIL_CONNECTED_V3 : Int := 1040

def s_unsolResponses : List UnsolResponseInfo := [
  ⟨1000,.responseVoid,.WAKE_PARTIAL⟩,⟨1001,.responseVoid,.WAKE_PARTIAL⟩,
  ⟨1002,.responseVoid,.WAKE_PARTIAL⟩,⟨1003,.responseString,.WAKE_PARTIAL⟩,
  ⟨1004,.responseString,.WAKE_PARTIAL⟩,⟨1005,.responseInts,.WAKE_PARTIAL⟩,
  ⟨1006,.responseStrings,.WAKE_PARTIAL⟩,⟨1007,.responseVoid,.DONT_WAKE⟩,
  ⟨1008,.responseString,.WAKE_PARTIAL⟩,⟨1009,.responseRilSignalStrength,.DONT_WAKE⟩,
  ⟨1010,.responseDataCallList,.WAKE_PARTIAL⟩,⟨1011,.responseSsn,.WAKE_PARTIAL⟩,
  ⟨1012,.responseVoid,.WAKE_PARTIAL⟩,⟨1013,.responseString,.WAKE_PARTIAL⟩,
  ⟨1014,.responseString,.WAKE_PARTIAL⟩,⟨1015,.responseInts,.WAKE_PARTIAL⟩,
  ⟨1016,.responseVoid,.WAKE_PARTIAL⟩,⟨1017,.responseSimRefresh,.WAKE_PARTIAL⟩,
  ⟨1018,.responseCallRing,.WAKE_PARTIAL⟩,⟨1019,.responseVoid,.WAKE_PARTIAL⟩,
  ⟨1020,.responseCdmaSms,.WAKE_PARTIAL⟩,⟨1021,.responseRaw,.WAKE_PARTIAL⟩,
  ⟨1022,.responseVoid,.WAKE_PARTIAL⟩,⟨1023,.responseInts,.WAKE_PARTIAL⟩,
  ⟨1024,.responseVoid,.WAKE_PARTIAL⟩,⟨1025,.responseCdmaCallWaiting,.WAKE_PARTIAL⟩,
  ⟨1026,.responseInts,.WAKE_PARTIAL⟩,⟨1027,.responseCdmaInformationRecords,.WAKE_PARTIAL⟩,
  ⟨1028,.responseRaw,.WAKE_PARTIAL⟩,⟨1029,.responseInts,.WAKE_PARTIAL⟩,
  ⟨1030,.responseVoid,.WAKE_PARTIAL⟩,⟨1031,.responseInts,.WAKE_PARTIAL⟩,
  ⟨1032,.responseInts,.WAKE_PARTIAL⟩,⟨1033,.responseVoid,.WAKE_PARTIAL⟩,
  ⟨1034,.responseInts,.WAKE_PARTIAL⟩,⟨1035,.responseInts,.WAKE_PARTIAL⟩,
  ⟨1036,.responseCellInfoList,.WAKE_PARTIAL⟩,⟨1037,.responseVoid,.WAKE_PARTIAL⟩,
  ⟨1038,.responseInts,.WAKE_PARTIAL⟩,⟨1039,.responseInts,.WAKE_PARTIAL⟩,
  ⟨1040,.responseHardwareConfig,.WAKE_PARTIAL⟩,⟨1041,.responseDcRtInfo,.WAKE_PARTIAL⟩,
  ⟨1042,.responseRadioCapability,.WAKE_PARTIAL⟩,⟨1043,.responseSSData,.WAKE_PARTIAL⟩,
  ⟨1044,.responseString,.WAKE_PARTIAL⟩,⟨1045,.responseLceData,.WAKE_PARTIAL⟩]

def unsolResponse_conv : List (Int × Int) := [
  (RIL_UNSOL_VOICE_RADIO_TECH_CHANGED_V3,RIL_UNSOL_VOICE_RADIO_TECH_CHANGED),
  (RIL_UNSOL_RESPONSE_TETHERED_MODE_STATE_CHANGED_V3,0),
  (RIL_UNSOL_RESPONSE_DATA_NETWORK_STATE_CHANGED_V3,0),
  (RIL_UNSOL_CDMA_SUBSCRIPTION_SOURCE_CHANGED_V3,RIL_UNSOL_CDMA_SUBSCRIPTION_SOURCE_CHANGED),
  (RIL_UNSOL_CDMA_PRL_CHANGED_V3,RIL_UNSOL_CDMA_PRL_CHANGED),
  (RIL_UNSOL_RESPONSE_IMS_NETWORK_STATE_CHANGED_V3,RIL_UNSOL_RESPONSE_IMS_NETWORK_STATE_CHANGED),
  (RIL_UNSOL_EXIT_EMERGENCY_CALLBACK_MODE_V3,RIL_UNSOL_EXIT_EMERGENCY_CALLBACK_MODE),
  (RIL_UNSOL_RIL_CONNECTED_V3,RIL_UNSOL_RIL_CONNECTED)]

-- `s_commands[request].requestNumber == 0`, or outside the table.
def lookupCommand (request : Int) : Option CommandInfo :=
  if request < 1 then none
  else (s_commands[request.toNat]?).filter (·.requestNumber ≠ 0)

-- The self-check of RIL_register for the unsolicited table.
theorem unsol_numbers_are_positions :
    ∀ i : Fin s_unsolResponses.length,
      (s_unsolResponses.get i).requestNumber = RIL_UNSOL_RESPONSE_BASE+i := by decide

theorem commands_dispatch {request : Int} {info : CommandInfo}
    (supported : lookupCommand request = some info) :
    ∃ f g, info.dispatchFunction = some f ∧ info.responseFunction = some g := by
  unfold lookupCommand at supported
  split at supported
  · cases supported
  · obtain ⟨present,nonzero⟩ := Option.filter_eq_some_iff.mp supported
    have all : ∀ c ∈ s_commands, c.requestNumber ≠ 0 →
        c.dispatchFunction.isSome ∧ c.responseFunction.isSome := by decide
    obtain ⟨dispatch,response⟩ := all info (List.mem_of_getElem? present) (by simpa using nonzero)
    exact ⟨_,_,Option.some_get dispatch |>.symm,Option.some_get response |>.symm⟩

-- Each dispatch function that answers a request itself stands in a row whose
-- response function takes what it answers with.
theorem own_replies_typed : ∀ c ∈ s_commands,
    ((c.dispatchFunction = some .dispatchVoiceRadioTech ∨
        c.dispatchFunction = some .dispatchCdmaSubscriptionSource) →
      c.responseFunction = some .responseInts) ∧
    (c.dispatchFunction = some .dispatchSimIo → c.responseFunction = some .responseSimIo) := by
  decide

end SemcMsm7x30

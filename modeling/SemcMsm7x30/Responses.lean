import SemcMsm7x30.WireFormat
import SemcMsm7x30.Ril

namespace SemcMsm7x30.Responses

def RIL_ERRNO_INVALID_RESPONSE : Int := -1
def INT_MAX : Int32 := 2147483647
def RIL_MAX_NETWORKS : Nat := 2

structure UusInfo where
  uusType : Int32
  uusDcs : Int32
  uusLength : Int32
  uusData : Option (Nat → UInt8)
  deriving Inhabited

-- `Text` is what a char pointer that is not NULL points to.
structure Call (Text Uus : Type) where
  state : Int32
  index : Int32
  toa : Int32
  isMpty : Int32
  isMT : Int32
  als : Int32
  isVoice : Int32
  isVoicePrivacy : Int32
  number : Option Text
  numberPresentation : Int32
  name : Option Text
  namePresentation : Int32
  uusInfo : Option Uus
  deriving Inhabited

structure CallForwardInfo (Text : Type) where
  status : Int32
  reason : Int32
  serviceClass : Int32
  toa : Int32
  number : Option Text
  timeSeconds : Int32
  deriving Inhabited

structure NeighboringCell (Text : Type) where
  cid : Option Text
  rssi : Int32
  deriving Inhabited

structure SmsResponse (Text : Type) where
  messageRef : Int32
  ackPDU : Option Text
  errorCode : Int32
  deriving Inhabited

structure SimIoResponse (Text : Type) where
  sw1 : Int32
  sw2 : Int32
  simResponse : Option Text
  deriving Inhabited

structure LastCallFailCauseInfo (Text : Type) where
  cause_code : Int32
  vendor_cause : Option Text
  deriving Inhabited

structure DataCallV4 (Text : Type) where
  cid : Int32
  active : Int32
  type : Option Text
  address : Option Text
  deriving Inhabited

structure DataCallV6 (Text : Type) where
  status : Int32
  suggestedRetryTime : Int32
  cid : Int32
  active : Int32
  type : Option Text
  ifname : Option Text
  addresses : Option Text
  dnses : Option Text
  gateways : Option Text
  deriving Inhabited

structure DataCallV9 (Text : Type) extends DataCallV6 Text where
  pcscf : Option Text
  deriving Inhabited

structure DataCallV11 (Text : Type) extends DataCallV9 Text where
  mtu : Int32
  deriving Inhabited

structure LteSignalStrength where
  signalStrength : Int32
  rsrp : Int32
  rsrq : Int32
  rssnr : Int32
  cqi : Int32
  deriving Inhabited

structure SignalStrength where
  words : Fin 7 → Int32
  LTE_SignalStrength : LteSignalStrength
  rscp : Int32
  deriving Inhabited

structure AppStatus (Text : Type) where
  app_type : Int32
  app_state : Int32
  perso_substate : Int32
  aid_ptr : Option Text
  app_label_ptr : Option Text
  pin1_replaced : Int32
  pin1 : Int32
  pin2 : Int32
  deriving Inhabited

structure CardStatus (Text : Type) where
  card_state : Int32
  universal_pin_state : Int32
  num_current_3gpp_indexes : Int32
  subscription_3gpp_app_index : Nat → Int32
  num_current_3gpp2_indexes : Int32
  subscription_3gpp2_app_index : Nat → Int32
  num_applications : Int32
  applications : Nat → AppStatus Text
  deriving Inhabited

structure CardList (Text : Type) where
  num_cards : Int32
  card : Nat → CardStatus Text
  deriving Inhabited

structure RegistrationStateRecord (Text : Type) where
  numElements : Int32
  regState : Nat → Option Text
  deriving Inhabited

structure GsmBroadcastSmsConfigInfo where
  fromServiceId : Int32
  toServiceId : Int32
  fromCodeScheme : Int32
  toCodeScheme : Int32
  selected : UInt8
  deriving Inhabited

structure CdmaBroadcastSmsConfigInfo where
  service_category : Int32
  language : Int32
  selected : UInt8
  deriving Inhabited

-- What stands behind a response pointer, as each of the casts sees it.
structure Memory (Text : Type) where
  byte : Nat → UInt8
  int : Nat → Int32
  string : Text
  strings : Nat → Option Text
  calls : Nat → Call Text UusInfo
  callForwards : Nat → CallForwardInfo Text
  cells : Nat → NeighboringCell Text
  sms : SmsResponse Text
  simIo : SimIoResponse Text
  failCause : LastCallFailCauseInfo Text
  dataCallsV4 : Nat → DataCallV4 Text
  dataCallsV6 : Nat → DataCallV6 Text
  dataCallsV9 : Nat → DataCallV9 Text
  dataCallsV11 : Nat → DataCallV11 Text
  signalStrength : SignalStrength
  cardList : CardList Text
  records : Nat → RegistrationStateRecord Text
  gsmBroadcasts : Nat → GsmBroadcastSmsConfigInfo
  cdmaBroadcasts : Nat → CdmaBroadcastSmsConfigInfo
  deriving Inhabited

-- The sizes of the structs of telephony/ril.h. The nine words of a v6 data call
-- are read from it, so it has at least these.
structure Layout where
  failCauseInfo : Nat
  smsResponse : Nat
  simIoResponse : Nat
  dataCallV4 : Nat
  dataCallV6 : Nat
  dataCallV9 : Nat
  dataCallV11 : Nat
  signalStrengthV5 : Nat
  signalStrengthV6 : Nat
  signalStrengthV10 : Nat
  cardListV3 : Nat
  nineWords : 36 ≤ dataCallV6

def sizeofWord : Nat := 4
def sizeofRegistrationStates : Nat := RIL_MAX_NETWORKS*(sizeofWord+sizeofWord)

abbrev Marshalled := List UInt8 × Int

def invalid : Marshalled := ([],RIL_ERRNO_INVALID_RESPONSE)

def writeInt32 (value : Int32) : List UInt8 := Parcel.le32 value.toInt

def writeSize (size : Nat) : List UInt8 := Parcel.le32 size

-- Parcel::write refuses a length that is no positive int, and the callers do not look.
def writeBlock (bytes : Nat → UInt8) (len : Nat) : List UInt8 :=
  if len ≤ Parcel.INT32_MAX then
    (List.range len).map bytes ++ List.replicate (Parcel.pad len-len) 0
  else []

section Functions
variable {Text : Type} (layout : Layout) (version : Int) (writeString : Option Text → List UInt8)

-- The records 0,1,... behind the pointer, in the order the loops take them. The
-- loop over a NULL pointer has no turn where the length was checked.
def records {α : Type} (p_cur : Memory Text → Nat → α) (response : Option (Memory Text))
    (num : Nat) : List α :=
  match response with
  | none => []
  | some memory => (List.range num).map (p_cur memory)

def responseList {α : Type} (front : List UInt8) (size : Nat) (p_cur : Memory Text → Nat → α)
    (write : α → List UInt8) (response : Option (Memory Text)) (responselen : UInt32) :
    Marshalled :=
  if response.isNone ∧ responselen ≠ 0 then invalid
  else if responselen.toNat%size ≠ 0 then invalid
  else
    let num := responselen.toNat/size
    (front ++ writeSize num ++ (records p_cur response num).flatMap write,0)

def responseInts : Option (Memory Text) → UInt32 → Marshalled :=
  responseList [] sizeofWord Memory.int writeInt32

def responseStrings : Option (Memory Text) → UInt32 → Marshalled :=
  responseList [] sizeofWord Memory.strings writeString

def responseStringsWithVersion (response : Option (Memory Text)) (responselen : UInt32) :
    Marshalled :=
  let (bytes,ret) := responseStrings writeString response responselen
  (Parcel.le32 version ++ bytes,ret)

-- NULL strings are accepted, and responselen is ignored.
def responseString (response : Option (Memory Text)) (_responselen : UInt32) : Marshalled :=
  (writeString (response.map Memory.string),0)

def responseVoid (_response : Option (Memory Text)) (_responselen : UInt32) : Marshalled := ([],0)

def responseFailCause (response : Option (Memory Text)) (responselen : UInt32) : Marshalled :=
  match response with
  | none => invalid
  | some memory =>
    if responselen.toNat = sizeofWord then (writeInt32 (memory.int 0),0)
    else if responselen.toNat = layout.failCauseInfo then
      (writeInt32 memory.failCause.cause_code ++ writeString memory.failCause.vendor_cause,0)
    else invalid

def writeUus (uusInfo : Option UusInfo) : List UInt8 :=
  let absent := writeInt32 0
  match uusInfo with
  | none => absent
  | some info =>
    match info.uusData with
    | none => absent
    | some data =>
      writeInt32 1 ++ writeInt32 info.uusType ++ writeInt32 info.uusDcs ++
        writeInt32 info.uusLength ++ writeBlock data (Parcel.sizeT info.uusLength.toInt)

def writeCall (p_cur : Call Text UusInfo) : List UInt8 :=
  writeInt32 p_cur.state ++ writeInt32 p_cur.index ++ writeInt32 p_cur.toa ++
    writeInt32 p_cur.isMpty ++ writeInt32 p_cur.isMT ++ writeInt32 p_cur.als ++
    writeInt32 p_cur.isVoice ++ writeInt32 p_cur.isVoicePrivacy ++ writeString p_cur.number ++
    writeInt32 p_cur.numberPresentation ++ writeString p_cur.name ++
    writeInt32 p_cur.namePresentation ++
    -- Remove when partners upgrade to version 3
    writeUus (if version < 3 then none else p_cur.uusInfo)

def responseCallList : Option (Memory Text) → UInt32 → Marshalled :=
  responseList [] sizeofWord Memory.calls (writeCall version writeString)

def responseSMS (response : Option (Memory Text)) (responselen : UInt32) : Marshalled :=
  match response with
  | none => invalid
  | some memory =>
    if responselen.toNat ≠ layout.smsResponse then invalid
    else
      (writeInt32 memory.sms.messageRef ++ writeString memory.sms.ackPDU ++
        writeInt32 memory.sms.errorCode,0)

-- Each fifth string is left out, and of every five strings four are counted.
def responseAvailableNetworks (response : Option (Memory Text)) (responselen : UInt32) :
    Marshalled :=
  if response.isNone ∧ responselen ≠ 0 then invalid
  else if responselen.toNat%sizeofWord ≠ 0 then invalid
  else
    match response with
    | none => (writeSize 0,0)
    | some memory =>
      let numStrings := responselen.toNat/sizeofWord
      let kept := (List.range numStrings).filter fun i => (i+1)%5 ≠ 0
      (writeSize (numStrings/5*4) ++ kept.flatMap (fun i => writeString (memory.strings i)),0)

def writeDataCallV4 (p_cur : DataCallV4 Text) : List UInt8 :=
  writeInt32 p_cur.cid ++ writeInt32 p_cur.active ++ writeString p_cur.type ++
    -- apn is not used, so don't send.
    writeString p_cur.address

def responseDataCallListV4 : Option (Memory Text) → UInt32 → Marshalled :=
  responseList (writeInt32 4) layout.dataCallV4 Memory.dataCallsV4 (writeDataCallV4 writeString)

def writeDataCallV6 (p_cur : DataCallV6 Text) : List UInt8 :=
  writeInt32 p_cur.status ++ writeInt32 p_cur.suggestedRetryTime ++ writeInt32 p_cur.cid ++
    writeInt32 p_cur.active ++ writeString p_cur.type ++ writeString p_cur.ifname ++
    writeString p_cur.addresses ++ writeString p_cur.dnses ++ writeString p_cur.gateways

def responseDataCallListV6 : Option (Memory Text) → UInt32 → Marshalled :=
  responseList (writeInt32 6) layout.dataCallV6 Memory.dataCallsV6 (writeDataCallV6 writeString)

def writeDataCallV9 (p_cur : DataCallV9 Text) : List UInt8 :=
  writeDataCallV6 writeString p_cur.toDataCallV6 ++ writeString p_cur.pcscf

def responseDataCallListV9 : Option (Memory Text) → UInt32 → Marshalled :=
  responseList (writeInt32 10) layout.dataCallV9 Memory.dataCallsV9 (writeDataCallV9 writeString)

def writeDataCallV11 (p_cur : DataCallV11 Text) : List UInt8 :=
  writeDataCallV9 writeString p_cur.toDataCallV9 ++ writeInt32 p_cur.mtu

def responseDataCallList (response : Option (Memory Text)) (responselen : UInt32) : Marshalled :=
  if version < 5 then responseDataCallListV4 layout writeString response responselen
  else if responselen.toNat%layout.dataCallV6 = 0 then
    responseDataCallListV6 layout writeString response responselen
  else if responselen.toNat%layout.dataCallV9 = 0 then
    responseDataCallListV9 layout writeString response responselen
  else
    responseList (writeInt32 11) layout.dataCallV11 Memory.dataCallsV11
      (writeDataCallV11 writeString) response responselen

def responseSetupDataCall (response : Option (Memory Text)) (responselen : UInt32) : Marshalled :=
  if version < 5 then responseStringsWithVersion version writeString response responselen
  else responseDataCallList layout version writeString response responselen

def responseRaw (response : Option (Memory Text)) (responselen : UInt32) : Marshalled :=
  match response with
  | none => if responselen ≠ 0 then invalid else (writeInt32 (-1),0)
  | some memory => (writeSize responselen.toNat ++ writeBlock memory.byte responselen.toNat,0)

def responseSIM_IO (response : Option (Memory Text)) (responselen : UInt32) : Marshalled :=
  match response with
  | none => invalid
  | some memory =>
    if responselen.toNat ≠ layout.simIoResponse then invalid
    else
      (writeInt32 memory.simIo.sw1 ++ writeInt32 memory.simIo.sw2 ++
        writeString memory.simIo.simResponse,0)

def writeCallForward (p_cur : CallForwardInfo Text) : List UInt8 :=
  writeInt32 p_cur.status ++ writeInt32 p_cur.reason ++ writeInt32 p_cur.serviceClass ++
    writeInt32 p_cur.toa ++ writeString p_cur.number ++ writeInt32 p_cur.timeSeconds

def responseCallForwards : Option (Memory Text) → UInt32 → Marshalled :=
  responseList [] sizeofWord Memory.callForwards (writeCallForward writeString)

def writeCell (p_cur : NeighboringCell Text) : List UInt8 :=
  writeInt32 p_cur.rssi ++ writeString p_cur.cid

def responseCellList : Option (Memory Text) → UInt32 → Marshalled :=
  responseList [] sizeofWord Memory.cells (writeCell writeString)

def fixupLte (lte : LteSignalStrength) : LteSignalStrength where
  signalStrength := if lte.signalStrength = -1 then 99 else lte.signalStrength
  rsrp := if lte.rsrp = -1 then INT_MAX else if lte.rsrp < -1 then -lte.rsrp else lte.rsrp
  rsrq := if lte.rsrq = -1 then INT_MAX else lte.rsrq
  rssnr := if lte.rssnr = 0 then INT_MAX else lte.rssnr
  cqi := if lte.cqi = -1 then INT_MAX else lte.cqi

def writeLte (lte : LteSignalStrength) : List UInt8 :=
  writeInt32 lte.signalStrength ++ writeInt32 lte.rsrp ++ writeInt32 lte.rsrq ++
    writeInt32 lte.rssnr ++ writeInt32 lte.cqi

def responseRilSignalStrength (response : Option (Memory Text)) (responselen : UInt32) :
    Marshalled :=
  match response with
  | none => invalid
  | some memory =>
    let p_cur := memory.signalStrength
    if layout.signalStrengthV5 ≤ responselen.toNat then
      let common := (List.ofFn p_cur.words).flatMap writeInt32
      if layout.signalStrengthV6 ≤ responselen.toNat then
        let lte := if version ≤ 6 then fixupLte p_cur.LTE_SignalStrength else p_cur.LTE_SignalStrength
        let rscp := if layout.signalStrengthV10 ≤ responselen.toNat then p_cur.rscp else INT_MAX
        (common ++ writeLte lte ++ writeInt32 rscp,0)
      else (common ++ writeLte ⟨99,INT_MAX,INT_MAX,INT_MAX,INT_MAX⟩ ++ writeInt32 INT_MAX,0)
    else invalid

def writeAppStatus (appStatus : AppStatus Text) : List UInt8 :=
  writeInt32 appStatus.app_type ++ writeInt32 appStatus.app_state ++
    writeInt32 appStatus.perso_substate ++ writeString appStatus.aid_ptr ++
    writeString appStatus.app_label_ptr ++ writeInt32 appStatus.pin1_replaced ++
    writeInt32 appStatus.pin1 ++ writeInt32 appStatus.pin2

def sendSimStatusAppInfo (num_apps : Int32) (appStatus : Nat → AppStatus Text) : List UInt8 :=
  writeInt32 num_apps ++
    ((List.range num_apps.toInt.toNat).map appStatus).flatMap (writeAppStatus writeString)

def responseSimStatus (response : Option (Memory Text)) (responselen : UInt32) : Marshalled :=
  match response with
  | none => invalid
  | some memory =>
    if responselen.toNat ≠ layout.cardListV3 then invalid
    else if memory.cardList.num_cards = 0 then
      (writeInt32 0 ++ writeInt32 0 ++ writeInt32 (-1) ++ writeInt32 (-1) ++ writeInt32 (-1) ++
        writeInt32 0,0)
    else
      let p_card := memory.cardList.card 0
      (writeInt32 p_card.card_state ++ writeInt32 p_card.universal_pin_state ++
        writeInt32 (if p_card.num_current_3gpp_indexes ≤ 0 then -1
          else p_card.subscription_3gpp_app_index 0) ++
        writeInt32 (if p_card.num_current_3gpp2_indexes ≤ 0 then -1
          else p_card.subscription_3gpp2_app_index 0) ++
        writeInt32 (-1) ++
        sendSimStatusAppInfo writeString p_card.num_applications p_card.applications,0)

def writeRegState (record : RegistrationStateRecord Text) : List UInt8 :=
  writeInt32 record.numElements ++
    ((List.range record.numElements.toInt.toNat).map record.regState).flatMap writeString

def responseRegState (response : Option (Memory Text)) (responselen : UInt32) : Marshalled :=
  match response with
  | none => invalid
  | some memory =>
    if responselen.toNat ≠ sizeofRegistrationStates then invalid
    else (((List.range RIL_MAX_NETWORKS).map memory.records).flatMap (writeRegState writeString),0)

-- The two broadcast responses read through the pointer without looking at it.
def responseGsmBrSmsCnf (memory : Memory Text) (responselen : UInt32) : Marshalled :=
  let num := responselen.toNat/sizeofWord
  (writeSize num ++ ((List.range num).map memory.gsmBroadcasts).flatMap fun p_cur =>
    writeInt32 p_cur.fromServiceId ++ writeInt32 p_cur.toServiceId ++
      writeInt32 p_cur.fromCodeScheme ++ writeInt32 p_cur.toCodeScheme ++
      Parcel.le32 p_cur.selected.toNat,0)

def responseCdmaBrSmsCnf (memory : Memory Text) (responselen : UInt32) : Marshalled :=
  let num := responselen.toNat/sizeofWord
  (writeSize num ++ ((List.range num).map memory.cdmaBroadcasts).flatMap fun p_cur =>
    writeInt32 p_cur.service_category ++ writeInt32 p_cur.language ++
      Parcel.le32 p_cur.selected.toNat,0)

-- pRI->pCI->responseFunction(p,response,responselen). The functions left out
-- stand in no row of s_commands.
def responseFunction (memory : Memory Text) (responselen : UInt32) :
    ResponseFunction → Option Marshalled
  | .responseSimStatus => responseSimStatus layout writeString (some memory) responselen
  | .responseInts => responseInts (some memory) responselen
  | .responseCallList => responseCallList version writeString (some memory) responselen
  | .responseVoid => responseVoid (some memory) responselen
  | .responseString => responseString writeString (some memory) responselen
  | .responseFailCause => responseFailCause layout writeString (some memory) responselen
  | .responseRilSignalStrength =>
    responseRilSignalStrength layout version (some memory) responselen
  | .responseRegState => responseRegState writeString (some memory) responselen
  | .responseStrings => responseStrings writeString (some memory) responselen
  | .responseSMS => responseSMS layout writeString (some memory) responselen
  | .responseSetupDataCall =>
    responseSetupDataCall layout version writeString (some memory) responselen
  | .responseSimIo => responseSIM_IO layout writeString (some memory) responselen
  | .responseCallForwards => responseCallForwards writeString (some memory) responselen
  | .responseAvailableNetworks => responseAvailableNetworks writeString (some memory) responselen
  | .responseDataCallList =>
    responseDataCallList layout version writeString (some memory) responselen
  | .responseRaw => responseRaw (some memory) responselen
  | .responseCellList => responseCellList writeString (some memory) responselen
  | .responseGsmBrSmsCnf => responseGsmBrSmsCnf memory responselen
  | .responseCdmaBrSmsCnf => responseCdmaBrSmsCnf memory responselen
  | _ => none

def completionResponse (pCI : CommandInfo) (response : Option (Memory Text))
    (responselen : UInt32) : Option Response :=
  match response with
  | none => some .null
  | some memory => do
    let function ← pCI.responseFunction
    let (payload,ret) ← responseFunction layout version writeString memory responselen function
    pure (.vendor payload ret)

end Functions

theorem own_int_marshalled {Text : Type} (b : Build) (memory : Memory Text) :
    marshal b (.int (memory.int 0).toInt) = some (responseInts (some memory) 4) := by
  have written : responseInts (some memory) 4 =
      (writeSize 1 ++ ([memory.int 0] : List Int32).flatMap writeInt32,0) := rfl
  rw [written]
  simp [marshal,SemcMsm7x30.responseInts,writeSize,writeInt32]

theorem own_simIo_marshalled (b : Build) (layout : Layout) (memory : Memory (List UInt8))
    {responselen : UInt32} (size : responselen.toNat = layout.simIoResponse)
    {simResponse : List UInt8} (text : memory.simIo.simResponse = some simResponse) :
    marshal b (.simIo memory.simIo.sw1.toInt memory.simIo.sw2.toInt simResponse) =
      some ( responseSIM_IO layout
        (fun s => (writeStringToParcel b.platform Parcel.empty s).data) (some memory)
        responselen) := by
  have first : (Parcel.empty.writeInt32 memory.simIo.sw1.toInt).writeInt32
      memory.simIo.sw2.toInt =
      ⟨Parcel.le32 memory.simIo.sw1.toInt ++ Parcel.le32 memory.simIo.sw2.toInt,8⟩ := by
    simp [Parcel.writeInt32,Parcel.write,Parcel.empty,Parcel.le32]
  simp only [marshal, responseSIM_IO,size,ne_eq,not_true_eq_false,if_false,text,writeInt32]
  simp only [SemcMsm7x30.responseSimIo,first,writeStringToParcel]
  rw [Parcel.writeString16_at_end _ rfl,Parcel.writeString16_at_end _ rfl]
  simp [Parcel.empty]

-- A failing function has written nothing yet.
def FailsFirst (result : Marshalled) : Prop := result.2 ≠ 0 → result.1 = []

theorem invalid_failsFirst : FailsFirst invalid := fun _ => rfl

theorem done_failsFirst (bytes : List UInt8) : FailsFirst (bytes,0) := fun failed => (failed rfl).elim

theorem ite_failsFirst {c : Prop} [Decidable c] {yes no : Marshalled} (first : FailsFirst yes)
    (second : FailsFirst no) : FailsFirst (if c then yes else no) := by
  split
  · exact first
  · exact second

section Failing
variable {Text : Type} (layout : Layout) (writeString : Option Text → List UInt8)

theorem responseList_failsFirst {α : Type} (front : List UInt8) (size : Nat)
    (p_cur : Memory Text → Nat → α) (write : α → List UInt8) (response : Option (Memory Text))
    (responselen : UInt32) :
    FailsFirst (responseList front size p_cur write response responselen) := by
  unfold responseList
  apply ite_failsFirst invalid_failsFirst
  apply ite_failsFirst invalid_failsFirst
  exact done_failsFirst _

theorem responseAvailableNetworks_failsFirst (response : Option (Memory Text))
    (responselen : UInt32) :
    FailsFirst (responseAvailableNetworks writeString response responselen) := by
  unfold responseAvailableNetworks
  apply ite_failsFirst invalid_failsFirst
  apply ite_failsFirst invalid_failsFirst
  cases response with
  | none => exact done_failsFirst _
  | some memory => exact done_failsFirst _

theorem responseDataCallList_failsFirst {version : Int} (five : 5 ≤ version)
    (response : Option (Memory Text)) (responselen : UInt32) :
    FailsFirst (responseDataCallList layout version writeString response responselen) := by
  unfold responseDataCallList
  rw [if_neg (by omega)]
  apply ite_failsFirst (responseList_failsFirst _ _ _ _ _ _)
  apply ite_failsFirst (responseList_failsFirst _ _ _ _ _ _)
  exact responseList_failsFirst _ _ _ _ _ _

theorem responseSetupDataCall_failsFirst {version : Int} (five : 5 ≤ version)
    (response : Option (Memory Text)) (responselen : UInt32) :
    FailsFirst (responseSetupDataCall layout version writeString response responselen) := by
  unfold responseSetupDataCall
  rw [if_neg (by omega)]
  exact responseDataCallList_failsFirst layout writeString five response responselen

theorem responseFunction_failsFirst {version : Int} (five : 5 ≤ version) {memory : Memory Text}
    {responselen : UInt32} {function : ResponseFunction} {result : Marshalled}
    (ran : responseFunction layout version writeString memory responselen function = some result) :
    FailsFirst result := by
  cases function <;> cases ran
  case responseSimStatus =>
    apply ite_failsFirst invalid_failsFirst
    apply ite_failsFirst <;> exact done_failsFirst _
  case responseInts => exact responseList_failsFirst _ _ _ _ _ _
  case responseCallList => exact responseList_failsFirst _ _ _ _ _ _
  case responseVoid => exact done_failsFirst _
  case responseString => exact done_failsFirst _
  case responseFailCause =>
    apply ite_failsFirst (done_failsFirst _)
    exact ite_failsFirst (done_failsFirst _) invalid_failsFirst
  case responseRilSignalStrength =>
    refine ite_failsFirst ?_ invalid_failsFirst
    apply ite_failsFirst <;> exact done_failsFirst _
  case responseRegState => exact ite_failsFirst invalid_failsFirst (done_failsFirst _)
  case responseStrings => exact responseList_failsFirst _ _ _ _ _ _
  case responseSMS => exact ite_failsFirst invalid_failsFirst (done_failsFirst _)
  case responseSetupDataCall => exact responseSetupDataCall_failsFirst layout writeString five _ _
  case responseSimIo => exact ite_failsFirst invalid_failsFirst (done_failsFirst _)
  case responseCallForwards => exact responseList_failsFirst _ _ _ _ _ _
  case responseAvailableNetworks => exact responseAvailableNetworks_failsFirst writeString _ _
  case responseDataCallList => exact responseDataCallList_failsFirst layout writeString five _ _
  case responseRaw => exact done_failsFirst _
  case responseCellList => exact responseList_failsFirst _ _ _ _ _ _
  case responseGsmBrSmsCnf => exact done_failsFirst _
  case responseCdmaBrSmsCnf => exact done_failsFirst _

end Failing

def unsolicitedOnly : List ResponseFunction := [.responseSsn,.responseSimRefresh,.responseCallRing,
  .responseCdmaSms,.responseCdmaCallWaiting,.responseCdmaInformationRecords,.responseCellInfoList,
  .responseHardwareConfig,.responseDcRtInfo,.responseRadioCapability,.responseSSData,
  .responseLceData]

theorem commands_solicited : ∀ c ∈ s_commands, ∀ function ∈ c.responseFunction,
    function ∉ unsolicitedOnly := by decide

theorem responseFunction_runs {Text : Type} (layout : Layout)
    (writeString : Option Text → List UInt8) (version : Int) (memory : Memory Text)
    (responselen : UInt32) {function : ResponseFunction} (solicited : function ∉ unsolicitedOnly) :
    ∃ result, responseFunction layout version writeString memory responselen function =
      some result := by
  cases function <;> first | exact ⟨_,rfl⟩ | exact absurd (by decide) solicited

theorem supported_runs {request : Int} {pCI : CommandInfo}
    (supported : lookupCommand request = some pCI) :
    ∃ function, pCI.responseFunction = some function ∧ function ∉ unsolicitedOnly := by
  obtain ⟨_,function,_,present⟩ := commands_dispatch supported
  refine ⟨function,present,?_⟩
  unfold lookupCommand at supported
  split at supported
  · cases supported
  · obtain ⟨row,_⟩ := Option.filter_eq_some_iff.mp supported
    exact commands_solicited pCI (List.mem_of_getElem? row) function present

section Replies
variable {Text : Type} {layout : Layout} {writeString : Option Text → List UInt8}

def threeInts (token code : Int) : List UInt8 :=
  Parcel.le32 RESPONSE_SOLICITED ++ Parcel.le32 token ++ Parcel.le32 code

inductive ExactReply (run : Memory Text → Option Marshalled) (token e : Int) :
    Option (Memory Text) → List UInt8 → Prop
  | null : ExactReply run token e none (threeInts token e)
  | whole {memory : Memory Text} {payload : List UInt8} (ran : run memory = some (payload,0)) :
      ExactReply run token e (some memory) (threeInts token e ++ payload)
  | failed {memory : Memory Text} {written : List UInt8} {ret : Int}
      (ran : run memory = some (written,ret)) (nonzero : ret ≠ 0) :
      ExactReply run token e (some memory) (threeInts token ret)

theorem header_written (token : Int) :
    (Parcel.empty.writeInt32 RESPONSE_SOLICITED).writeInt32 token =
      ⟨Parcel.le32 RESPONSE_SOLICITED ++ Parcel.le32 token,8⟩ := by
  simp [Parcel.writeInt32,Parcel.write,Parcel.empty,Parcel.le32]

theorem error_written (token e : Int) :
    (⟨Parcel.le32 RESPONSE_SOLICITED ++ Parcel.le32 token,8⟩ : Parcel).writeInt32 e =
      ⟨threeInts token e,12⟩ := by
  simp [Parcel.writeInt32,Parcel.write,threeInts,Parcel.le32]

theorem payload_written (token e : Int) (payload : List UInt8) :
    (⟨threeInts token e,12⟩ : Parcel).write payload =
      ⟨threeInts token e ++ payload,12+payload.length⟩ := by
  rw [Parcel.write_at_end rfl,List.length_append]
  rfl

theorem replyFrame_null (b : Build) (token e : Int) :
    replyFrame b token e .null = threeInts token e := by
  simp only [replyFrame,marshal,header_written,error_written]

theorem replyFrame_whole (b : Build) (token e : Int) (payload : List UInt8) :
    replyFrame b token e (.vendor payload 0) = threeInts token e ++ payload := by
  simp [replyFrame,marshal,header_written,error_written,payload_written]

theorem replyFrame_failed (b : Build) (token e : Int) {ret : Int} (written : List UInt8)
    (nonzero : ret ≠ 0) :
    replyFrame b token e (.vendor written ret) = threeInts token ret ++ written := by
  simp only [replyFrame,marshal,header_written,error_written,payload_written,nonzero,ne_eq,
    not_false_eq_true,if_true]
  simp [Parcel.setDataPosition,Parcel.writeInt32,Parcel.write,threeInts,Parcel.le32]

theorem replyFrame_exact (b : Build) (token e : Int) {version : Int} (five : 5 ≤ version)
    {pCI : CommandInfo} {function : ResponseFunction} (present : pCI.responseFunction = some function)
    (solicited : function ∉ unsolicitedOnly) (response : Option (Memory Text))
    (responselen : UInt32) :
    ∃ completed, completionResponse layout version writeString pCI response responselen =
        some completed ∧
      ExactReply (fun memory =>
          responseFunction layout version writeString memory responselen function)
        token e response (replyFrame b token e completed) := by
  cases response with
  | none =>
    refine ⟨.null,rfl,?_⟩
    rw [replyFrame_null]
    exact .null
  | some memory =>
    obtain ⟨⟨payload,ret⟩,ran⟩ :=
      responseFunction_runs layout writeString version memory responselen solicited
    refine ⟨.vendor payload ret,by simp [completionResponse,present,ran],?_⟩
    by_cases zero : ret = 0
    · subst zero
      rw [replyFrame_whole]
      exact .whole ran
    · have nothing : payload = [] :=
        responseFunction_failsFirst layout writeString five ran zero
      rw [replyFrame_failed b token e payload zero,nothing,List.append_nil]
      exact .failed ran zero

theorem complete_appends (b : Build) (writes : Writes) {s next : Ril} {addr : Nat}
    {pRI : RequestInfo} (dequeued : checkAndDequeueRequestInfo b s addr = some (pRI,next))
    (own : pRI.isLocal = false) (live : pRI.cancelled = false) (e : Int) (response : Response) :
    (RIL_onRequestComplete b writes s addr e response).sent =
      s.sent ++ [⟨pRI.socket_id,replyFrame b pRI.token e response,.reply addr,
        s.connected (socketHook b.simCount pRI.socket_id) ∧
          (replyFrame b pRI.token e response).length ≤ MAX_COMMAND_BYTES ∧
          writes RESPONSE_SOLICITED⟩] := by
  have same : searchedList b {s with completions := s.completions ++ [addr]} addr =
      searchedList b s addr := rfl
  simp only [checkAndDequeueRequestInfo] at dequeued
  unfold RIL_onRequestComplete checkAndDequeueRequestInfo
  simp only [same]
  cases found : (s.pendingRequests (searchedList b s addr)).find? (·.addr = addr) with
  | none =>
    rw [found] at dequeued
    cases dequeued
  | some pending =>
    rw [found] at dequeued
    cases dequeued
    simp [own,live,sendResponse]

theorem complete_sends (b : Build) (writes : Writes) {s next : Ril} {addr : Nat} {pRI : RequestInfo}
    (dequeued : checkAndDequeueRequestInfo b s addr = some (pRI,next)) (own : pRI.isLocal = false)
    (live : pRI.cancelled = false) (e : Int) (response : Response) :
    (RIL_onRequestComplete b writes s addr e response).sent.map (·.data) =
      s.sent.map (·.data) ++ [replyFrame b pRI.token e response] := by
  rw [complete_appends b writes dequeued own live,List.map_append]
  rfl

theorem reply_frames_exact (b : Build) (writes : Writes) (layout : Layout)
    (writeString : Option Text → List UInt8) {s next : Ril} {addr : Nat} {pRI : RequestInfo}
    {request : Int} (dequeued : checkAndDequeueRequestInfo b s addr = some (pRI,next))
    (supported : lookupCommand request = some pRI.pCI) (own : pRI.isLocal = false)
    (live : pRI.cancelled = false) (e : Int) (response : Option (Memory Text))
    (responselen : UInt32) :
    ∃ function completed frame, pRI.pCI.responseFunction = some function ∧
      completionResponse layout RIL_VERSION_V3 writeString pRI.pCI response responselen =
        some completed ∧
      (RIL_onRequestComplete b writes s addr e completed).sent.map (·.data) =
        s.sent.map (·.data) ++ [frame] ∧
      ExactReply (fun memory =>
          responseFunction layout RIL_VERSION_V3 writeString memory responselen function)
        pRI.token e response frame := by
  obtain ⟨function,present,solicited⟩ := supported_runs supported
  obtain ⟨completed,marshalled,exactly⟩ := replyFrame_exact b pRI.token e
    (by decide : 5 ≤ RIL_VERSION_V3) present solicited response responselen
  exact ⟨function,completed,_,present,marshalled,
    complete_sends b writes dequeued own live e completed,exactly⟩

end Replies

def words32 : Layout := ⟨8,12,12,20,36,40,44,28,48,56,344,by decide⟩

def asciiString (s : CString) : List UInt8 :=
  (writeStringToParcel (asciiBuild 1).platform Parcel.empty s).data

def simStatusRequest : RequestInfo :=
  ⟨0,7,command 1 .dispatchVoid .responseSimStatus,false,false,.socket1⟩

def oneRequest : Ril := enqueue Ril.initial .socket1 simStatusRequest

theorem reply_frames_exact_short :
    ∃ function completed frame, simStatusRequest.pCI.responseFunction = some function ∧
      completionResponse words32 RIL_VERSION_V3 asciiString simStatusRequest.pCI (some default) 4 =
        some completed ∧
      (RIL_onRequestComplete (asciiBuild 1) (fun _ => true) oneRequest 0 0 completed).sent.map
        (·.data) = oneRequest.sent.map (·.data) ++ [frame] ∧
      ExactReply (fun memory =>
          responseFunction words32 RIL_VERSION_V3 asciiString memory 4 function)
        simStatusRequest.token 0 (some default) frame :=
  reply_frames_exact (asciiBuild 1) (fun _ => true) words32 asciiString (s := oneRequest)
    rfl (rfl : lookupCommand 1 = some simStatusRequest.pCI) rfl rfl 0 (some default) 4

end SemcMsm7x30.Responses

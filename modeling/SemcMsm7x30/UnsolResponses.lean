import SemcMsm7x30.ReplyDecoding

namespace SemcMsm7x30.UnsolResponses
open Parcel hiding writeInt32 writeInt64 readByte
open Responses

def RIL_CELL_INFO_TYPE_GSM : Int32 := 1
def RIL_CELL_INFO_TYPE_CDMA : Int32 := 2
def RIL_CELL_INFO_TYPE_LTE : Int32 := 3
def RIL_CELL_INFO_TYPE_WCDMA : Int32 := 4
def RIL_CELL_INFO_TYPE_TD_SCDMA : Int32 := 5
def RIL_HARDWARE_CONFIG_MODEM : Int32 := 0
def RIL_HARDWARE_CONFIG_SIM : Int32 := 1
def RIL_NUM_TX_POWER_LEVELS : Nat := 5

structure SuppSvcNotification (Text : Type) where
  notificationType : Int32
  code : Int32
  index : Int32
  type : Int32
  number : Option Text
  deriving DecidableEq, Repr

structure SignalInfoRecord where
  isPresent : Int32
  signalType : Int32
  alertPitch : Int32
  signal : Int32
  deriving DecidableEq, Repr

structure CallWaiting (Text : Type) where
  number : Option Text
  numberPresentation : Int32
  name : Option Text
  signalInfoRecord : SignalInfoRecord
  number_type : Int32
  number_plan : Int32
  deriving DecidableEq, Repr

-- The two ints of an older response stand where the first two fields of v7 do.
structure SimRefresh (Text : Type) where
  result : Int32
  ef_id : Int32
  aid : Option Text
  deriving DecidableEq, Repr

structure CellGsm where
  mcc : Int32
  mnc : Int32
  lac : Int32
  cid : Int32
  signalStrength : Int32
  bitErrorRate : Int32
  deriving DecidableEq, Repr

structure CellWcdma where
  mcc : Int32
  mnc : Int32
  lac : Int32
  cid : Int32
  psc : Int32
  signalStrength : Int32
  bitErrorRate : Int32
  deriving DecidableEq, Repr

structure CellCdma where
  networkId : Int32
  systemId : Int32
  basestationId : Int32
  longitude : Int32
  latitude : Int32
  cdmaDbm : Int32
  cdmaEcio : Int32
  evdoDbm : Int32
  evdoEcio : Int32
  signalNoiseRatio : Int32
  deriving DecidableEq, Repr

structure CellLte where
  mcc : Int32
  mnc : Int32
  ci : Int32
  pci : Int32
  tac : Int32
  signalStrength : Int32
  rsrp : Int32
  rsrq : Int32
  rssnr : Int32
  cqi : Int32
  timingAdvance : Int32
  deriving DecidableEq, Repr

structure CellTdscdma where
  mcc : Int32
  mnc : Int32
  lac : Int32
  cid : Int32
  cpid : Int32
  rscp : Int32
  deriving DecidableEq, Repr

def Listed (cellInfoType : Int32) : Prop :=
  cellInfoType = RIL_CELL_INFO_TYPE_GSM ∨ cellInfoType = RIL_CELL_INFO_TYPE_WCDMA ∨
    cellInfoType = RIL_CELL_INFO_TYPE_CDMA ∨ cellInfoType = RIL_CELL_INFO_TYPE_LTE ∨
    cellInfoType = RIL_CELL_INFO_TYPE_TD_SCDMA

instance (cellInfoType : Int32) : Decidable (Listed cellInfoType) :=
  inferInstanceAs (Decidable (_ ∨ _))

inductive CellInfo where
  | gsm (gsm : CellGsm)
  | wcdma (wcdma : CellWcdma)
  | cdma (cdma : CellCdma)
  | lte (lte : CellLte)
  | tdscdma (tdscdma : CellTdscdma)
  | other (cellInfoType : Int32) (unlisted : ¬Listed cellInfoType)
  deriving DecidableEq, Repr

def CellInfo.cellInfoType : CellInfo → Int32
  | .gsm _ => RIL_CELL_INFO_TYPE_GSM
  | .wcdma _ => RIL_CELL_INFO_TYPE_WCDMA
  | .cdma _ => RIL_CELL_INFO_TYPE_CDMA
  | .lte _ => RIL_CELL_INFO_TYPE_LTE
  | .tdscdma _ => RIL_CELL_INFO_TYPE_TD_SCDMA
  | .other cellInfoType _ => cellInfoType

structure CellInfoRecord where
  registered : Int32
  timeStampType : Int32
  timeStamp : Int64
  CellInfo : CellInfo
  deriving DecidableEq, Repr

inductive HardwareConfig (Text : Type) where
  | modem (uuid : Text) (state rat maxVoice maxData maxStandby : Int32)
  | sim (uuid : Text) (state : Int32) (modemUuid : Text)
  | other (type : Int32) (unlisted : type ≠ RIL_HARDWARE_CONFIG_MODEM ∧ type ≠ RIL_HARDWARE_CONFIG_SIM)
  deriving DecidableEq, Repr

structure DcRtInfo where
  time : Int64
  powerState : Int32
  deriving DecidableEq, Repr

structure RadioCapability (Text : Type) where
  version : Int32
  session : Int32
  phase : Int32
  rat : Int32
  logicalModemUuid : Text
  status : Int32
  deriving DecidableEq, Repr

structure LceStatusInfo where
  lce_status : UInt8
  actual_interval_ms : Int32
  deriving DecidableEq, Repr

structure LceDataInfo where
  last_hop_capacity_kbps : Int32
  confidence_level : UInt8
  lce_suspended : UInt8
  deriving DecidableEq, Repr

structure ActivityStatsInfo where
  sleep_mode_time_ms : Int32
  idle_mode_time_ms : Int32
  tx_mode_time_ms : Fin RIL_NUM_TX_POWER_LEVELS → Int32
  rx_mode_time_ms : Int32

structure Sizes where
  suppSvcNotification : Nat
  signalInfoRecord : Nat
  callWaitingV6 : Nat
  cellInfo : Nat
  hardwareConfig : Nat
  dcRtInfo : Nat
  radioCapability : Nat
  lceStatusInfo : Nat
  lceDataInfo : Nat
  activityStatsInfo : Nat
  twoWords : 2 ≤ cellInfo ∧ 2 ≤ hardwareConfig

def writeByte (value : UInt8) : List UInt8 := writeBlock (fun _ => value) 1

def writeInt64 (value : Int64) : List UInt8 := le64 value.toInt

section Functions
variable {Text : Type} (writeString : Option Text → List UInt8)

def sized {α : Type} (size : Nat) (write : α → List UInt8) (response : Option α)
    (responselen : UInt32) : Marshalled :=
  match response with
  | none => invalid
  | some p_cur => if responselen.toNat ≠ size then invalid else (write p_cur,0)

def structs {α : Type} (size : Nat) (write : α → List UInt8) (response : Option (Nat → α))
    (responselen : UInt32) : Marshalled :=
  if response.isNone ∧ responselen ≠ 0 then invalid
  else if responselen.toNat%size ≠ 0 then invalid
  else
    let num := responselen.toNat/size
    match response with
    | none => (writeSize num,0)
    | some p_cur => (writeSize num ++ ((List.range num).map p_cur).flatMap write,0)

def writeSsn (p_cur : SuppSvcNotification Text) : List UInt8 :=
  writeInt32 p_cur.notificationType ++ writeInt32 p_cur.code ++ writeInt32 p_cur.index ++
    writeInt32 p_cur.type ++ writeString p_cur.number

def responseSsn (sizes : Sizes) : Option (SuppSvcNotification Text) → UInt32 → Marshalled :=
  sized sizes.suppSvcNotification (writeSsn writeString)

def marshallSignalInfoRecord (p_signalInfoRecord : SignalInfoRecord) : List UInt8 :=
  writeInt32 p_signalInfoRecord.isPresent ++ writeInt32 p_signalInfoRecord.signalType ++
    writeInt32 p_signalInfoRecord.alertPitch ++ writeInt32 p_signalInfoRecord.signal

def responseCdmaSignalInfoRecord (sizes : Sizes) (response : Option SignalInfoRecord)
    (responselen : UInt32) : Marshalled :=
  match response with
  | none => invalid
  | some p_cur =>
    if responselen = 0 then invalid
    else if responselen.toNat ≠ sizes.signalInfoRecord then invalid
    else (marshallSignalInfoRecord p_cur,0)

def responseCallRing (sizes : Sizes) (response : Option SignalInfoRecord) (responselen : UInt32) :
    Marshalled :=
  if response.isNone ∨ responselen = 0 then ([],0)
  else responseCdmaSignalInfoRecord sizes response responselen

-- Nothing where the function goes through a pointer that is NULL.
def responseCdmaCallWaiting (sizes : Sizes) (response : Option (CallWaiting Text))
    (responselen : UInt32) : Option Marshalled :=
  match response with
  | none => if responselen ≠ 0 then some invalid else none
  | some p_cur =>
    let front := writeString p_cur.number ++ writeInt32 p_cur.numberPresentation ++
      writeString p_cur.name ++ marshallSignalInfoRecord p_cur.signalInfoRecord
    if sizes.callWaitingV6 ≤ responselen.toNat then
      some (front ++ writeInt32 p_cur.number_type ++ writeInt32 p_cur.number_plan,0)
    else some (front ++ writeInt32 0 ++ writeInt32 0,0)

def responseSimRefresh (version : Int) (response : Option (SimRefresh Text)) (responselen : UInt32) :
    Option Marshalled :=
  match response with
  | none => if responselen ≠ 0 then some invalid else none
  | some p_cur =>
    let aid := if version = 7 then p_cur.aid else none
    some (writeInt32 p_cur.result ++ writeInt32 p_cur.ef_id ++ writeString aid,0)

def CellInfo.ints : CellInfo → List Int32
  | .gsm c => [c.mcc,c.mnc,c.lac,c.cid,c.signalStrength,c.bitErrorRate]
  | .wcdma c => [c.mcc,c.mnc,c.lac,c.cid,c.psc,c.signalStrength,c.bitErrorRate]
  | .cdma c => [c.networkId,c.systemId,c.basestationId,c.longitude,c.latitude,c.cdmaDbm,c.cdmaEcio,
      c.evdoDbm,c.evdoEcio,c.signalNoiseRatio]
  | .lte c => [c.mcc,c.mnc,c.ci,c.pci,c.tac,c.signalStrength,c.rsrp,c.rsrq,c.rssnr,c.cqi,
      c.timingAdvance]
  | .tdscdma c => [c.mcc,c.mnc,c.lac,c.cid,c.cpid,c.rscp]
  | .other _ _ => []

def writeCellInfo (p_cur : CellInfoRecord) : List UInt8 :=
  writeInt32 p_cur.CellInfo.cellInfoType ++ writeInt32 p_cur.registered ++
    writeInt32 p_cur.timeStampType ++ writeInt64 p_cur.timeStamp ++
    p_cur.CellInfo.ints.flatMap writeInt32

def responseCellInfoList (sizes : Sizes) : Option (Nat → CellInfoRecord) → UInt32 → Marshalled :=
  structs sizes.cellInfo writeCellInfo

def writeHardwareConfig : HardwareConfig Text → List UInt8
  | .modem uuid state rat maxVoice maxData maxStandby =>
    writeString (some uuid) ++ writeInt32 state ++ writeInt32 rat ++ writeInt32 maxVoice ++
      writeInt32 maxData ++ writeInt32 maxStandby
  | .sim uuid state modemUuid =>
    writeString (some uuid) ++ writeInt32 state ++ writeString (some modemUuid)
  | .other _ _ => []

def responseHardwareConfig (sizes : Sizes) :
    Option (Nat → HardwareConfig Text) → UInt32 → Marshalled :=
  structs sizes.hardwareConfig (writeHardwareConfig writeString)

def writeDcRtInfo (pDcRtInfo : DcRtInfo) : List UInt8 :=
  writeInt64 pDcRtInfo.time ++ writeInt32 pDcRtInfo.powerState

def responseDcRtInfo (sizes : Sizes) (response : Option DcRtInfo) (responselen : UInt32) :
    Option Marshalled :=
  let num := responselen.toNat/sizes.dcRtInfo
  if responselen.toNat%sizes.dcRtInfo ≠ 0 ∨ num ≠ 1 then some invalid
  else response.map fun pDcRtInfo => (writeDcRtInfo pDcRtInfo,0)

def writeRadioCapability (p_cur : RadioCapability Text) : List UInt8 :=
  writeInt32 p_cur.version ++ writeInt32 p_cur.session ++ writeInt32 p_cur.phase ++
    writeInt32 p_cur.rat ++ writeString (some p_cur.logicalModemUuid) ++ writeInt32 p_cur.status

def responseRadioCapability (sizes : Sizes) : Option (RadioCapability Text) → UInt32 → Marshalled :=
  sized sizes.radioCapability (writeRadioCapability writeString)

def writeLceStatus (p_cur : LceStatusInfo) : List UInt8 :=
  writeByte p_cur.lce_status ++ writeInt32 p_cur.actual_interval_ms

def responseLceStatus (sizes : Sizes) : Option LceStatusInfo → UInt32 → Marshalled :=
  sized sizes.lceStatusInfo writeLceStatus

def writeLceData (p_cur : LceDataInfo) : List UInt8 :=
  writeInt32 p_cur.last_hop_capacity_kbps ++ writeByte p_cur.confidence_level ++
    writeByte p_cur.lce_suspended

def responseLceData (sizes : Sizes) : Option LceDataInfo → UInt32 → Marshalled :=
  sized sizes.lceDataInfo writeLceData

def writeActivityData (p_cur : ActivityStatsInfo) : List UInt8 :=
  writeInt32 p_cur.sleep_mode_time_ms ++ writeInt32 p_cur.idle_mode_time_ms ++
    (List.ofFn p_cur.tx_mode_time_ms).flatMap writeInt32 ++ writeInt32 p_cur.rx_mode_time_ms

def responseActivityData (sizes : Sizes) : Option ActivityStatsInfo → UInt32 → Marshalled :=
  sized sizes.activityStatsInfo writeActivityData

end Functions

section Readers
variable {Text : Type} (string : Codec (Option Text))

def readByte : Reader UInt8 := do
  let bytes ← readBlock 1
  pure (bytes.getD 0 0)

def readInt64 : Reader Int64 := do
  let low ← readInt
  let high ← readInt
  pure (Int64.ofInt (low.toInt%2^32+2^32*high.toInt))

def readText : Reader Text := do
  let s ← string.read
  match s with
  | some text => pure text
  | none => failure

def readSsn : Reader (SuppSvcNotification Text) := do
  let notificationType ← readInt
  let code ← readInt
  let index ← readInt
  let type ← readInt
  let number ← string.read
  pure ⟨notificationType,code,index,type,number⟩

def readSignalInfoRecord : Reader SignalInfoRecord := do
  let isPresent ← readInt
  let signalType ← readInt
  let alertPitch ← readInt
  let signal ← readInt
  pure ⟨isPresent,signalType,alertPitch,signal⟩

def readCallRing : Reader (Option SignalInfoRecord) := fun p =>
  if p.avail = 0 then some (none,p) else (readSignalInfoRecord >>= fun r => pure (some r)) p

def readCallWaiting : Reader (CallWaiting Text) := do
  let number ← string.read
  let numberPresentation ← readInt
  let name ← string.read
  let signalInfoRecord ← readSignalInfoRecord
  let number_type ← readInt
  let number_plan ← readInt
  pure ⟨number,numberPresentation,name,signalInfoRecord,number_type,number_plan⟩

def readSimRefresh : Reader (SimRefresh Text) := do
  let result ← readInt
  let ef_id ← readInt
  let aid ← string.read
  pure ⟨result,ef_id,aid⟩

def cellOf (cellInfoType : Int32) (ints : List Int32) : Option CellInfo :=
  if cellInfoType = RIL_CELL_INFO_TYPE_GSM then
    match ints with
    | [a,b,c,d,e,f] => some (.gsm ⟨a,b,c,d,e,f⟩)
    | _ => none
  else if cellInfoType = RIL_CELL_INFO_TYPE_WCDMA then
    match ints with
    | [a,b,c,d,e,f,g] => some (.wcdma ⟨a,b,c,d,e,f,g⟩)
    | _ => none
  else if cellInfoType = RIL_CELL_INFO_TYPE_CDMA then
    match ints with
    | [a,b,c,d,e,f,g,h,i,j] => some (.cdma ⟨a,b,c,d,e,f,g,h,i,j⟩)
    | _ => none
  else if cellInfoType = RIL_CELL_INFO_TYPE_LTE then
    match ints with
    | [a,b,c,d,e,f,g,h,i,j,k] => some (.lte ⟨a,b,c,d,e,f,g,h,i,j,k⟩)
    | _ => none
  else if cellInfoType = RIL_CELL_INFO_TYPE_TD_SCDMA then
    match ints with
    | [a,b,c,d,e,f] => some (.tdscdma ⟨a,b,c,d,e,f⟩)
    | _ => none
  else if unlisted : ¬Listed cellInfoType then some (.other cellInfoType unlisted)
  else none

def cellInts (cellInfoType : Int32) : Nat :=
  if cellInfoType = RIL_CELL_INFO_TYPE_GSM then 6
  else if cellInfoType = RIL_CELL_INFO_TYPE_WCDMA then 7
  else if cellInfoType = RIL_CELL_INFO_TYPE_CDMA then 10
  else if cellInfoType = RIL_CELL_INFO_TYPE_LTE then 11
  else if cellInfoType = RIL_CELL_INFO_TYPE_TD_SCDMA then 6
  else 0

def readCellInfo : Reader CellInfoRecord := do
  let cellInfoType ← readInt
  let registered ← readInt
  let timeStampType ← readInt
  let timeStamp ← readInt64
  let ints ← readMany readInt (cellInts cellInfoType)
  match cellOf cellInfoType ints with
  | some cell => pure ⟨registered,timeStampType,timeStamp,cell⟩
  | none => failure

def HardwareConfig.type : HardwareConfig Text → Int32
  | .modem .. => RIL_HARDWARE_CONFIG_MODEM
  | .sim .. => RIL_HARDWARE_CONFIG_SIM
  | .other type _ => type

def readHardwareConfig (type : Int32) : Reader (HardwareConfig Text) :=
  if type = RIL_HARDWARE_CONFIG_MODEM then do
    let uuid ← readText string
    let state ← readInt
    let rat ← readInt
    let maxVoice ← readInt
    let maxData ← readInt
    let maxStandby ← readInt
    pure (.modem uuid state rat maxVoice maxData maxStandby)
  else if type = RIL_HARDWARE_CONFIG_SIM then do
    let uuid ← readText string
    let state ← readInt
    let modemUuid ← readText string
    pure (.sim uuid state modemUuid)
  else if unlisted : type ≠ RIL_HARDWARE_CONFIG_MODEM ∧ type ≠ RIL_HARDWARE_CONFIG_SIM then
    pure (.other type unlisted)
  else failure

def readHardwareConfigs (types : List Int32) : Reader (List (HardwareConfig Text)) := do
  let _ ← readInt
  types.mapM (readHardwareConfig string)

def readDcRtInfo : Reader DcRtInfo := do
  let time ← readInt64
  let powerState ← readInt
  pure ⟨time,powerState⟩

def readRadioCapability : Reader (RadioCapability Text) := do
  let version ← readInt
  let session ← readInt
  let phase ← readInt
  let rat ← readInt
  let logicalModemUuid ← readText string
  let status ← readInt
  pure ⟨version,session,phase,rat,logicalModemUuid,status⟩

def readLceStatus : Reader LceStatusInfo := do
  let lce_status ← readByte
  let actual_interval_ms ← readInt
  pure ⟨lce_status,actual_interval_ms⟩

def readLceData : Reader LceDataInfo := do
  let last_hop_capacity_kbps ← readInt
  let confidence_level ← readByte
  let lce_suspended ← readByte
  pure ⟨last_hop_capacity_kbps,confidence_level,lce_suspended⟩

def readActivityData : Reader ActivityStatsInfo := do
  let sleep_mode_time_ms ← readInt
  let idle_mode_time_ms ← readInt
  let tx ← readMany readInt RIL_NUM_TX_POWER_LEVELS
  let rx_mode_time_ms ← readInt
  pure ⟨sleep_mode_time_ms,idle_mode_time_ms,fun i => tx.getD i 0,rx_mode_time_ms⟩

end Readers

section Records
variable {Text : Type} (string : Codec (Option Text))

theorem byte_roundtrip (value : UInt8) : Decodes readByte (writeByte value) value := by
  have block : Decodes (readBlock 1) (writeByte value) [value] :=
    writeBlock_decodes (fun _ => value) (by decide)
  exact decodes_map block

theorem word_of_int (value : Int) : (Int32.ofInt value).toInt%2^32 = value%2^32 := by
  rw [Int32.toInt_ofInt]
  exact @Int.bmod_emod value Int32.size

theorem halves {value : Int} (low : -2^63 ≤ value) (high : value < 2^63) :
    (Int32.ofInt (value%2^32)).toInt%2^32+2^32*(Int32.ofInt (value/2^32)).toInt = value := by
  have upper : (Int32.ofInt (value/2^32)).toInt = value/2^32 :=
    Int32.toInt_ofInt_of_le (by omega) (by omega)
  rw [word_of_int,upper]
  omega

theorem le32_of_int (value : Int) : le32 (Int32.ofInt value).toInt = le32 value := by
  simp only [le32,sizeT,word_of_int]

theorem half_roundtrip (value : Int) : Decodes readInt (le32 value) (Int32.ofInt value) := by
  rw [←le32_of_int]
  exact int_roundtrip (Int32.ofInt value)

theorem int64_roundtrip (value : Int64) : Decodes readInt64 (writeInt64 value) value := by
  have found := halves (Int64.le_toInt value) (Int64.toInt_lt value)
  have both : Decodes readInt64 (writeInt64 value) (Int64.ofInt
      ((Int32.ofInt (value.toInt%2^32)).toInt%2^32+2^32*(Int32.ofInt (value.toInt/2^32)).toInt)) := by
    apply decodes_bind (half_roundtrip (value.toInt%2^32))
    exact decodes_map (half_roundtrip (value.toInt/2^32))
  rw [found,Int64.ofInt_toInt] at both
  exact both

theorem text_roundtrip (text : Text) : Decodes (readText string) (string.write (some text)) text := by
  have both : Decodes (readText string) (string.write (some text) ++ []) text :=
    decodes_bind (string.roundtrip (some text)) (decodes_pure text)
  rwa [List.append_nil] at both

theorem ints_roundtrip (values : List Int32) :
    Decodes (readMany readInt values.length) (values.flatMap writeInt32) values := by
  have each : ∀ value ∈ values,Decodes readInt (writeInt32 value) (id value) :=
    fun value _ => int_roundtrip value
  have many := decodes_many each
  rwa [List.map_id] at many

theorem writeSsn_decodes (p_cur : SuppSvcNotification Text) :
    Decodes (readSsn string) (writeSsn string.write p_cur) p_cur := by
  simp only [writeSsn,List.append_assoc]
  apply decodes_bind (int_roundtrip p_cur.notificationType)
  apply decodes_bind (int_roundtrip p_cur.code)
  apply decodes_bind (int_roundtrip p_cur.index)
  apply decodes_bind (int_roundtrip p_cur.type)
  exact decodes_map (string.roundtrip p_cur.number)

theorem signalInfoRecord_decodes (r : SignalInfoRecord) :
    Decodes readSignalInfoRecord (marshallSignalInfoRecord r) r := by
  simp only [marshallSignalInfoRecord,List.append_assoc]
  apply decodes_bind (int_roundtrip r.isPresent)
  apply decodes_bind (int_roundtrip r.signalType)
  apply decodes_bind (int_roundtrip r.alertPitch)
  exact decodes_map (int_roundtrip r.signal)

theorem callWaiting_decodes (number name : Option Text) (numberPresentation number_type number_plan : Int32)
    (r : SignalInfoRecord) :
    Decodes (readCallWaiting string)
      (string.write number ++ writeInt32 numberPresentation ++ string.write name ++
        marshallSignalInfoRecord r ++ writeInt32 number_type ++ writeInt32 number_plan)
      ⟨number,numberPresentation,name,r,number_type,number_plan⟩ := by
  simp only [List.append_assoc]
  apply decodes_bind (string.roundtrip number)
  apply decodes_bind (int_roundtrip numberPresentation)
  apply decodes_bind (string.roundtrip name)
  apply decodes_bind (signalInfoRecord_decodes r)
  apply decodes_bind (int_roundtrip number_type)
  exact decodes_map (int_roundtrip number_plan)

theorem simRefresh_decodes (result ef_id : Int32) (aid : Option Text) :
    Decodes (readSimRefresh string) (writeInt32 result ++ writeInt32 ef_id ++ string.write aid)
      ⟨result,ef_id,aid⟩ := by
  simp only [List.append_assoc]
  apply decodes_bind (int_roundtrip result)
  apply decodes_bind (int_roundtrip ef_id)
  exact decodes_map (string.roundtrip aid)

theorem cell_counted (cell : CellInfo) : cell.ints.length = cellInts cell.cellInfoType := by
  cases cell with
  | other cellInfoType unlisted =>
    simp only [Listed,not_or] at unlisted
    simp [CellInfo.ints,CellInfo.cellInfoType,cellInts,unlisted]
  | _ => rfl

theorem cell_recovered (cell : CellInfo) : cellOf cell.cellInfoType cell.ints = some cell := by
  cases cell with
  | other cellInfoType unlisted =>
    have away := unlisted
    simp only [Listed,not_or] at away
    simp [CellInfo.cellInfoType,cellOf,away,unlisted]
  | _ => rfl

theorem writeCellInfo_decodes (p_cur : CellInfoRecord) :
    Decodes readCellInfo (writeCellInfo p_cur) p_cur := by
  simp only [writeCellInfo,List.append_assoc]
  apply decodes_bind (int_roundtrip p_cur.CellInfo.cellInfoType)
  apply decodes_bind (int_roundtrip p_cur.registered)
  apply decodes_bind (int_roundtrip p_cur.timeStampType)
  apply decodes_bind (int64_roundtrip p_cur.timeStamp)
  have ints := ints_roundtrip p_cur.CellInfo.ints
  rw [cell_counted] at ints
  rw [←List.append_nil (List.flatMap _ _)]
  apply decodes_bind ints
  rw [cell_recovered]
  exact decodes_pure p_cur

theorem writeHardwareConfig_decodes (p_cur : HardwareConfig Text) :
    Decodes (readHardwareConfig string p_cur.type) (writeHardwareConfig string.write p_cur) p_cur := by
  cases p_cur with
  | modem uuid state rat maxVoice maxData maxStandby =>
    simp only [writeHardwareConfig,List.append_assoc]
    apply decodes_bind (text_roundtrip string uuid)
    apply decodes_bind (int_roundtrip state)
    apply decodes_bind (int_roundtrip rat)
    apply decodes_bind (int_roundtrip maxVoice)
    apply decodes_bind (int_roundtrip maxData)
    exact decodes_map (int_roundtrip maxStandby)
  | sim uuid state modemUuid =>
    simp only [writeHardwareConfig,List.append_assoc]
    apply decodes_bind (text_roundtrip string uuid)
    apply decodes_bind (int_roundtrip state)
    exact decodes_map (text_roundtrip string modemUuid)
  | other type unlisted =>
    rw [readHardwareConfig,HardwareConfig.type,if_neg unlisted.1,if_neg unlisted.2,dif_pos unlisted]
    exact decodes_pure _

theorem hardwareConfigs_decode (configs : List (HardwareConfig Text)) :
    Decodes ((configs.map HardwareConfig.type).mapM (readHardwareConfig string))
      (configs.flatMap (writeHardwareConfig string.write)) configs := by
  induction configs with
  | nil => exact decodes_pure []
  | cons config rest ih =>
    rw [List.map_cons,List.mapM_cons]
    exact decodes_bind (writeHardwareConfig_decodes string config) (decodes_map ih)

theorem writeDcRtInfo_decodes (info : DcRtInfo) : Decodes readDcRtInfo (writeDcRtInfo info) info := by
  apply decodes_bind (int64_roundtrip info.time)
  exact decodes_map (int_roundtrip info.powerState)

theorem writeRadioCapability_decodes (p_cur : RadioCapability Text) :
    Decodes (readRadioCapability string) (writeRadioCapability string.write p_cur) p_cur := by
  simp only [writeRadioCapability,List.append_assoc]
  apply decodes_bind (int_roundtrip p_cur.version)
  apply decodes_bind (int_roundtrip p_cur.session)
  apply decodes_bind (int_roundtrip p_cur.phase)
  apply decodes_bind (int_roundtrip p_cur.rat)
  apply decodes_bind (text_roundtrip string p_cur.logicalModemUuid)
  exact decodes_map (int_roundtrip p_cur.status)

theorem writeLceStatus_decodes (p_cur : LceStatusInfo) :
    Decodes readLceStatus (writeLceStatus p_cur) p_cur := by
  apply decodes_bind (byte_roundtrip p_cur.lce_status)
  exact decodes_map (int_roundtrip p_cur.actual_interval_ms)

theorem writeLceData_decodes (p_cur : LceDataInfo) :
    Decodes readLceData (writeLceData p_cur) p_cur := by
  simp only [writeLceData,List.append_assoc]
  apply decodes_bind (int_roundtrip p_cur.last_hop_capacity_kbps)
  apply decodes_bind (byte_roundtrip p_cur.confidence_level)
  exact decodes_map (byte_roundtrip p_cur.lce_suspended)

theorem writeActivityData_decodes (p_cur : ActivityStatsInfo) :
    Decodes readActivityData (writeActivityData p_cur) p_cur := by
  simp only [writeActivityData,List.append_assoc]
  apply decodes_bind (int_roundtrip p_cur.sleep_mode_time_ms)
  apply decodes_bind (int_roundtrip p_cur.idle_mode_time_ms)
  have levels : Decodes (readMany readInt RIL_NUM_TX_POWER_LEVELS)
      ((List.ofFn p_cur.tx_mode_time_ms).flatMap writeInt32) (List.ofFn p_cur.tx_mode_time_ms) := by
    have ints := ints_roundtrip (List.ofFn p_cur.tx_mode_time_ms)
    rwa [List.length_ofFn] at ints
  apply decodes_bind levels
  have same : (fun i : Fin RIL_NUM_TX_POWER_LEVELS => (List.ofFn p_cur.tx_mode_time_ms).getD i 0) =
      p_cur.tx_mode_time_ms := by
    funext i
    simp
  simp only [same]
  exact decodes_map (int_roundtrip p_cur.rx_mode_time_ms)

end Records

-- Where the function returns 0, the reader takes the fields from the payload and
-- stops at its end.
def Recovers {M α : Type} (run : Option M → UInt32 → Option Marshalled) (read : Reader α)
    (fields : Option M → UInt32 → Option α) : Prop :=
  ∀ response responselen payload, run response responselen = some (payload,0) →
    ∃ value, fields response responselen = some value ∧
      read (setData payload) = some (value,⟨payload,payload.length⟩)

def total {M : Type} (run : Option M → UInt32 → Marshalled) (response : Option M)
    (responselen : UInt32) : Option Marshalled := some (run response responselen)

theorem invalid_fails {payload : List UInt8} (ran : some invalid = some (payload,(0 : Int))) : False := by
  simp [invalid,RIL_ERRNO_INVALID_RESPONSE] at ran

theorem recovers_sized {α : Type} {size : Nat} {write : α → List UInt8} {read : Reader α}
    (each : ∀ p_cur,Decodes read (write p_cur) p_cur) :
    Recovers (total (sized size write)) read (fun response _ => response) := by
  intro response responselen payload ran
  cases response with
  | none => exact (invalid_fails ran).elim
  | some p_cur =>
    simp only [total,sized] at ran
    split at ran
    · exact (invalid_fails ran).elim
    · cases ran
      exact ⟨p_cur,rfl,(each p_cur).whole⟩

def behind {α : Type} (size : Nat) (response : Option (Nat → α)) (responselen : UInt32) : List α :=
  match response with
  | none => []
  | some p_cur => (List.range (responselen.toNat/size)).map p_cur

theorem structs_written {α : Type} {size : Nat} (wide : 2 ≤ size) {write : α → List UInt8}
    {response : Option (Nat → α)} {responselen : UInt32} {payload : List UInt8}
    (ran : total (structs size write) response responselen = some (payload,0)) :
    ∃ count : Int32, count.toInt.toNat = (behind size response responselen).length ∧
      payload = le32 count.toInt ++ (behind size response responselen).flatMap write := by
  have bound : responselen.toNat/size < 2^31 := by
    have full := responselen.toNat_lt
    have less := Nat.div_le_div_left wide (by omega : 0 < 2) (a := responselen.toNat)
    omega
  have count : (Int32.ofNat (responselen.toNat/size)).toInt = (responselen.toNat/size : Nat) :=
    Int32.toInt_ofNat_of_lt bound
  simp only [total,structs] at ran
  split at ran
  · exact (invalid_fails ran).elim
  · rename_i pointer
    split at ran
    · exact (invalid_fails ran).elim
    · refine ⟨Int32.ofNat (responselen.toNat/size),?_,?_⟩
      · rw [count,Int.toNat_natCast]
        cases response with
        | none =>
          have zero : responselen = 0 := by simpa using pointer
          simp [behind,zero]
        | some p_cur => simp [behind]
      · rw [count]
        cases response with
        | none =>
          cases ran
          simp [behind,writeSize]
        | some p_cur =>
          cases ran
          rfl

theorem recovers_structs {α : Type} {size : Nat} (wide : 2 ≤ size) {write : α → List UInt8}
    {read : Reader α} (each : ∀ p_cur,Decodes read (write p_cur) p_cur) :
    Recovers (total (structs size write)) (counted read)
      (fun response responselen => some (behind size response responselen)) := by
  intro response responselen payload ran
  obtain ⟨count,length,rfl⟩ := structs_written wide ran
  have every : ∀ record ∈ behind size response responselen,
      Decodes read (write record) (id record) := fun record _ => each record
  have whole := counted_roundtrip length every
  rw [List.map_id] at whole
  exact ⟨_,rfl,whole.whole⟩

theorem recovers_signal (sizes : Sizes) :
    Recovers (total (responseCdmaSignalInfoRecord sizes)) readSignalInfoRecord
      (fun response _ => response) := by
  intro response responselen payload ran
  cases response with
  | none => exact (invalid_fails ran).elim
  | some p_cur =>
    simp only [total,responseCdmaSignalInfoRecord] at ran
    split at ran
    · exact (invalid_fails ran).elim
    · split at ran
      · exact (invalid_fails ran).elim
      · cases ran
        exact ⟨p_cur,rfl,(signalInfoRecord_decodes p_cur).whole⟩

def ringFields (response : Option SignalInfoRecord) (responselen : UInt32) :
    Option (Option SignalInfoRecord) := some (if responselen = 0 then none else response)

theorem recovers_callRing (sizes : Sizes) :
    Recovers (total (responseCallRing sizes)) readCallRing ringFields := by
  intro response responselen payload ran
  simp only [total,responseCallRing] at ran
  split at ran
  · rename_i nothing
    cases ran
    refine ⟨none,?_,rfl⟩
    unfold ringFields
    split
    · rfl
    · rename_i some_length
      rw [Option.isNone_iff_eq_none.mp (nothing.resolve_right some_length)]
  · rename_i something
    obtain ⟨there,length⟩ := not_or.mp something
    obtain ⟨value,found,read⟩ := recovers_signal sizes response responselen payload ran
    refine ⟨some value,?_,?_⟩
    · rw [ringFields,if_neg length]
      exact congrArg some found
    · have filled : (setData payload).avail ≠ 0 := by
        intro empty
        have nothing : payload = [] := List.eq_nil_of_length_eq_zero empty
        rw [nothing] at read
        cases read
      simp only [readCallRing,if_neg filled,bind,StateT.bind,read,Option.bind_some]
      rfl

def waitingFields {Text : Type} (sizes : Sizes) (response : Option (CallWaiting Text))
    (responselen : UInt32) : Option (CallWaiting Text) :=
  response.map fun p_cur =>
    if sizes.callWaitingV6 ≤ responselen.toNat then p_cur
    else {p_cur with number_type := 0, number_plan := 0}

theorem recovers_callWaiting {Text : Type} (string : Codec (Option Text)) (sizes : Sizes) :
    Recovers (responseCdmaCallWaiting string.write sizes) (readCallWaiting string)
      (waitingFields sizes) := by
  intro response responselen payload ran
  cases response with
  | none =>
    simp only [responseCdmaCallWaiting] at ran
    split at ran
    · exact (invalid_fails ran).elim
    · cases ran
  | some p_cur =>
    simp only [responseCdmaCallWaiting] at ran
    simp only [waitingFields,Option.map_some]
    split at ran
    · rename_i upgraded
      cases ran
      rw [if_pos upgraded]
      exact ⟨p_cur,rfl,(callWaiting_decodes string _ _ _ _ _ _).whole⟩
    · rename_i older
      cases ran
      rw [if_neg older]
      exact ⟨_,rfl,(callWaiting_decodes string _ _ _ 0 0 _).whole⟩

-- The aid is lost for every version but 7, newer ones included.
def refreshFields {Text : Type} (version : Int) (response : Option (SimRefresh Text)) (_ : UInt32) :
    Option (SimRefresh Text) :=
  response.map fun p_cur => if version = 7 then p_cur else {p_cur with aid := none}

theorem recovers_simRefresh {Text : Type} (string : Codec (Option Text)) (version : Int) :
    Recovers (responseSimRefresh string.write version) (readSimRefresh string)
      (refreshFields version) := by
  intro response responselen payload ran
  cases response with
  | none =>
    simp only [responseSimRefresh] at ran
    split at ran
    · exact (invalid_fails ran).elim
    · cases ran
  | some p_cur =>
    cases ran
    refine ⟨_,rfl,?_⟩
    have decodes := simRefresh_decodes string p_cur.result p_cur.ef_id (if version = 7 then p_cur.aid else none)
    by_cases seven : version = 7
    · simp only [if_pos seven] at decodes ⊢
      exact decodes.whole
    · simp only [if_neg seven] at decodes ⊢
      exact decodes.whole

theorem recovers_dcRtInfo (sizes : Sizes) :
    Recovers (responseDcRtInfo sizes) readDcRtInfo (fun response _ => response) := by
  intro response responselen payload ran
  simp only [responseDcRtInfo] at ran
  split at ran
  · exact (invalid_fails ran).elim
  · obtain ⟨info,rfl,written⟩ := Option.map_eq_some_iff.mp ran
    cases written
    exact ⟨info,rfl,(writeDcRtInfo_decodes info).whole⟩

theorem unsolicited_recovered {Text : Type} (string : Codec (Option Text)) (sizes : Sizes)
    (version : Int) :
    Recovers (total (responseSsn string.write sizes)) (readSsn string) (fun response _ => response) ∧
    Recovers (responseSimRefresh string.write version) (readSimRefresh string)
      (refreshFields version) ∧
    Recovers (total (responseCallRing sizes)) readCallRing ringFields ∧
    Recovers (responseCdmaCallWaiting string.write sizes) (readCallWaiting string)
      (waitingFields sizes) ∧
    Recovers (total (responseCellInfoList sizes)) (counted readCellInfo)
      (fun response responselen => some (behind sizes.cellInfo response responselen)) ∧
    Recovers (responseDcRtInfo sizes) readDcRtInfo (fun response _ => response) ∧
    Recovers (total (responseRadioCapability string.write sizes)) (readRadioCapability string)
      (fun response _ => response) ∧
    Recovers (total (responseLceStatus sizes)) readLceStatus (fun response _ => response) ∧
    Recovers (total (responseLceData sizes)) readLceData (fun response _ => response) ∧
    Recovers (total (responseActivityData sizes)) readActivityData (fun response _ => response) :=
  ⟨recovers_sized (writeSsn_decodes string),recovers_simRefresh string version,
    recovers_callRing sizes,recovers_callWaiting string sizes,
    recovers_structs sizes.twoWords.1 writeCellInfo_decodes,recovers_dcRtInfo sizes,
    recovers_sized (writeRadioCapability_decodes string),recovers_sized writeLceStatus_decodes,
    recovers_sized writeLceData_decodes,recovers_sized writeActivityData_decodes⟩

def sizes32 : Sizes := ⟨20,4,24,72,136,16,84,8,8,32,by decide⟩

def twoCells (i : Nat) : CellInfoRecord :=
  ⟨1,2,123456789012,if i = 0 then .lte ⟨1,2,3,4,5,6,7,8,9,10,11⟩ else .other 9 (by decide)⟩

theorem unsolicited_recovered_cells :
    ∃ list, behind 72 (some twoCells) 144 = list ∧
      counted readCellInfo (setData (responseCellInfoList sizes32 (some twoCells) 144).1) =
        some (list,⟨(responseCellInfoList sizes32 (some twoCells) 144).1,
          (responseCellInfoList sizes32 (some twoCells) 144).1.length⟩) := by
  obtain ⟨list,same,read⟩ := (unsolicited_recovered asciiCodec sizes32 7).2.2.2.2.1 (some twoCells) 144
    _ rfl
  exact ⟨list,Option.some.inj same,read⟩

section Hardware
variable {Text : Type}

theorem configs_recovered (string : Codec (Option Text)) (sizes : Sizes)
    (response : Option (Nat → HardwareConfig Text)) (responselen : UInt32) {payload : List UInt8}
    (ran : responseHardwareConfig string.write sizes response responselen = (payload,0)) :
    readHardwareConfigs string
        ((behind sizes.hardwareConfig response responselen).map HardwareConfig.type)
        (setData payload) =
      some (behind sizes.hardwareConfig response responselen,⟨payload,payload.length⟩) := by
  obtain ⟨count,-,rfl⟩ := structs_written sizes.twoWords.2 (congrArg some ran)
  have decodes : Decodes (readHardwareConfigs string
      ((behind sizes.hardwareConfig response responselen).map HardwareConfig.type))
      (le32 count.toInt ++ (behind sizes.hardwareConfig response responselen).flatMap
        (writeHardwareConfig string.write)) (behind sizes.hardwareConfig response responselen) := by
    apply decodes_bind (int_roundtrip count)
    exact hardwareConfigs_decode string _
  exact decodes.whole

theorem low_byte {n : Nat} {byte : UInt8} (same : n%2^8 = byte.toNat) : UInt8.ofNat n = byte := by
  apply UInt8.toNat_inj.mp
  rw [UInt8.toNat_ofNat']
  exact same

theorem word_of_bytes (w x y z : UInt8) : ∃ value : Int32,writeInt32 value = [w,x,y,z] := by
  refine ⟨Int32.ofInt (w.toNat+2^8*x.toNat+2^16*y.toNat+2^24*z.toNat : Nat),?_⟩
  have first := w.toNat_lt
  have second := x.toNat_lt
  have third := y.toNat_lt
  have fourth := z.toNat_lt
  have size : sizeT (w.toNat+2^8*x.toNat+2^16*y.toNat+2^24*z.toNat : Nat) =
      w.toNat+2^8*x.toNat+2^16*y.toNat+2^24*z.toNat := by
    unfold sizeT
    omega
  rw [writeInt32,le32_of_int,le32,size]
  simp only [List.cons.injEq,and_true]
  exact ⟨low_byte (by omega),low_byte (by omega),low_byte (by omega),low_byte (by omega)⟩

theorem four_ints {bytes : List UInt8} (sixteen : bytes.length = 16) :
    ∃ a b c d : Int32,writeInt32 a ++ writeInt32 b ++ writeInt32 c ++ writeInt32 d = bytes := by
  match bytes,sixteen with
  | [a0,a1,a2,a3,b0,b1,b2,b3,c0,c1,c2,c3,d0,d1,d2,d3],_ =>
    obtain ⟨a,first⟩ := word_of_bytes a0 a1 a2 a3
    obtain ⟨b,second⟩ := word_of_bytes b0 b1 b2 b3
    obtain ⟨c,third⟩ := word_of_bytes c0 c1 c2 c3
    obtain ⟨d,fourth⟩ := word_of_bytes d0 d1 d2 d3
    refine ⟨a,b,c,d,?_⟩
    rw [first,second,third,fourth]
    rfl

-- A SIM's record reads as a modem's where its last string fills four words.
theorem sim_as_modem (string : Codec (Option Text)) (uuid : Text) (state : Int32) {modemUuid : Text}
    (sixteen : (string.write (some modemUuid)).length = 16) :
    ∃ rat maxVoice maxData maxStandby,
      writeHardwareConfig string.write (.sim uuid state modemUuid) =
        writeHardwareConfig string.write (.modem uuid state rat maxVoice maxData maxStandby) := by
  obtain ⟨rat,maxVoice,maxData,maxStandby,same⟩ := four_ints sixteen
  refine ⟨rat,maxVoice,maxData,maxStandby,?_⟩
  rw [writeHardwareConfig,writeHardwareConfig,←same]
  simp only [List.append_assoc]

theorem configs_alike (writeString : Option Text → List UInt8) (sizes : Sizes)
    {one other : HardwareConfig Text}
    (alike : writeHardwareConfig writeString one = writeHardwareConfig writeString other)
    (p_cur : Nat → HardwareConfig Text) (i : Nat) (responselen : UInt32) :
    responseHardwareConfig writeString sizes (some (Function.update p_cur i one)) responselen =
      responseHardwareConfig writeString sizes (some (Function.update p_cur i other)) responselen := by
  have written : (fun j => writeHardwareConfig writeString (Function.update p_cur i one j)) =
      fun j => writeHardwareConfig writeString (Function.update p_cur i other j) := by
    funext j
    by_cases here : j = i
    · rw [here,Function.update_self,Function.update_self,alike]
    · rw [Function.update_of_ne here,Function.update_of_ne here]
  simp only [responseHardwareConfig,structs,List.flatMap_map,Option.isNone_some]
  rw [written]

theorem one_config (string : Codec (Option Text)) (sizes : Sizes) (small : sizes.hardwareConfig < 2^32)
    (p_cur : Nat → HardwareConfig Text) :
    ∃ payload, responseHardwareConfig string.write sizes (some p_cur)
        (UInt32.ofNat sizes.hardwareConfig) = (payload,0) ∧
      behind sizes.hardwareConfig (some p_cur) (UInt32.ofNat sizes.hardwareConfig) = [p_cur 0] := by
  have length : (UInt32.ofNat sizes.hardwareConfig).toNat = sizes.hardwareConfig :=
    UInt32.toNat_ofNat_of_lt' small
  have wide := sizes.twoWords.2
  have one : sizes.hardwareConfig/sizes.hardwareConfig = 1 := Nat.div_self (by omega)
  refine ⟨_,Prod.ext rfl ?_,?_⟩
  · rw [responseHardwareConfig,structs,length,Nat.mod_self,if_neg (by simp),if_neg (by simp)]
  · rw [behind,length,one]
    rfl

-- The payload does not say of which types the structs are: told, a client finds
-- the whole list, and otherwise there is none that does.
theorem hardware_types_lost (string : Codec (Option Text)) (sizes : Sizes) :
    (∀ response responselen payload,
      responseHardwareConfig string.write sizes response responselen = (payload,0) →
      readHardwareConfigs string
          ((behind sizes.hardwareConfig response responselen).map HardwareConfig.type)
          (setData payload) =
        some (behind sizes.hardwareConfig response responselen,⟨payload,payload.length⟩)) ∧
    ∀ modemUuid : Text,(string.write (some modemUuid)).length = 16 → sizes.hardwareConfig < 2^32 →
      ¬∃ read : Reader (List (HardwareConfig Text)),
        Recovers (total (responseHardwareConfig string.write sizes)) read
          (fun response responselen => some (behind sizes.hardwareConfig response responselen)) := by
  refine ⟨fun response responselen payload ran => configs_recovered string sizes response responselen ran,?_⟩
  intro modemUuid sixteen small
  rintro ⟨read,recovers⟩
  obtain ⟨rat,maxVoice,maxData,maxStandby,alike⟩ := sim_as_modem string modemUuid 0 sixteen
  have same := configs_alike string.write sizes alike (fun _ => .sim modemUuid 0 modemUuid) 0
    (UInt32.ofNat sizes.hardwareConfig)
  obtain ⟨payload,sim_sent,sim_list⟩ := one_config string sizes small
    (Function.update (fun _ => .sim modemUuid 0 modemUuid) 0 (.sim modemUuid 0 modemUuid))
  obtain ⟨_,modem_sent,modem_list⟩ := one_config string sizes small
    (Function.update (fun _ => .sim modemUuid 0 modemUuid) 0
      (.modem modemUuid 0 rat maxVoice maxData maxStandby))
  obtain ⟨list,here,found⟩ := recovers _ _ _ (congrArg some sim_sent)
  obtain ⟨other,there,also⟩ := recovers _ _ _ (congrArg some (same.symm.trans sim_sent))
  rw [found] at also
  cases also
  have equal := there.trans here.symm
  dsimp only at equal
  rw [sim_list,modem_list] at equal
  cases equal

end Hardware

def fourLetters : AsciiText := ⟨[0x73,0x69,0x6d,0x31],by simp [IsAscii,Fits,INT32_MAX]⟩

theorem hardware_types_lost_ascii :
    ¬∃ read : Reader (List (HardwareConfig AsciiText)),
      Recovers (total (responseHardwareConfig asciiCodec.write sizes32)) read
        (fun response responselen => some (behind sizes32.hardwareConfig response responselen)) :=
  (hardware_types_lost asciiCodec sizes32).2 fourLetters (by decide) (by decide)

end SemcMsm7x30.UnsolResponses

import SemcMsm7x30.Parcel
import SemcMsm7x30.CommandTable

namespace SemcMsm7x30

abbrev CString := Option (List UInt8)

-- What the dispatch functions take from outside the repository: the string
-- conversions of libcutils, and how far the stack of a 32-bit process reaches for
-- alloca.
structure Platform where
  strndup16to8 : List UInt16 → List UInt8
  strdup8to16 : List UInt8 → List UInt16
  stackRoom : Nat
  addressable : stackRoom < 2^32

structure SmsWriteArgs where
  status : Int
  pdu : CString
  smsc : CString
  deriving DecidableEq, Repr

structure SimPin where
  slot : Int
  pin : CString
  aidPtr : CString
  deriving DecidableEq, Repr

structure SimPuk where
  slot : Int
  puk : CString
  newPin : CString
  aidPtr : CString
  deriving DecidableEq, Repr

structure SimPinSet where
  slot : Int
  pin : CString
  newPin : CString
  aidPtr : CString
  deriving DecidableEq, Repr

structure UusInfo where
  uusType : Int
  uusDcs : Int
  uusLength : Int
  uusData : Option (List UInt8)
  deriving DecidableEq, Repr

structure Dial where
  address : CString
  clir : Int
  uusInfo : Option UusInfo
  deriving DecidableEq, Repr

structure SimIo where
  command : Int
  fileid : Int
  path : CString
  p1 : Int
  p2 : Int
  p3 : Int
  data : CString
  pin2 : CString
  aidPtr : CString
  deriving DecidableEq, Repr

structure CallForwardInfo where
  status : Int
  reason : Int
  serviceClass : Int
  toa : Int
  number : CString
  timeSeconds : Int
  deriving DecidableEq, Repr

structure CdmaSmsHeader where
  uTeleserviceID : Int
  bIsServicePresent : Nat
  uServicecategory : Int
  digit_mode : Int
  number_mode : Int
  number_type : Int
  number_plan : Int
  number_of_digits : Nat
  deriving DecidableEq, Repr

structure CdmaSmsSubAddress where
  subaddressType : Int
  odd : Nat
  number_of_digits : Nat
  deriving DecidableEq, Repr

structure CdmaSmsMessage where
  header : CdmaSmsHeader
  digits : List Nat
  sSubAddress : CdmaSmsSubAddress
  subDigits : List Nat
  uBearerDataLen : Int
  aBearerData : List Nat
  deriving DecidableEq, Repr

structure GsmBroadcastSmsConfigInfo where
  fromServiceId : Int
  toServiceId : Int
  fromCodeScheme : Int
  toCodeScheme : Int
  selected : Nat
  deriving DecidableEq, Repr

structure CdmaBroadcastSmsConfigInfo where
  service_category : Int
  language : Int
  selected : Nat
  deriving DecidableEq, Repr

-- What stands behind the data pointer the vendor gets. The length argument is
-- the size of the C type except where it is a field here.
inductive VendorData where
  | null
  | string (string8 : CString)
  | strings (pStrings : Option (List CString)) (datalen : Nat)
  | ints (pInts : List Int) (datalen : Nat)
  | raw (data : Option (List UInt8)) (len : Int)
  | smsWrite (args : SmsWriteArgs)
  | simPin (simPin : SimPin)
  | simPuk (simPuk : SimPuk)
  | simPinSet (simPinSet : SimPinSet)
  | dial (dial : Dial)
  | simIo (simIo : SimIo)
  | callForward (cff : CallForwardInfo)
  | cdmaSms (rcsm : CdmaSmsMessage)
  | imsCdmaSms (retry : Nat) (messageRef : Int) (rcsm : CdmaSmsMessage)
  | imsGsmSms (retry : Nat) (messageRef : Int) (pStrings : Option (List CString)) (datalen : Nat)
  | cdmaSmsAck (uErrorClass uSMSCauseCode : Int)
  | gsmBroadcast (gsmBci : List GsmBroadcastSmsConfigInfo) (datalen : Nat)
  | cdmaBroadcast (cdmaBci : List CdmaBroadcastSmsConfigInfo) (datalen : Nat)
  | cdmaSmsWriteArgs (status : Int) (message : CdmaSmsMessage)
  | requestImsi (slot : Int) (aid_ptr : CString)
  deriving DecidableEq, Repr

-- The response of a completion. For a response of the vendor only what the
-- request's response function appends for it and returns.
inductive Response where
  | null
  | int (value : Int)
  | simIo (sw1 sw2 : Int) (simResponse : List UInt8)
  | vendor (payload : List UInt8) (ret : Int)
  deriving DecidableEq, Repr

-- What a dispatch function does with its request, in order. `fault` is where
-- the process dies: strcmp of NULL, a stack array larger than the stack, what is
-- written past one whose size wrapped around, and the memset of one that was never
-- there.
inductive Call where
  | onRequest (data : VendorData)
  | onRequestComplete (e : Int) (response : Response)
  | setVoiceRadioTech (value : Int)
  | setCdmaSubscriptionSource (value : Int)
  | invalidCommandBlock
  | fault
  deriving DecidableEq, Repr

-- The parcel and the locals a dispatch function reads into. A failed read
-- leaves its local as it was.
structure Locals where
  p : Parcel
  status : Bool
  t : Int
  ut : Nat

abbrev Locals.start (p : Parcel) : Locals := ⟨p,true,0,0⟩

def readInt32 : StateM Locals Int := fun l =>
  match l.p.readInt32 with
  | some (t,p) => (t,{l with p,status := true,t})
  | none => (l.t,{l with status := false})

def readByte : StateM Locals Nat := fun l =>
  match l.p.readByte with
  | some (ut,p) => (ut,{l with p,status := true,ut})
  | none => (l.ut,{l with status := false})

def lastStatus : StateM Locals Bool := fun l => (l.status,l)

def dispatched (p : Parcel) (body : StateM Locals (List Call)) : List Call := (body (.start p)).1

def cString (bytes : List UInt8) : List UInt8 := bytes.takeWhile (· ≠ 0)

section Dispatch
variable (m : Platform)

def strdupReadString : StateM Locals CString := fun l =>
  let (s16,p) := l.p.readString16Inplace
  (s16.map fun s => cString (m.strndup16to8 s),{l with p})

def readStrings : Nat → StateM Locals (List CString)
  | 0 => pure []
  | count+1 => do
    let s ← strdupReadString m
    let rest ← readStrings count
    return s :: rest

def writeStringToParcel (p : Parcel) (s : CString) : Parcel :=
  p.writeString16 (s.map m.strdup8to16)

def stackFits (size : Nat) (count : Int) : Bool := size*count ≤ m.stackRoom

-- Nothing is read for a negative count. Its array and the memset behind the call
-- have the size the count wraps around to.
def negativeCount (bytes : Nat) (data : VendorData) : List Call :=
  .onRequest data :: if bytes ≤ m.stackRoom then [] else [.fault]

def dispatchVoid : List Call := [.onRequest .null]

def dispatchString (p : Parcel) : List Call := dispatched p do
  let string8 ← strdupReadString m
  return [.onRequest (.string string8)]

-- The part dispatchStrings and dispatchImsGsmSms share, after the count is read.
-- From 2^30 on the strings go past the array, whose size has wrapped around.
def stringArray (p : Parcel) (countStrings : Int)
    (request : Option (List CString) → Nat → VendorData) : List Call :=
  if countStrings = 0 then [.onRequest (request (some []) 0)]
  else if countStrings = -1 then [.onRequest (request none 0)]
  else if countStrings < 0 then
    let datalen := Parcel.sizeT (4*countStrings)
    negativeCount m datalen (request (some []) datalen)
  else if stackFits m 4 countStrings then
    let pStrings := (readStrings m countStrings.toNat (.start p)).1
    [.onRequest (request (some pStrings) (4*countStrings.toNat))]
  else [.fault]

def dispatchStrings (p : Parcel) : List Call :=
  match p.readInt32 with
  | none => [.invalidCommandBlock]
  | some (countStrings,p) => stringArray m p countStrings .strings

def NOCHANGE : List UInt8 := [0x4e,0x4f,0x43,0x48,0x41,0x4e,0x47,0x45]

def dispatchNetworkManual (p : Parcel) : List Call := dispatched p do
  let first ← strdupReadString m
  return [.onRequest (.strings (some [first,some NOCHANGE]) (4*2))]

-- The loop stores each int, one that is missing too, before it leaves. `room` is
-- how many the array holds.
def readInts : Nat → Nat → Parcel → Except Call (List Int)
  | _,0,_ => .ok []
  | 0,_+1,_ => .error .fault
  | room+1,count+1,p =>
    match p.readInt32 with
    | none => .error .invalidCommandBlock
    | some (t,p) => (readInts room count p).map (t :: ·)

def dispatchInts (p : Parcel) : List Call :=
  match p.readInt32 with
  | none => [.invalidCommandBlock]
  | some (count,p) =>
    let datalen := Parcel.sizeT (4*count)
    if count = 0 then [.invalidCommandBlock]
    else if count < 0 then negativeCount m datalen (.ints [] datalen)
    else if datalen ≤ m.stackRoom then
      match readInts (datalen/4) count.toNat p with
      | .error call => [call]
      | .ok pInts => [.onRequest (.ints pInts datalen)]
    else [.fault]

def dispatchSmsWrite (p : Parcel) : List Call := dispatched p do
  let status ← readInt32
  let ok ← lastStatus
  let pdu ← strdupReadString m
  if ok = false ∨ pdu = none then return [.invalidCommandBlock]
  else do
    let smsc ← strdupReadString m
    return [.onRequest (.smsWrite ⟨status,pdu,smsc⟩)]

def dispatchSimPin (p : Parcel) : List Call := dispatched p do
  let _ ← readInt32
  let pin ← strdupReadString m
  let aidPtr ← strdupReadString m
  return [.onRequest (.simPin ⟨0,pin,aidPtr⟩)]

def dispatchSimPuk (p : Parcel) : List Call := dispatched p do
  let _ ← readInt32
  let puk ← strdupReadString m
  let newPin ← strdupReadString m
  let aidPtr ← strdupReadString m
  return [.onRequest (.simPuk ⟨0,puk,newPin,aidPtr⟩)]

def dispatchSimPinSet (p : Parcel) : List Call := dispatched p do
  let _ ← readInt32
  let pin ← strdupReadString m
  let newPin ← strdupReadString m
  let aidPtr ← strdupReadString m
  return [.onRequest (.simPinSet ⟨0,pin,newPin,aidPtr⟩)]

-- The java code writes -1 for null arrays
def readUusData (len : Int) : StateM Locals (Int × Option (List UInt8)) := fun l =>
  if len = -1 then ((0,none),l)
  else ((len,(l.p.readInplace (Parcel.sizeT len)).map Prod.fst),l)

def dialWithUus (address : CString) (clir : Int) : StateM Locals (List Call) := do
  let uusPresent ← readInt32
  let ok ← lastStatus
  if ok = false then return [.invalidCommandBlock]
  else if uusPresent = 0 then return [.onRequest (.dial ⟨address,clir,none⟩)]
  else do
    let uusType ← readInt32
    let uusDcs ← readInt32
    let len ← readInt32
    let ok ← lastStatus
    if ok = false then return [.invalidCommandBlock]
    else do
      let (uusLength,uusData) ← readUusData len
      return [.onRequest (.dial ⟨address,clir,some ⟨uusType,uusDcs,uusLength,uusData⟩⟩)]

def dispatchDial (p : Parcel) : List Call := dispatched p do
  let address ← strdupReadString m
  let clir ← readInt32
  let ok ← lastStatus
  if ok = false ∨ address = none then return [.invalidCommandBlock]
  else if RIL_VERSION_V3 < 3 then return [.onRequest (.dial ⟨address,clir,none⟩)]
  else dialWithUus address clir

def MF_SIM : List UInt8 := [0x33,0x46,0x30,0x30]

-- "0000000a2fe2040000000005020000" and "00000000000000000010"
def ICC_ID_SIZE : List UInt8 :=
  [0x30,0x30,0x30,0x30,0x30,0x30,0x30,0x61,0x32,0x66,0x65,0x32,0x30,0x34,0x30,0x30,
   0x30,0x30,0x30,0x30,0x30,0x30,0x30,0x35,0x30,0x32,0x30,0x30,0x30,0x30]
def ICC_ID : List UInt8 := List.replicate 18 0x30 ++ [0x31,0x30]

def dispatchSimIo (p : Parcel) : List Call := dispatched p do
  let command ← readInt32
  let fileid ← readInt32
  let path ← strdupReadString m
  let p1 ← readInt32
  let p2 ← readInt32
  let p3 ← readInt32
  let ok ← lastStatus
  let data ← strdupReadString m
  let pin2 ← strdupReadString m
  let aidPtr ← strdupReadString m
  if ok = false then return [.invalidCommandBlock]
  -- Stub MF_SIM calls to read ICC ID & size.
  else if path = none then return [.fault]
  else if path = some MF_SIM ∧ command = 0xc0 then
    return [.onRequestComplete RIL_E_SUCCESS (.simIo 0x90 0 ICC_ID_SIZE)]
  else if path = some MF_SIM ∧ command = 0xb0 then
    return [.onRequestComplete RIL_E_SUCCESS (.simIo 0x90 0 ICC_ID)]
  else return [.onRequest (.simIo ⟨command,fileid,path,p1,p2,p3,data,pin2,aidPtr⟩)]

def dispatchCallForward (p : Parcel) : List Call := dispatched p do
  let status ← readInt32
  let reason ← readInt32
  let serviceClass ← readInt32
  let toa ← readInt32
  let number ← strdupReadString m
  let timeSeconds ← readInt32
  let ok ← lastStatus
  if ok = false then return [.invalidCommandBlock]
  -- special case: number 0-length fields is null
  else return [.onRequest (.callForward ⟨status,reason,serviceClass,toa,
    if number = some [] then none else number,timeSeconds⟩)]

-- The slot and the reordered strings are written behind the copied header, and
-- the rewritten parcel goes to dispatchStrings.
def dispatchRewritten (p : Parcel) (appId : CString) (count : Int) (strings : List CString) :
    List Call :=
  match appId with
  | none => [.fault]
  | some id =>
    let slot : List UInt8 := if id = [] then [] else [0x30]
    let p2 := (Parcel.empty.appendFrom p p.pos).writeInt32 count
    let p2 := (some slot :: appId :: strings).foldl (writeStringToParcel m) p2
    dispatchStrings m (p2.setDataPosition p.pos)

def dispatchQueryFacility (p : Parcel) : List Call := dispatched p do
  let _ ← readInt32
  let facility ← strdupReadString m
  let password ← strdupReadString m
  let serviceClass ← strdupReadString m
  let appId ← strdupReadString m
  return dispatchRewritten m p appId 5 [facility,password,serviceClass]

def dispatchSetFacility (p : Parcel) : List Call := dispatched p do
  let _ ← readInt32
  let facility ← strdupReadString m
  let lockString ← strdupReadString m
  let password ← strdupReadString m
  let serviceClass ← strdupReadString m
  let appId ← strdupReadString m
  return dispatchRewritten m p appId 6 [facility,lockString,password,serviceClass]

def dispatchRaw (p : Parcel) : List Call :=
  match p.readInt32 with
  | none => [.invalidCommandBlock]
  | some (len,p) =>
    -- The java code writes -1 for null arrays
    let len := if len = -1 then 0 else len
    [.onRequest (.raw ((p.readInplace (Parcel.sizeT len)).map Prod.fst) len)]

end Dispatch

def RIL_CDMA_SMS_ADDRESS_MAX : Nat := 36
def RIL_CDMA_SMS_SUBADDRESS_MAX : Nat := 36
def RIL_CDMA_SMS_BEARER_DATA_MAX : Nat := 255

def readBytes : Nat → StateM Locals (List Nat)
  | 0 => pure []
  | count+1 => do
    let ut ← readByte
    let rest ← readBytes count
    return ut :: rest

def readCdmaSmsHeader : StateM Locals CdmaSmsHeader := do
  let uTeleserviceID ← readInt32
  let bIsServicePresent ← readByte
  let uServicecategory ← readInt32
  let digit_mode ← readInt32
  let number_mode ← readInt32
  let number_type ← readInt32
  let number_plan ← readInt32
  let number_of_digits ← readByte
  return ⟨uTeleserviceID,bIsServicePresent,uServicecategory,digit_mode,number_mode,number_type,
    number_plan,number_of_digits⟩

def readCdmaSmsSubAddress : StateM Locals CdmaSmsSubAddress := do
  let subaddressType ← readInt32
  let odd ← readByte
  let number_of_digits ← readByte
  return ⟨subaddressType,odd,number_of_digits⟩

-- constructCdmaSms, and with fixed array lengths the message that
-- dispatchRilCdmaSmsWriteArgs reads. The status is that of the last read.
def readCdmaSms (addressLimit subAddressLimit : Nat → Nat) (bearerLimit : Int → Nat) :
    StateM Locals CdmaSmsMessage := do
  let header ← readCdmaSmsHeader
  let digits ← readBytes (addressLimit header.number_of_digits)
  let sSubAddress ← readCdmaSmsSubAddress
  let subDigits ← readBytes (subAddressLimit sSubAddress.number_of_digits)
  let uBearerDataLen ← readInt32
  let aBearerData ← readBytes (bearerLimit uBearerDataLen)
  return ⟨header,digits,sSubAddress,subDigits,uBearerDataLen,aBearerData⟩

def constructCdmaSms : StateM Locals CdmaSmsMessage :=
  readCdmaSms (fun n => min n RIL_CDMA_SMS_ADDRESS_MAX) (fun n => min n RIL_CDMA_SMS_SUBADDRESS_MAX)
    (fun n => (min n RIL_CDMA_SMS_BEARER_DATA_MAX).toNat)

def dispatchCdmaSms (p : Parcel) : List Call := dispatched p do
  let rcsm ← constructCdmaSms
  let ok ← lastStatus
  if ok = false then return [.invalidCommandBlock]
  else return [.onRequest (.cdmaSms rcsm)]

def dispatchImsCdmaSms (p : Parcel) (retry : Nat) (messageRef : Int) : List Call := dispatched p do
  let rcsm ← constructCdmaSms
  let ok ← lastStatus
  if ok = false then return [.invalidCommandBlock]
  else return [.onRequest (.imsCdmaSms retry messageRef rcsm)]

def dispatchImsGsmSms (m : Platform) (p : Parcel) (retry : Nat) (messageRef : Int) : List Call :=
  match p.readInt32 with
  | none => [.invalidCommandBlock]
  | some (countStrings,p) => stringArray m p countStrings (.imsGsmSms retry messageRef)

def RADIO_TECH_3GPP : Int := 1
def RADIO_TECH_3GPP2 : Int := 2

-- An unknown format is only logged.
def dispatchImsSms (m : Platform) (p : Parcel) : List Call :=
  match p.readInt32 with
  | none => [.invalidCommandBlock]
  | some (format,p) =>
    match p.readByte with
    | none => [.invalidCommandBlock]
    | some (retry,p) =>
      match p.readInt32 with
      | none => [.invalidCommandBlock]
      | some (messageRef,p) =>
        if RADIO_TECH_3GPP = format then dispatchImsGsmSms m p retry messageRef
        else if RADIO_TECH_3GPP2 = format then dispatchImsCdmaSms p retry messageRef
        else []

def dispatchCdmaSmsAck (p : Parcel) : List Call := dispatched p do
  let uErrorClass ← readInt32
  let uSMSCauseCode ← readInt32
  let ok ← lastStatus
  if ok = false then return [.invalidCommandBlock]
  else return [.onRequest (.cdmaSmsAck uErrorClass uSMSCauseCode)]

def readGsmBroadcast : StateM Locals GsmBroadcastSmsConfigInfo := do
  let fromServiceId ← readInt32
  let toServiceId ← readInt32
  let fromCodeScheme ← readInt32
  let toCodeScheme ← readInt32
  let selected ← readInt32
  return ⟨fromServiceId,toServiceId,fromCodeScheme,toCodeScheme,(selected%2^8).toNat⟩

def readCdmaBroadcast : StateM Locals CdmaBroadcastSmsConfigInfo := do
  let service_category ← readInt32
  let language ← readInt32
  let selected ← readInt32
  return ⟨service_category,language,(selected%2^8).toNat⟩

def readEntries {α : Type} (entry : StateM Locals α) : Nat → StateM Locals (List α)
  | 0 => pure []
  | num+1 => do
    let first ← entry
    let rest ← readEntries entry num
    return first :: rest

-- dispatchGsmBrSmsCnf and dispatchCdmaBrSmsCnf: `size` is that of one entry and
-- its pointer in the two stack arrays. A count they wrap around for writes past them.
def broadcastCalls {α : Type} (m : Platform) (size : Nat) (entry : StateM Locals α)
    (request : List α → Nat → VendorData) : StateM Locals (List Call) := do
  let num ← readInt32
  let ok ← lastStatus
  if ok = false then return [.invalidCommandBlock]
  else if num < 0 then
    let pointers := Parcel.sizeT (4*num)
    return negativeCount m (Parcel.sizeT ((size-4 : Nat)*num)+pointers) (request [] pointers)
  else if stackFits m size num then do
    let entries ← readEntries entry num.toNat
    let ok ← lastStatus
    if ok = false then return [.invalidCommandBlock]
    else return [.onRequest (request entries (4*num.toNat))]
  else return [.fault]

def dispatchBroadcast {α : Type} (m : Platform) (size : Nat) (entry : StateM Locals α)
    (request : List α → Nat → VendorData) (p : Parcel) : List Call :=
  dispatched p (broadcastCalls m size entry request)

def dispatchGsmBrSmsCnf (m : Platform) (p : Parcel) : List Call :=
  dispatchBroadcast m 24 readGsmBroadcast .gsmBroadcast p

def dispatchCdmaBrSmsCnf (m : Platform) (p : Parcel) : List Call :=
  dispatchBroadcast m 16 readCdmaBroadcast .cdmaBroadcast p

def readCdmaSmsWriteArgs : StateM Locals (Int × CdmaSmsMessage) := do
  let status ← readInt32
  let message ← readCdmaSms (fun _ => RIL_CDMA_SMS_ADDRESS_MAX)
    (fun _ => RIL_CDMA_SMS_SUBADDRESS_MAX) (fun _ => RIL_CDMA_SMS_BEARER_DATA_MAX)
  return (status,message)

def rilCdmaSmsWriteArgsCalls : StateM Locals (List Call) := do
  let (status,message) ← readCdmaSmsWriteArgs
  let ok ← lastStatus
  if ok = false then return [.invalidCommandBlock]
  else return [.onRequest (.cdmaSmsWriteArgs status message)]

def dispatchRilCdmaSmsWriteArgs (p : Parcel) : List Call := dispatched p rilCdmaSmsWriteArgsCalls

def dispatchRequestImsi (m : Platform) (p : Parcel) : List Call := dispatched p do
  let _ ← readInt32
  let aid_ptr ← strdupReadString m
  return [.onRequest (.requestImsi 0 aid_ptr)]

def numParamsRilV3 : Nat := 6

-- readString16 answers an empty string where readString16Inplace answers NULL.
def copyStrings : Nat → Parcel → Parcel → Parcel
  | 0,_,p2 => p2
  | count+1,p,p2 =>
    let (s,p) := p.readString16Inplace
    copyStrings count p (p2.writeString16 (some (s.getD [])))

def dispatchDataCall (m : Platform) (p : Parcel) : List Call :=
  let (numParams,q) := p.readInt32Value
  if RIL_VERSION_V3 < 4 ∧ numParams > numParamsRilV3 then
    let p2 := (Parcel.empty.appendFrom p p.pos).writeInt32 numParamsRilV3
    dispatchStrings m ((copyStrings numParamsRilV3 q p2).setDataPosition p.pos)
  else dispatchStrings m (q.setDataPosition p.pos)

def RADIO_TECH_UMTS : Int := 3
def RADIO_TECH_1xRTT : Int := 6
def CDMA_SUBSCRIPTION_SOURCE_RUIM_SIM : Int := 0
def CDMA_SUBSCRIPTION_SOURCE_NV : Int := 1

def decodeVoiceRadioTechnology : RadioState → Int
  | .simNotReady | .simLockedOrAbsent | .simReady => RADIO_TECH_UMTS
  | .ruimNotReady | .ruimReady | .ruimLockedOrAbsent | .nvNotReady | .nvReady => RADIO_TECH_1xRTT
  | .off | .unavailable | .on => -1

def decodeCdmaSubscriptionSource : RadioState → Int
  | .simNotReady | .simLockedOrAbsent | .simReady | .ruimNotReady | .ruimReady
  | .ruimLockedOrAbsent => CDMA_SUBSCRIPTION_SOURCE_RUIM_SIM
  | .nvNotReady | .nvReady => CDMA_SUBSCRIPTION_SOURCE_NV
  | .off | .unavailable | .on => -1

-- dispatchVoiceRadioTech and dispatchCdmaSubscriptionSource. After answering
-- that the radio is off both go on to the decoding below.
def dispatchDecoded (state : RadioState) (store : Int → Call) (decode : RadioState → Int) :
    List Call :=
  (if state = .unavailable ∨ state = .off then
    [.onRequestComplete RIL_E_RADIO_NOT_AVAILABLE .null] else []) ++
  if state = .on then dispatchVoid
  else
    [store (decode state),
     if decode state < 0 then .onRequestComplete RIL_E_GENERIC_FAILURE .null
     else .onRequestComplete RIL_E_SUCCESS (.int (decode state))]

def dispatchVoiceRadioTech (state : RadioState) : List Call :=
  dispatchDecoded state .setVoiceRadioTech decodeVoiceRadioTechnology

def dispatchCdmaSubscriptionSource (state : RadioState) : List Call :=
  dispatchDecoded state .setCdmaSubscriptionSource decodeCdmaSubscriptionSource

-- pRI->pCI->dispatchFunction(p,pRI). `state` is what the vendor's
-- onStateRequest answers.
def dispatch (m : Platform) (state : RadioState) (p : Parcel) : DispatchFunction → List Call
  | .dispatchVoid => dispatchVoid
  | .dispatchSimPin => dispatchSimPin m p
  | .dispatchSimPuk => dispatchSimPuk m p
  | .dispatchSimPinSet => dispatchSimPinSet m p
  | .dispatchStrings => dispatchStrings m p
  | .dispatchDial => dispatchDial m p
  | .dispatchRequestImsi => dispatchRequestImsi m p
  | .dispatchInts => dispatchInts m p
  | .dispatchString => dispatchString m p
  | .dispatchDataCall => dispatchDataCall m p
  | .dispatchSimIo => dispatchSimIo m p
  | .dispatchCallForward => dispatchCallForward m p
  | .dispatchQueryFacility => dispatchQueryFacility m p
  | .dispatchSetFacility => dispatchSetFacility m p
  | .dispatchNetworkManual => dispatchNetworkManual m p
  | .dispatchRaw => dispatchRaw p
  | .dispatchSmsWrite => dispatchSmsWrite m p
  | .dispatchCdmaSms => dispatchCdmaSms p
  | .dispatchCdmaSmsAck => dispatchCdmaSmsAck p
  | .dispatchGsmBrSmsCnf => dispatchGsmBrSmsCnf m p
  | .dispatchCdmaBrSmsCnf => dispatchCdmaBrSmsCnf m p
  | .dispatchRilCdmaSmsWriteArgs => dispatchRilCdmaSmsWriteArgs p
  | .dispatchCdmaSubscriptionSource => dispatchCdmaSubscriptionSource state
  | .dispatchVoiceRadioTech => dispatchVoiceRadioTech state
  | .dispatchImsSms => dispatchImsSms m p

end SemcMsm7x30

import SemcMsm7x30.Encoding
import SemcMsm7x30.Responses

namespace SemcMsm7x30.FixedArrays
open Encoding
open Responses (RIL_ERRNO_INVALID_RESPONSE CardStatus CardList AppStatus writeInt32 writeBlock
  writeAppStatus writeCallForward)

def RIL_MAX_CARDS : Nat := 1
def RIL_CARD_MAX_APPS : Nat := 8
def RIL_CDMA_MAX_NUMBER_OF_INFO_RECS : Nat := 10
def CDMA_ALPHA_INFO_BUFFER_LENGTH : Nat := 64
def CDMA_NUMBER_INFO_BUFFER_LENGTH : Nat := 81
def NUM_SERVICE_CLASSES : Nat := 7
def SS_INFO_MAX : Nat := 4

inductive FixedArray where
  | card
  | subscription_3gpp_app_index
  | subscription_3gpp2_app_index
  | applications
  | infoRec
  | alpha_buf
  | buf
  | addressDigits
  | subAddressDigits
  | aBearerData
  | cfInfo
  | ssInfo
  deriving DecidableEq, Repr

def FixedArray.declaredSize : FixedArray → Nat
  | .card => RIL_MAX_CARDS
  | .subscription_3gpp_app_index | .subscription_3gpp2_app_index | .applications =>
    RIL_CARD_MAX_APPS
  | .infoRec => RIL_CDMA_MAX_NUMBER_OF_INFO_RECS
  | .alpha_buf => CDMA_ALPHA_INFO_BUFFER_LENGTH
  | .buf => CDMA_NUMBER_INFO_BUFFER_LENGTH
  | .addressDigits => RIL_CDMA_SMS_ADDRESS_MAX
  | .subAddressDigits => RIL_CDMA_SMS_SUBADDRESS_MAX
  | .aBearerData => RIL_CDMA_SMS_BEARER_DATA_MAX
  | .cfInfo => NUM_SERVICE_CLASSES
  | .ssInfo => SS_INFO_MAX

abbrev Text := List UInt8
abbrev Marshaller := Encoder FixedArray Unit

def writeInt (value : Int32) : Marshaller := write (writeInt32 value)

def writeByte (value : UInt8) : Marshaller := write (writeBlock (fun _ => value) 1)

inductive InfoRecName where
  | display
  | calledPartyNumber
  | callingPartyNumber
  | connectedNumber
  | signal
  | redirectingNumber
  | lineControl
  | extendedDisplay
  | t53Clir
  | t53Release
  | t53AudioControl
  | other (value : Int32) (unlisted : value < 0 ∨ 10 < value)
  deriving DecidableEq, Repr

def InfoRecName.number : InfoRecName → Int32
  | .display => 0
  | .calledPartyNumber => 1
  | .callingPartyNumber => 2
  | .connectedNumber => 3
  | .signal => 4
  | .redirectingNumber => 5
  | .lineControl => 6
  | .extendedDisplay => 7
  | .t53Clir => 8
  | .t53Release => 9
  | .t53AudioControl => 10
  | .other value _ => value

-- A char is given by its value as an int, of either sign.
structure DisplayInfoRecord where
  alpha_len : Int
  alpha_buf : Nat → UInt8

structure NumberInfoRecord where
  len : Int
  buf : Nat → UInt8
  number_type : Int32
  number_plan : Int32
  pi : Int32
  si : Int32

structure SignalInfoRecord where
  isPresent : Int32
  signalType : Int32
  alertPitch : Int32
  signal : Int32

structure LineControlInfoRecord where
  lineCtrlPolarityIncluded : Int32
  lineCtrlToggle : Int32
  lineCtrlReverse : Int32
  lineCtrlPowerDenial : Int32

structure InformationRecord where
  name : InfoRecName
  display : DisplayInfoRecord
  number : NumberInfoRecord
  signal : SignalInfoRecord
  redirectingNumber : NumberInfoRecord
  redirectingReason : Int32
  lineCtrl : LineControlInfoRecord
  cause : Int32
  upLink : Int32
  downLink : Int32

structure InformationRecords where
  numberOfInfoRecs : Int
  infoRec : Nat → InformationRecord

structure Message where
  uTeleserviceID : Int32
  bIsServicePresent : UInt8
  uServicecategory : Int32
  digit_mode : Int32
  number_mode : Int32
  number_type : Int32
  number_plan : Int32
  number_of_digits : UInt8
  digits : Nat → UInt8
  subaddressType : Int32
  odd : UInt8
  sub_number_of_digits : UInt8
  subDigits : Nat → UInt8
  uBearerDataLen : Int32
  aBearerData : Nat → UInt8

-- RIL_StkCcUnsolSsResponse with both members of its union.
structure SsResponse where
  serviceType : Int32
  requestType : Int32
  teleserviceType : Int32
  serviceClass : Int32
  result : Int32
  numValidIndexes : Int32
  cfInfo : Nat → Responses.CallForwardInfo Text
  ssInfo : Nat → Int32

section Functions
variable (writeString : CString → List UInt8)

-- A response of the wrong length, or none, is turned down before it is looked at.
def sized {α : Type} (size : Nat) (response : Option α) (responselen : UInt32)
    (body : α → Marshaller) : Marshaller :=
  match response with
  | none => fail RIL_ERRNO_INVALID_RESPONSE
  | some p_cur => if responselen.toNat ≠ size then fail RIL_ERRNO_INVALID_RESPONSE else body p_cur

def sendSimStatusAppInfo (num_apps : Int32) (appStatus : Nat → AppStatus Text) : Marshaller := do
  writeInt num_apps
  forEach num_apps.toInt.toNat fun i => do
    let app ← element .applications appStatus i
    write (writeAppStatus writeString app)

def firstIndex (array : FixedArray) (num_current_indexes : Int32) (app_index : Nat → Int32) :
    Marshaller :=
  if num_current_indexes ≤ 0 then writeInt (-1)
  else do
    let index ← element array app_index 0
    writeInt index

def sendCard (p_cur : CardList Text) : Marshaller := do
  let p_card ← element .card p_cur.card 0
  writeInt p_card.card_state
  writeInt p_card.universal_pin_state
  firstIndex .subscription_3gpp_app_index p_card.num_current_3gpp_indexes
    p_card.subscription_3gpp_app_index
  firstIndex .subscription_3gpp2_app_index p_card.num_current_3gpp2_indexes
    p_card.subscription_3gpp2_app_index
  writeInt (-1)
  sendSimStatusAppInfo writeString p_card.num_applications p_card.applications

def responseSimStatus (size : Nat) (response : Option (CardList Text)) (responselen : UInt32) :
    Marshaller :=
  sized size response responselen fun p_cur =>
    if p_cur.num_cards = 0 then do
      writeInt 0
      writeInt 0
      writeInt (-1)
      writeInt (-1)
      writeInt (-1)
      writeInt 0
    else sendCard writeString p_cur

def copyString (array : FixedArray) (source : Nat → UInt8) (len : Int) (limit : Nat) : Marshaller :=
  if len > limit then fail RIL_ERRNO_INVALID_RESPONSE
  else do
    let string8 ← elements array source len.toNat
    write (writeString (some (cString string8)))

def writeNumber (number : NumberInfoRecord) : Marshaller := do
  copyString writeString .buf number.buf number.len CDMA_NUMBER_INFO_BUFFER_LENGTH
  writeInt number.number_type
  writeInt number.number_plan
  writeInt number.pi
  writeInt number.si

def writeInfoRec (infoRec : InformationRecord) : Marshaller := do
  writeInt infoRec.name.number
  match infoRec.name with
  | .display | .extendedDisplay =>
    copyString writeString .alpha_buf infoRec.display.alpha_buf infoRec.display.alpha_len
      CDMA_ALPHA_INFO_BUFFER_LENGTH
  | .calledPartyNumber | .callingPartyNumber | .connectedNumber =>
    writeNumber writeString infoRec.number
  | .signal => do
    writeInt infoRec.signal.isPresent
    writeInt infoRec.signal.signalType
    writeInt infoRec.signal.alertPitch
    writeInt infoRec.signal.signal
  | .redirectingNumber => do
    writeNumber writeString infoRec.redirectingNumber
    writeInt infoRec.redirectingReason
  | .lineControl => do
    writeInt infoRec.lineCtrl.lineCtrlPolarityIncluded
    writeInt infoRec.lineCtrl.lineCtrlToggle
    writeInt infoRec.lineCtrl.lineCtrlReverse
    writeInt infoRec.lineCtrl.lineCtrlPowerDenial
  | .t53Clir => writeInt infoRec.cause
  | .t53AudioControl => do
    writeInt infoRec.upLink
    writeInt infoRec.downLink
  | .t53Release | .other _ _ => fail RIL_ERRNO_INVALID_RESPONSE

def responseCdmaInformationRecords (size : Nat) (response : Option InformationRecords)
    (responselen : UInt32) : Marshaller :=
  sized size response responselen fun p_cur => do
    let num := min p_cur.numberOfInfoRecs RIL_CDMA_MAX_NUMBER_OF_INFO_RECS
    write (Parcel.le32 num)
    forEach num.toNat fun i => do
      let infoRec ← element .infoRec p_cur.infoRec i
      writeInfoRec writeString infoRec

def writeEntries (array : FixedArray) (items : Nat → UInt8) (digitLimit : Nat) : Marshaller :=
  forEach digitLimit fun digitCount => do
    let entry ← element array items digitCount
    writeByte entry

def responseCdmaSms (size : Nat) (response : Option Message) (responselen : UInt32) : Marshaller :=
  sized size response responselen fun p_cur => do
    writeInt p_cur.uTeleserviceID
    writeByte p_cur.bIsServicePresent
    writeInt p_cur.uServicecategory
    writeInt p_cur.digit_mode
    writeInt p_cur.number_mode
    writeInt p_cur.number_type
    writeInt p_cur.number_plan
    writeByte p_cur.number_of_digits
    writeEntries .addressDigits p_cur.digits (min p_cur.number_of_digits.toNat RIL_CDMA_SMS_ADDRESS_MAX)
    writeInt p_cur.subaddressType
    writeByte p_cur.odd
    writeByte p_cur.sub_number_of_digits
    writeEntries .subAddressDigits p_cur.subDigits
      (min p_cur.sub_number_of_digits.toNat RIL_CDMA_SMS_SUBADDRESS_MAX)
    writeInt p_cur.uBearerDataLen
    writeEntries .aBearerData p_cur.aBearerData
      (min p_cur.uBearerDataLen.toInt RIL_CDMA_SMS_BEARER_DATA_MAX).toNat

def SS_INTERROGATION : Int32 := 2

-- SS_CFU, SS_CF_BUSY, SS_CF_NO_REPLY, SS_CF_NOT_REACHABLE, SS_CF_ALL and
-- SS_CF_ALL_CONDITIONAL.
def callForwardTypes : List Int32 := [0,1,2,3,4,5]

def isServiceTypeCfQuery (serType reqType : Int32) : Bool :=
  reqType = SS_INTERROGATION ∧ serType ∈ callForwardTypes

def responseSSData (size : Nat) (response : Option SsResponse) (responselen : UInt32) : Marshaller :=
  sized size response responselen fun p_cur => do
    writeInt p_cur.serviceType
    writeInt p_cur.requestType
    writeInt p_cur.teleserviceType
    writeInt p_cur.serviceClass
    writeInt p_cur.result
    if isServiceTypeCfQuery p_cur.serviceType p_cur.requestType then do
      -- truncating it to max value
      let numValidIndexes := min p_cur.numValidIndexes.toInt NUM_SERVICE_CLASSES
      write (Parcel.le32 numValidIndexes)
      forEach numValidIndexes.toNat fun i => do
        let cf ← element .cfInfo p_cur.cfInfo i
        write (writeCallForward writeString cf)
    else do
      write (Parcel.le32 SS_INFO_MAX)
      forEach SS_INFO_MAX fun i => do
        let info ← element .ssInfo p_cur.ssInfo i
        writeInt info

end Functions

section Exactly
variable (writeString : CString → List UInt8)

theorem does_writeInt (value : Int32) : Does (writeInt value) () (writeInt32 value) [] :=
  does_write (writeInt32 value)

theorem does_writeByte (value : UInt8) :
    Does (writeByte value) () (writeBlock (fun _ => value) 1) [] :=
  does_write _

theorem does_firstIndex (array : FixedArray) (num_current_indexes : Int32)
    (app_index : Nat → Int32) :
    Does (firstIndex array num_current_indexes app_index) ()
      (writeInt32 (if num_current_indexes ≤ 0 then -1 else app_index 0))
      (if num_current_indexes ≤ 0 then [] else [(array,0)]) := by
  unfold firstIndex
  split
  · exact does_writeInt (-1)
  · exact does_read array app_index 0 (does_writeInt _)

theorem does_sendSimStatusAppInfo (num_apps : Int32) (appStatus : Nat → AppStatus Text) :
    Does (sendSimStatusAppInfo writeString num_apps appStatus) ()
      (Responses.sendSimStatusAppInfo writeString num_apps appStatus)
      ((List.range num_apps.toInt.toNat).map fun i => (FixedArray.applications,i)) :=
  does_next (does_writeInt num_apps) (does_loop FixedArray.applications appStatus _ _)

-- The entries of the card that are read in front of the applications.
def cardReads (p_card : CardStatus Text) : List (FixedArray × Nat) :=
  (.card,0) :: ((if p_card.num_current_3gpp_indexes ≤ 0 then []
    else [(.subscription_3gpp_app_index,0)]) ++
    if p_card.num_current_3gpp2_indexes ≤ 0 then [] else [(.subscription_3gpp2_app_index,0)])

theorem does_sendCard (p_cur : CardList Text) :
    Does (sendCard writeString p_cur) ()
      (writeInt32 (p_cur.card 0).card_state ++ (writeInt32 (p_cur.card 0).universal_pin_state ++
        (writeInt32 (if (p_cur.card 0).num_current_3gpp_indexes ≤ 0 then -1
          else (p_cur.card 0).subscription_3gpp_app_index 0) ++
        (writeInt32 (if (p_cur.card 0).num_current_3gpp2_indexes ≤ 0 then -1
          else (p_cur.card 0).subscription_3gpp2_app_index 0) ++ (writeInt32 (-1) ++
        Responses.sendSimStatusAppInfo writeString (p_cur.card 0).num_applications
          (p_cur.card 0).applications)))))
      (cardReads (p_cur.card 0) ++
        (List.range (p_cur.card 0).num_applications.toInt.toNat).map fun i => (.applications,i)) := by
  unfold cardReads
  rw [List.cons_append,List.append_assoc]
  apply does_read
  apply does_next (does_writeInt _)
  apply does_next (does_writeInt _)
  apply does_bind (does_firstIndex _ _ _)
  apply does_bind (does_firstIndex _ _ _)
  apply does_next (does_writeInt _)
  exact does_sendSimStatusAppInfo writeString _ _

theorem responseSimStatus_same (layout : Responses.Layout)
    (response : Option (Responses.Memory Text)) (responselen : UInt32) :
    marshalled (responseSimStatus writeString layout.cardListV3
        (response.map Responses.Memory.cardList) responselen) =
      Responses.responseSimStatus layout writeString response responselen := by
  cases response with
  | none => rfl
  | some memory =>
    simp only [Option.map_some,responseSimStatus,sized,Responses.responseSimStatus]
    split
    · rfl
    · split
      · rfl
      · rw [(does_sendCard writeString memory.cardList).marshalled.1]
        simp only [List.append_assoc]

end Exactly

def StaysInside (x : Marshaller) : Prop :=
  ∀ access ∈ accesses x, access.2 < access.1.declaredSize

section Bounds
variable (writeString : CString → List UInt8)

abbrev Bounded {α : Type} (x : Encoder FixedArray α) : Prop := Inside FixedArray.declaredSize x

theorem bounded_sized {α : Type} {size : Nat} {response : Option α} {responselen : UInt32}
    {body : α → Marshaller} (each : ∀ p_cur, Bounded (body p_cur)) :
    Bounded (sized size response responselen body) := by
  cases response with
  | none => exact inside_fail _
  | some p_cur => exact inside_ite (fun _ => inside_fail _) (fun _ => each p_cur)

theorem bounded_writeInt (value : Int32) : Bounded (writeInt value) := inside_write _

theorem bounded_writeByte (value : UInt8) : Bounded (writeByte value) := inside_write _

-- The check is made against the size of the array copied from.
theorem bounded_copyString {array : FixedArray} {source : Nat → UInt8} {len : Int} {limit : Nat}
    (same : limit ≤ array.declaredSize) : Bounded (copyString writeString array source len limit) := by
  apply inside_ite (fun _ => inside_fail _)
  intro fits
  apply inside_bind (inside_elements (by omega))
  exact fun _ => inside_write _

theorem bounded_writeNumber (number : NumberInfoRecord) :
    Bounded (writeNumber writeString number) := by
  apply inside_seq (bounded_copyString writeString (le_refl CDMA_NUMBER_INFO_BUFFER_LENGTH))
  apply inside_seq (bounded_writeInt _)
  apply inside_seq (bounded_writeInt _)
  exact inside_seq (bounded_writeInt _) (bounded_writeInt _)

theorem bounded_fourInts (a b c d : Int32) : Bounded (do
    writeInt a
    writeInt b
    writeInt c
    writeInt d) := by
  apply inside_seq (bounded_writeInt _)
  apply inside_seq (bounded_writeInt _)
  exact inside_seq (bounded_writeInt _) (bounded_writeInt _)

theorem bounded_writeInfoRec (infoRec : InformationRecord) :
    Bounded (writeInfoRec writeString infoRec) := by
  have display : Bounded (copyString writeString .alpha_buf infoRec.display.alpha_buf
      infoRec.display.alpha_len CDMA_ALPHA_INFO_BUFFER_LENGTH) :=
    bounded_copyString writeString (le_refl CDMA_ALPHA_INFO_BUFFER_LENGTH)
  apply inside_seq (bounded_writeInt _)
  cases infoRec.name with
  | display => exact display
  | extendedDisplay => exact display
  | calledPartyNumber => exact bounded_writeNumber writeString _
  | callingPartyNumber => exact bounded_writeNumber writeString _
  | connectedNumber => exact bounded_writeNumber writeString _
  | signal => exact bounded_fourInts _ _ _ _
  | redirectingNumber =>
    exact inside_seq (bounded_writeNumber writeString _) (bounded_writeInt _)
  | lineControl => exact bounded_fourInts _ _ _ _
  | t53Clir => exact bounded_writeInt _
  | t53AudioControl => exact inside_seq (bounded_writeInt _) (bounded_writeInt _)
  | t53Release => exact inside_fail _
  | other value => exact inside_fail _

theorem bounded_informationRecords (size : Nat) (response : Option InformationRecords)
    (responselen : UInt32) :
    Bounded (responseCdmaInformationRecords writeString size response responselen) := by
  apply bounded_sized
  intro p_cur
  apply inside_seq (inside_write _)
  apply inside_forEach
  intro i below
  have within : i < FixedArray.infoRec.declaredSize := by
    show i < RIL_CDMA_MAX_NUMBER_OF_INFO_RECS
    omega
  apply inside_bind (inside_element within)
  exact fun infoRec => bounded_writeInfoRec writeString infoRec

theorem bounded_writeEntries {array : FixedArray} {items : Nat → UInt8} {digitLimit : Nat}
    (fits : digitLimit ≤ array.declaredSize) : Bounded (writeEntries array items digitLimit) := by
  apply inside_forEach
  intro i below
  apply inside_bind (inside_element (Nat.lt_of_lt_of_le below fits))
  exact fun entry => bounded_writeByte entry

theorem bounded_cdmaSms (size : Nat) (response : Option Message) (responselen : UInt32) :
    Bounded (responseCdmaSms size response responselen) := by
  apply bounded_sized
  intro p_cur
  have bearer : (min p_cur.uBearerDataLen.toInt RIL_CDMA_SMS_BEARER_DATA_MAX).toNat ≤
      RIL_CDMA_SMS_BEARER_DATA_MAX := by omega
  apply inside_seq (bounded_writeInt _)
  apply inside_seq (bounded_writeByte _)
  apply inside_seq (bounded_writeInt _)
  apply inside_seq (bounded_writeInt _)
  apply inside_seq (bounded_writeInt _)
  apply inside_seq (bounded_writeInt _)
  apply inside_seq (bounded_writeInt _)
  apply inside_seq (bounded_writeByte _)
  apply inside_seq (bounded_writeEntries (Nat.min_le_right _ RIL_CDMA_SMS_ADDRESS_MAX))
  apply inside_seq (bounded_writeInt _)
  apply inside_seq (bounded_writeByte _)
  apply inside_seq (bounded_writeByte _)
  apply inside_seq (bounded_writeEntries (Nat.min_le_right _ RIL_CDMA_SMS_SUBADDRESS_MAX))
  exact inside_seq (bounded_writeInt _) (bounded_writeEntries bearer)

theorem bounded_ssData (size : Nat) (response : Option SsResponse) (responselen : UInt32) :
    Bounded (responseSSData writeString size response responselen) := by
  apply bounded_sized
  intro p_cur
  apply inside_seq (bounded_writeInt _)
  apply inside_seq (bounded_writeInt _)
  apply inside_seq (bounded_writeInt _)
  apply inside_seq (bounded_writeInt _)
  apply inside_seq (bounded_writeInt _)
  apply inside_ite
  · intro _
    apply inside_seq (inside_write _)
    apply inside_forEach
    intro i below
    have within : i < FixedArray.cfInfo.declaredSize := by
      show i < NUM_SERVICE_CLASSES
      omega
    apply inside_bind (inside_element within)
    exact fun cf => inside_write _
  · intro _
    apply inside_seq (inside_write _)
    apply inside_forEach
    intro i below
    have within : i < FixedArray.ssInfo.declaredSize := below
    apply inside_bind (inside_element within)
    exact fun info => bounded_writeInt info

theorem sendCard_inside (p_cur : CardList Text) :
    StaysInside (sendCard writeString p_cur) ↔
      (p_cur.card 0).num_applications.toInt ≤ RIL_CARD_MAX_APPS := by
  have front : ∀ access ∈ cardReads (p_cur.card 0), access.2 < access.1.declaredSize := by
    intro access member
    simp only [cardReads,List.mem_cons,List.mem_append] at member
    rcases member with rfl | first | second
    · decide
    · split at first
      · cases first
      · cases List.mem_singleton.mp first
        decide
    · split at second
      · cases second
      · cases List.mem_singleton.mp second
        decide
  unfold StaysInside
  rw [(does_sendCard writeString p_cur).marshalled.2,List.forall_mem_append,
    and_iff_right front,List.forall_mem_map]
  constructor
  · intro inside
    by_contra many
    have last := inside RIL_CARD_MAX_APPS (List.mem_range.mpr (by omega))
    exact Nat.lt_irrefl _ last
  · intro few i below
    have small := List.mem_range.mp below
    show i < RIL_CARD_MAX_APPS
    omega

end Bounds

structure Sizes where
  cardList : Nat
  informationRecords : Nat
  message : Nat
  ssResponse : Nat

inductive VendorResponse where
  | simStatus (response : Option (CardList Text))
  | informationRecords (response : Option InformationRecords)
  | cdmaSms (response : Option Message)
  | ssData (response : Option SsResponse)

namespace VendorResponse

def marshaller (writeString : CString → List UInt8) (sizes : Sizes) (responselen : UInt32) :
    VendorResponse → Marshaller
  | simStatus response => responseSimStatus writeString sizes.cardList response responselen
  | informationRecords response =>
    responseCdmaInformationRecords writeString sizes.informationRecords response responselen
  | cdmaSms response => responseCdmaSms sizes.message response responselen
  | ssData response => responseSSData writeString sizes.ssResponse response responselen

def CountFits (sizes : Sizes) (responselen : UInt32) : VendorResponse → Prop
  | simStatus response => ∀ p_cur ∈ response, responselen.toNat = sizes.cardList →
    p_cur.num_cards ≠ 0 → (p_cur.card 0).num_applications.toInt ≤ RIL_CARD_MAX_APPS
  | informationRecords _ | cdmaSms _ | ssData _ => True

end VendorResponse

theorem simStatus_inside (writeString : CString → List UInt8) (sizes : Sizes)
    (response : Option (CardList Text)) (responselen : UInt32) :
    StaysInside (responseSimStatus writeString sizes.cardList response responselen) ↔
      (VendorResponse.simStatus response).CountFits sizes responselen := by
  cases response with
  | none => exact iff_of_true (fun _ none => nomatch none) (fun _ none => nomatch none)
  | some p_cur =>
    simp only [responseSimStatus,sized,VendorResponse.CountFits,Option.mem_some_iff,forall_eq']
    by_cases length : responselen.toNat = sizes.cardList
    · rw [if_neg (by simp [length])]
      by_cases empty : p_cur.num_cards = 0
      · rw [if_pos empty]
        exact iff_of_true (fun _ none => nomatch none) (fun _ present => absurd empty present)
      · rw [if_neg empty,sendCard_inside]
        exact ⟨fun few _ _ => few,fun few => few length empty⟩
    · rw [if_pos length]
      exact iff_of_true (fun _ none => nomatch none) (fun same => absurd same length)

theorem arrays_read_inside (writeString : CString → List UInt8) (sizes : Sizes)
    (responselen : UInt32) (r : VendorResponse) :
    StaysInside (r.marshaller writeString sizes responselen) ↔ r.CountFits sizes responselen := by
  cases r with
  | simStatus response => exact simStatus_inside writeString sizes response responselen
  | informationRecords response =>
    exact iff_of_true (bounded_informationRecords writeString _ response responselen).accesses trivial
  | cdmaSms response => exact iff_of_true (bounded_cdmaSms _ response responselen).accesses trivial
  | ssData response =>
    exact iff_of_true (bounded_ssData writeString _ response responselen).accesses trivial

def sizes32 : Sizes := ⟨344,1284,368,224⟩

def nineApplications : CardList Text :=
  {(default : CardList Text) with
    num_cards := 1
    card := fun _ => {(default : CardStatus Text) with num_applications := 9}}

theorem ninth_application_read :
    ¬ StaysInside ((VendorResponse.simStatus (some nineApplications)).marshaller
      Responses.asciiString sizes32 344) := by
  intro inside
  have read : (FixedArray.applications,8) ∈ accesses
      ((VendorResponse.simStatus (some nineApplications)).marshaller Responses.asciiString sizes32
        344) := by
    have chosen : (VendorResponse.simStatus (some nineApplications)).marshaller
        Responses.asciiString sizes32 344 = sendCard Responses.asciiString nineApplications := rfl
    rw [chosen,(does_sendCard Responses.asciiString nineApplications).marshalled.2]
    decide
  exact absurd (inside _ read) (by decide)

end SemcMsm7x30.FixedArrays

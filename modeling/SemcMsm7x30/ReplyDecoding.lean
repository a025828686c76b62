import SemcMsm7x30.Responses

namespace SemcMsm7x30.Responses
open Parcel

structure UusFields where
  uusType : Int32
  uusDcs : Int32
  uusLength : Int32
  uusData : List UInt8
  deriving DecidableEq, Repr

structure SimStatus (Text : Type) where
  card_state : Int32
  universal_pin_state : Int32
  gsmUmtsIndex : Int32
  cdmaIndex : Int32
  imsIndex : Int32
  applications : List (AppStatus Text)

section Readers
variable {Text : Type} (string : Codec (Option Text))

def readBlock (len : Nat) : Reader (List UInt8) := fun p => p.readInplace len

def readUus : Reader (Option UusFields) := do
  let present ← readInt
  if present = 1 then
    let uusType ← readInt
    let uusDcs ← readInt
    let uusLength ← readInt
    let uusData ← readBlock uusLength.toInt.toNat
    pure (some ⟨uusType,uusDcs,uusLength,uusData⟩)
  else pure none

def readCall : Reader (Call Text UusFields) := do
  let state ← readInt
  let index ← readInt
  let toa ← readInt
  let isMpty ← readInt
  let isMT ← readInt
  let als ← readInt
  let isVoice ← readInt
  let isVoicePrivacy ← readInt
  let number ← string.read
  let numberPresentation ← readInt
  let name ← string.read
  let namePresentation ← readInt
  let uusInfo ← readUus
  pure ⟨state,index,toa,isMpty,isMT,als,isVoice,isVoicePrivacy,number,numberPresentation,name,
    namePresentation,uusInfo⟩

def readCallForward : Reader (CallForwardInfo Text) := do
  let status ← readInt
  let reason ← readInt
  let serviceClass ← readInt
  let toa ← readInt
  let number ← string.read
  let timeSeconds ← readInt
  pure ⟨status,reason,serviceClass,toa,number,timeSeconds⟩

def readCell : Reader (NeighboringCell Text) := do
  let rssi ← readInt
  let cid ← string.read
  pure ⟨cid,rssi⟩

def readDataCallV6 : Reader (DataCallV6 Text) := do
  let status ← readInt
  let suggestedRetryTime ← readInt
  let cid ← readInt
  let active ← readInt
  let type ← string.read
  let ifname ← string.read
  let addresses ← string.read
  let dnses ← string.read
  let gateways ← string.read
  pure ⟨status,suggestedRetryTime,cid,active,type,ifname,addresses,dnses,gateways⟩

def readDataCallListV6 : Reader (Int32 × List (DataCallV6 Text)) := do
  let version ← readInt
  let calls ← counted (readDataCallV6 string)
  pure (version,calls)

def readAppStatus : Reader (AppStatus Text) := do
  let app_type ← readInt
  let app_state ← readInt
  let perso_substate ← readInt
  let aid_ptr ← string.read
  let app_label_ptr ← string.read
  let pin1_replaced ← readInt
  let pin1 ← readInt
  let pin2 ← readInt
  pure ⟨app_type,app_state,perso_substate,aid_ptr,app_label_ptr,pin1_replaced,pin1,pin2⟩

def readSimStatus : Reader (SimStatus Text) := do
  let card_state ← readInt
  let universal_pin_state ← readInt
  let gsmUmtsIndex ← readInt
  let cdmaIndex ← readInt
  let imsIndex ← readInt
  let applications ← counted (readAppStatus string)
  pure ⟨card_state,universal_pin_state,gsmUmtsIndex,cdmaIndex,imsIndex,applications⟩

def readRegStates : Reader (List (List (Option Text))) :=
  readMany (counted string.read) RIL_MAX_NETWORKS

end Readers

def UusInfo.fields (info : UusInfo) : Option UusFields :=
  info.uusData.map fun data =>
    ⟨info.uusType,info.uusDcs,info.uusLength,(List.range info.uusLength.toInt.toNat).map data⟩

def Call.fields {Text : Type} (call : Call Text UusInfo) : Call Text UusFields :=
  {call with uusInfo := call.uusInfo.bind UusInfo.fields}

def CardList.fields {Text : Type} (cards : CardList Text) : SimStatus Text :=
  if cards.num_cards = 0 then ⟨0,0,-1,-1,-1,[]⟩
  else
    let card := cards.card 0
    ⟨card.card_state,card.universal_pin_state,
      if card.num_current_3gpp_indexes ≤ 0 then -1 else card.subscription_3gpp_app_index 0,
      if card.num_current_3gpp2_indexes ≤ 0 then -1 else card.subscription_3gpp2_app_index 0,
      -1,(List.range card.num_applications.toInt.toNat).map card.applications⟩

section Records
variable {Text : Type} (string : Codec (Option Text))

theorem writeBlock_decodes (data : Nat → UInt8) {len : Nat} (small : len ≤ INT32_MAX) :
    Decodes (readBlock len) (writeBlock data len) ((List.range len).map data) := by
  have bytes : ((List.range len).map data).length = len := by simp
  have block : Decodes (readBlock ((List.range len).map data).length)
      ((List.range len).map data ++
        List.replicate (pad ((List.range len).map data).length-((List.range len).map data).length) 0)
      ((List.range len).map data) := block_roundtrip (by rwa [bytes])
  rw [bytes] at block
  rw [writeBlock,if_pos small]
  exact block

theorem writeUus_decodes {uusInfo : Option UusInfo}
    (positive : ∀ info ∈ uusInfo, 0 ≤ info.uusLength.toInt) :
    Decodes readUus (writeUus uusInfo) (uusInfo.bind UusInfo.fields) := by
  have absent : Decodes readUus (writeInt32 0) none := by
    have flag := int_roundtrip 0
    have both : Decodes readUus (writeInt32 0 ++ []) none := decodes_bind flag (decodes_pure none)
    rwa [List.append_nil] at both
  cases uusInfo with
  | none => exact absent
  | some info =>
    cases data : info.uusData with
    | none =>
      simp only [writeUus,data,Option.bind_some,UusInfo.fields,Option.map_none]
      exact absent
    | some bytes =>
      have length := positive info rfl
      have bound := Int32.toInt_lt info.uusLength
      have len : sizeT info.uusLength.toInt = info.uusLength.toInt.toNat := by
        unfold sizeT
        omega
      have small : info.uusLength.toInt.toNat ≤ INT32_MAX := by
        unfold INT32_MAX
        omega
      simp only [writeUus,data,Option.bind_some,UusInfo.fields,Option.map_some,len,
        List.append_assoc]
      apply decodes_bind (int_roundtrip 1)
      apply decodes_bind (int_roundtrip info.uusType)
      apply decodes_bind (int_roundtrip info.uusDcs)
      apply decodes_bind (int_roundtrip info.uusLength)
      exact decodes_map (writeBlock_decodes bytes small)

theorem writeCall_decodes {call : Call Text UusInfo}
    (positive : ∀ info ∈ call.uusInfo, 0 ≤ info.uusLength.toInt) :
    Decodes (readCall string) (writeCall RIL_VERSION_V3 string.write call) call.fields := by
  have current : ¬RIL_VERSION_V3 < 3 := by decide
  simp only [writeCall,if_neg current,List.append_assoc]
  apply decodes_bind (int_roundtrip call.state)
  apply decodes_bind (int_roundtrip call.index)
  apply decodes_bind (int_roundtrip call.toa)
  apply decodes_bind (int_roundtrip call.isMpty)
  apply decodes_bind (int_roundtrip call.isMT)
  apply decodes_bind (int_roundtrip call.als)
  apply decodes_bind (int_roundtrip call.isVoice)
  apply decodes_bind (int_roundtrip call.isVoicePrivacy)
  apply decodes_bind (string.roundtrip call.number)
  apply decodes_bind (int_roundtrip call.numberPresentation)
  apply decodes_bind (string.roundtrip call.name)
  apply decodes_bind (int_roundtrip call.namePresentation)
  exact decodes_map (writeUus_decodes positive)

theorem writeCallForward_decodes (info : CallForwardInfo Text) :
    Decodes (readCallForward string) (writeCallForward string.write info) info := by
  simp only [writeCallForward,List.append_assoc]
  apply decodes_bind (int_roundtrip info.status)
  apply decodes_bind (int_roundtrip info.reason)
  apply decodes_bind (int_roundtrip info.serviceClass)
  apply decodes_bind (int_roundtrip info.toa)
  apply decodes_bind (string.roundtrip info.number)
  exact decodes_map (int_roundtrip info.timeSeconds)

theorem writeCell_decodes (cell : NeighboringCell Text) :
    Decodes (readCell string) (writeCell string.write cell) cell := by
  apply decodes_bind (int_roundtrip cell.rssi)
  exact decodes_map (string.roundtrip cell.cid)

theorem writeDataCallV6_decodes (call : DataCallV6 Text) :
    Decodes (readDataCallV6 string) (writeDataCallV6 string.write call) call := by
  simp only [writeDataCallV6,List.append_assoc]
  apply decodes_bind (int_roundtrip call.status)
  apply decodes_bind (int_roundtrip call.suggestedRetryTime)
  apply decodes_bind (int_roundtrip call.cid)
  apply decodes_bind (int_roundtrip call.active)
  apply decodes_bind (string.roundtrip call.type)
  apply decodes_bind (string.roundtrip call.ifname)
  apply decodes_bind (string.roundtrip call.addresses)
  apply decodes_bind (string.roundtrip call.dnses)
  exact decodes_map (string.roundtrip call.gateways)

theorem writeAppStatus_decodes (app : AppStatus Text) :
    Decodes (readAppStatus string) (writeAppStatus string.write app) app := by
  simp only [writeAppStatus,List.append_assoc]
  apply decodes_bind (int_roundtrip app.app_type)
  apply decodes_bind (int_roundtrip app.app_state)
  apply decodes_bind (int_roundtrip app.perso_substate)
  apply decodes_bind (string.roundtrip app.aid_ptr)
  apply decodes_bind (string.roundtrip app.app_label_ptr)
  apply decodes_bind (int_roundtrip app.pin1_replaced)
  apply decodes_bind (int_roundtrip app.pin1)
  exact decodes_map (int_roundtrip app.pin2)

theorem loop_decodes {α : Type} {read : Reader α} {write : α → List UInt8} (count : Int32)
    (item : Nat → α) (each : ∀ i, Decodes read (write (item i)) (item i)) :
    Decodes (counted read)
      (writeInt32 count ++ ((List.range count.toInt.toNat).map item).flatMap write)
      ((List.range count.toInt.toNat).map item) := by
  have length : count.toInt.toNat = ((List.range count.toInt.toNat).map item).length := by simp
  have every : ∀ record ∈ (List.range count.toInt.toNat).map item,
      Decodes read (write record) (id record) := by
    intro record member
    obtain ⟨i,_,rfl⟩ := List.mem_map.mp member
    exact each i
  have whole := counted_roundtrip length every
  rwa [List.map_id] at whole

theorem card_decodes (card_state universal_pin_state gsm cdma ims num_apps : Int32)
    (appStatus : Nat → AppStatus Text) :
    Decodes (readSimStatus string)
      (writeInt32 card_state ++ writeInt32 universal_pin_state ++ writeInt32 gsm ++
        writeInt32 cdma ++ writeInt32 ims ++ sendSimStatusAppInfo string.write num_apps appStatus)
      ⟨card_state,universal_pin_state,gsm,cdma,ims,
        (List.range num_apps.toInt.toNat).map appStatus⟩ := by
  have apps := loop_decodes num_apps appStatus
    fun i => writeAppStatus_decodes string (appStatus i)
  simp only [List.append_assoc]
  apply decodes_bind (int_roundtrip card_state)
  apply decodes_bind (int_roundtrip universal_pin_state)
  apply decodes_bind (int_roundtrip gsm)
  apply decodes_bind (int_roundtrip cdma)
  apply decodes_bind (int_roundtrip ims)
  exact decodes_map apps

theorem writeRegState_decodes (record : RegistrationStateRecord Text) :
    Decodes (counted string.read) (writeRegState string.write record)
      ((List.range record.numElements.toInt.toNat).map record.regState) :=
  loop_decodes record.numElements record.regState fun i => string.roundtrip (record.regState i)

end Records

def Recovers {Text α : Type} (run : Option (Memory Text) → UInt32 → Marshalled) (read : Reader α)
    (Fine : Memory Text → UInt32 → Prop)
    (fields : Option (Memory Text) → UInt32 → Option α) : Prop :=
  ∀ response responselen payload, (∀ memory ∈ response, Fine memory responselen) →
    run response responselen = (payload,0) →
    ∃ value, fields response responselen = some value ∧
      read (setData payload) = some (value,⟨payload,payload.length⟩)

def anything {Text : Type} (_ : Memory Text) (_ : UInt32) : Prop := True

def uusLengths {Text : Type} (memory : Memory Text) (responselen : UInt32) : Prop :=
  ∀ i < responselen.toNat/sizeofWord, ∀ info ∈ (memory.calls i).uusInfo, 0 ≤ info.uusLength.toInt

def registrationCounts {Text : Type} (memory : Memory Text) (_ : UInt32) : Prop :=
  ∀ i < RIL_MAX_NETWORKS, 0 ≤ (memory.records i).numElements.toInt

def applicationCount {Text : Type} (memory : Memory Text) (_ : UInt32) : Prop :=
  0 ≤ (memory.cardList.card 0).num_applications.toInt ∧
    (memory.cardList.card 0).num_applications.toInt ≤ 8

section Lists
variable {Text : Type}

-- Of two bytes or more per record there are at most as many as an int counts.
theorem responseList_decodes {α γ : Type} {front : List UInt8} {size : Nat} (wide : 2 ≤ size)
    {p_cur : Memory Text → Nat → γ} {write : γ → List UInt8} {read : Reader α} {view : γ → α}
    {response : Option (Memory Text)} {responselen : UInt32} {payload : List UInt8}
    (each : ∀ record ∈ records p_cur response (responselen.toNat/size),
      Decodes read (write record) (view record))
    (ran : responseList front size p_cur write response responselen = (payload,0)) :
    ∃ bytes, payload = front ++ bytes ∧
      Decodes (counted read) bytes
        ((records p_cur response (responselen.toNat/size)).map view) := by
  unfold responseList at ran
  split at ran
  · simp [invalid,RIL_ERRNO_INVALID_RESPONSE] at ran
  · rename_i pointer
    split at ran
    · simp [invalid,RIL_ERRNO_INVALID_RESPONSE] at ran
    · cases ran
      have length : (records p_cur response (responselen.toNat/size)).length =
          responselen.toNat/size := by
        cases response with
        | none =>
          have zero : responselen = 0 := by simpa using pointer
          simp [records,zero]
        | some memory => simp [records]
      have bound : responselen.toNat/size < 2^31 := by
        have full := responselen.toNat_lt
        have less := Nat.div_le_div_left wide (by omega : 0 < 2) (a := responselen.toNat)
        omega
      have count : (Int32.ofNat (responselen.toNat/size)).toInt = (responselen.toNat/size : Nat) :=
        Int32.toInt_ofNat_of_lt bound
      have written : (Int32.ofNat (responselen.toNat/size)).toInt.toNat =
          (records p_cur response (responselen.toNat/size)).length := by
        rw [count,length,Int.toNat_natCast]
      have whole := counted_roundtrip written each
      rw [count] at whole
      exact ⟨_,List.append_assoc _ _ _,whole⟩

theorem recovers_list {α γ : Type} {size : Nat} (wide : 2 ≤ size)
    {p_cur : Memory Text → Nat → γ} {write : γ → List UInt8} {read : Reader α} {view : γ → α}
    {Fine : Memory Text → UInt32 → Prop}
    (each : ∀ memory responselen, Fine memory responselen → ∀ i < responselen.toNat/size,
      Decodes read (write (p_cur memory i)) (view (p_cur memory i))) :
    Recovers (responseList [] size p_cur write) (counted read) Fine
      (fun response responselen =>
        some ((records p_cur response (responselen.toNat/size)).map view)) := by
  intro response responselen payload fine ran
  have every : ∀ record ∈ records p_cur response (responselen.toNat/size),
      Decodes read (write record) (view record) := by
    cases response with
    | none => simp [records]
    | some memory =>
      intro record member
      obtain ⟨i,within,rfl⟩ := List.mem_map.mp member
      exact each memory responselen (fine memory rfl) i (List.mem_range.mp within)
  obtain ⟨bytes,rfl,decodes⟩ := responseList_decodes wide every ran
  exact ⟨_,rfl,decodes.whole⟩

theorem recovers_same {α : Type} {size : Nat} (wide : 2 ≤ size) {p_cur : Memory Text → Nat → α}
    {write : α → List UInt8} {read : Reader α}
    (each : ∀ record, Decodes read (write record) record) :
    Recovers (responseList [] size p_cur write) (counted read) anything
      (fun response responselen => some (records p_cur response (responselen.toNat/size))) := by
  have mapped : Recovers (responseList [] size p_cur write) (counted read) anything
      (fun response responselen =>
        some ((records p_cur response (responselen.toNat/size)).map id)) :=
    recovers_list wide fun memory _ _ i _ => each (p_cur memory i)
  simpa only [List.map_id] using mapped

theorem recovers_dataCallListV6 (layout : Layout) (string : Codec (Option Text)) :
    Recovers (responseDataCallListV6 layout string.write) (readDataCallListV6 string) anything
      (fun response responselen =>
        some (6,records Memory.dataCallsV6 response (responselen.toNat/layout.dataCallV6))) := by
  intro response responselen payload _ ran
  have wide : 2 ≤ layout.dataCallV6 := by
    have := layout.nineWords
    omega
  obtain ⟨bytes,rfl,decodes⟩ := responseList_decodes wide
    (fun record _ => writeDataCallV6_decodes string record) ran
  refine ⟨_,rfl,?_⟩
  apply Decodes.whole
  apply decodes_bind (int_roundtrip 6)
  rw [List.map_id'] at decodes
  exact decodes_map decodes

theorem recovers_simStatus (layout : Layout) (string : Codec (Option Text)) :
    Recovers (responseSimStatus layout string.write) (readSimStatus string) applicationCount
      (fun response _ => response.map fun memory => memory.cardList.fields) := by
  intro response responselen payload _ ran
  cases response with
  | none => simp [responseSimStatus,invalid,RIL_ERRNO_INVALID_RESPONSE] at ran
  | some memory =>
    refine ⟨memory.cardList.fields,rfl,?_⟩
    apply Decodes.whole
    unfold responseSimStatus at ran
    unfold CardList.fields
    simp only at ran
    split at ran
    · simp [invalid,RIL_ERRNO_INVALID_RESPONSE] at ran
    · split at ran
      · rename_i empty
        cases ran
        rw [if_pos empty]
        exact card_decodes string 0 0 (-1) (-1) (-1) 0 (memory.cardList.card 0).applications
      · rename_i present
        cases ran
        rw [if_neg present]
        exact card_decodes string _ _ _ _ _ _ _

theorem recovers_regState (string : Codec (Option Text)) :
    Recovers (responseRegState string.write) (readRegStates string) registrationCounts
      (fun response _ => response.map fun memory =>
        ((List.range RIL_MAX_NETWORKS).map memory.records).map fun record =>
          (List.range record.numElements.toInt.toNat).map record.regState) := by
  intro response responselen payload _ ran
  cases response with
  | none => simp [responseRegState,invalid,RIL_ERRNO_INVALID_RESPONSE] at ran
  | some memory =>
    refine ⟨_,rfl,?_⟩
    apply Decodes.whole
    unfold responseRegState at ran
    simp only at ran
    split at ran
    · simp [invalid,RIL_ERRNO_INVALID_RESPONSE] at ran
    · cases ran
      have each : ∀ record ∈ (List.range RIL_MAX_NETWORKS).map memory.records,
          Decodes (counted string.read) (writeRegState string.write record)
            ((List.range record.numElements.toInt.toNat).map record.regState) :=
        fun record _ => writeRegState_decodes string record
      have both := decodes_many each
      rwa [List.length_map,List.length_range] at both

end Lists

theorem payloads_recovered {Text : Type} (string : Codec (Option Text)) (layout : Layout) :
    Recovers (responseInts : Option (Memory Text) → UInt32 → Marshalled) (counted readInt) anything
      (fun response responselen =>
        some (records Memory.int response (responselen.toNat/sizeofWord))) ∧
    Recovers (responseStrings string.write) (counted string.read) anything
      (fun response responselen =>
        some (records Memory.strings response (responselen.toNat/sizeofWord))) ∧
    Recovers (responseCallList RIL_VERSION_V3 string.write) (counted (readCall string)) uusLengths
      (fun response responselen =>
        some ((records Memory.calls response (responselen.toNat/sizeofWord)).map Call.fields)) ∧
    Recovers (responseCallForwards string.write) (counted (readCallForward string)) anything
      (fun response responselen =>
        some (records Memory.callForwards response (responselen.toNat/sizeofWord))) ∧
    Recovers (responseCellList string.write) (counted (readCell string)) anything
      (fun response responselen =>
        some (records Memory.cells response (responselen.toNat/sizeofWord))) ∧
    Recovers (responseDataCallListV6 layout string.write) (readDataCallListV6 string) anything
      (fun response responselen =>
        some (6,records Memory.dataCallsV6 response (responselen.toNat/layout.dataCallV6))) ∧
    Recovers (responseRegState string.write) (readRegStates string) registrationCounts
      (fun response _ => response.map fun memory =>
        ((List.range RIL_MAX_NETWORKS).map memory.records).map fun record =>
          (List.range record.numElements.toInt.toNat).map record.regState) ∧
    Recovers (responseSimStatus layout string.write) (readSimStatus string) applicationCount
      (fun response _ => response.map fun memory => memory.cardList.fields) := by
  have word : 2 ≤ sizeofWord := by decide
  refine ⟨recovers_same word int_roundtrip,recovers_same word string.roundtrip,?_,
    recovers_same word (writeCallForward_decodes string),
    recovers_same word (writeCell_decodes string),recovers_dataCallListV6 layout string,
    recovers_regState string,recovers_simStatus layout string⟩
  apply recovers_list word
  intro memory responselen fine i within
  exact writeCall_decodes string (fine i within)

def IsAscii (s : List UInt8) : Prop := (∀ c ∈ s, c < 128) ∧ Fits (s.map UInt8.toUInt16)

instance (s : List UInt8) : Decidable (IsAscii s) := inferInstanceAs (Decidable (_ ∧ _))

abbrev AsciiText := {s : List UInt8 // IsAscii s}

instance : Inhabited AsciiText := ⟨[],by simp [IsAscii,Fits,INT32_MAX]⟩

def widen (s : Option AsciiText) : Option (List UInt16) :=
  s.map fun text => text.val.map UInt8.toUInt16

def narrow : Option (List UInt16) → Reader (Option AsciiText)
  | none => pure none
  | some text =>
    if ascii : IsAscii (text.map UInt16.toUInt8) then pure (some ⟨_,ascii⟩) else failure

theorem narrow_decodes (s : Option AsciiText) : Decodes (narrow (widen s)) [] s := by
  cases s with
  | none => exact decodes_pure none
  | some text =>
    have back : (text.val.map UInt8.toUInt16).map UInt16.toUInt8 = text.val := by
      simp [List.map_map,Function.comp_def]
    have ascii : IsAscii ((text.val.map UInt8.toUInt16).map UInt16.toUInt8) := by
      rw [back]
      exact text.property
    have same : (⟨_,ascii⟩ : AsciiText) = text := Subtype.ext back
    simp only [widen,Option.map_some,narrow,dif_pos ascii,same]
    exact decodes_pure (some text)

theorem asciiString_bytes (s : Option AsciiText) :
    asciiString (s.map (·.val)) = string16Bytes (widen s) := by
  have appended : (Parcel.empty.writeString16 (widen s)).data = [] ++ string16Bytes (widen s) :=
    writeString16_at_end (widen s) rfl
  rw [List.nil_append] at appended
  cases s <;> exact appended

def readAscii : Reader (Option AsciiText) := readString16 >>= narrow

def writeAscii (s : Option AsciiText) : List UInt8 := asciiString (s.map (·.val))

theorem ascii_roundtrip (s : Option AsciiText) : Decodes readAscii (writeAscii s) s := by
  have fits : ∀ text ∈ widen s, Fits text := by
    cases s with
    | none => simp [widen]
    | some text =>
      intro wide member
      cases member
      exact text.property.2
  have both := decodes_bind (string16_roundtrip fits) (narrow_decodes s)
  rwa [List.append_nil,← asciiString_bytes] at both

def asciiCodec : Codec (Option AsciiText) := ⟨writeAscii,readAscii,ascii_roundtrip⟩

def oneCall : Memory AsciiText :=
  {(default : Memory AsciiText) with
    calls := fun _ => {(default : Call AsciiText UusInfo) with
      number := some ⟨[0x31,0x32],by simp [IsAscii,Fits,INT32_MAX]⟩
      uusInfo := some ⟨0,1,3,some fun i => .ofNat i⟩}}

theorem payloads_recovered_call :
    ∃ value, some ((records Memory.calls (some oneCall) ((4 : UInt32).toNat/sizeofWord)).map
        Call.fields) = some value ∧
      counted (readCall asciiCodec)
          (setData (responseCallList RIL_VERSION_V3 asciiCodec.write (some oneCall) 4).1) =
        some (value,⟨(responseCallList RIL_VERSION_V3 asciiCodec.write (some oneCall) 4).1,
          (responseCallList RIL_VERSION_V3 asciiCodec.write (some oneCall) 4).1.length⟩) := by
  apply (payloads_recovered asciiCodec words32).2.2.1 (some oneCall) 4
  · intro memory member i _ info present
    cases member
    cases present
    decide
  · rfl

end SemcMsm7x30.Responses

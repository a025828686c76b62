import SemcMsm7x30.RequestDecoding
import SemcMsm7x30.LateStatus
import SemcMsm7x30.FixedArrays

namespace SemcMsm7x30.CdmaSms
open Encoding
open FixedArrays (Message FixedArray does_writeInt does_writeByte responseCdmaSms writeEntries)
open Responses (writeInt32 writeBlock writeSize)

section Message

-- What the clamped loops go over.
def digitLimit (m : Message) : Nat := min m.number_of_digits.toNat RIL_CDMA_SMS_ADDRESS_MAX

def subDigitLimit (m : Message) : Nat := min m.sub_number_of_digits.toNat RIL_CDMA_SMS_SUBADDRESS_MAX

def bearerLimit (m : Message) : Nat := (min m.uBearerDataLen.toInt RIL_CDMA_SMS_BEARER_DATA_MAX).toNat

def cleared (m : Message) : Message :=
  {m with
    digits := fun i => if i < digitLimit m then m.digits i else 0
    subDigits := fun i => if i < subDigitLimit m then m.subDigits i else 0
    aBearerData := fun i => if i < bearerLimit m then m.aBearerData i else 0}

def header (m : Message) : CdmaSmsHeader :=
  ⟨m.uTeleserviceID.toInt,m.bIsServicePresent.toNat,m.uServicecategory.toInt,m.digit_mode.toInt,
    m.number_mode.toInt,m.number_type.toInt,m.number_plan.toInt,m.number_of_digits.toNat⟩

def subAddress (m : Message) : CdmaSmsSubAddress :=
  ⟨m.subaddressType.toInt,m.odd.toNat,m.sub_number_of_digits.toNat⟩

structure Holds (rcsm : CdmaSmsMessage) (m : Message) : Prop where
  header : rcsm.header = header m
  digits : ∀ i, rcsm.digits.getD i 0 = (m.digits i).toNat
  sSubAddress : rcsm.sSubAddress = subAddress m
  subDigits : ∀ i, rcsm.subDigits.getD i 0 = (m.subDigits i).toNat
  uBearerDataLen : rcsm.uBearerDataLen = m.uBearerDataLen.toInt
  aBearerData : ∀ i, rcsm.aBearerData.getD i 0 = (m.aBearerData i).toNat

def firstEntries (items : Nat → UInt8) (limit : Nat) : List Nat :=
  ((List.range limit).map items).map UInt8.toNat

def received (m : Message) : CdmaSmsMessage :=
  ⟨header m,firstEntries m.digits (digitLimit m),subAddress m,
    firstEntries m.subDigits (subDigitLimit m),m.uBearerDataLen.toInt,
    firstEntries m.aBearerData (bearerLimit m)⟩

theorem firstEntries_getD (items : Nat → UInt8) (limit i : Nat) :
    (firstEntries items limit).getD i 0 = (if i < limit then items i else 0).toNat := by
  by_cases below : i < limit
  · simp [firstEntries,below]
  · simp [firstEntries,below]

theorem received_holds (m : Message) : Holds (received m) (cleared m) where
  header := rfl
  digits := firstEntries_getD m.digits _
  sSubAddress := rfl
  subDigits := firstEntries_getD m.subDigits _
  uBearerDataLen := rfl
  aBearerData := firstEntries_getD m.aBearerData _

end Message

section Encoder

def headerBytes (m : Message) : List UInt8 :=
  writeInt32 m.uTeleserviceID ++ ([m.bIsServicePresent,0,0,0] ++ (writeInt32 m.uServicecategory ++
    (writeInt32 m.digit_mode ++ (writeInt32 m.number_mode ++ (writeInt32 m.number_type ++
      (writeInt32 m.number_plan ++ [m.number_of_digits,0,0,0]))))))

def subAddressBytes (m : Message) : List UInt8 :=
  writeInt32 m.subaddressType ++ ([m.odd,0,0,0] ++ [m.sub_number_of_digits,0,0,0])

def entryBytes (items : Nat → UInt8) (limit : Nat) : List UInt8 :=
  ((List.range limit).map items).flatMap fun entry => [entry,0,0,0]

def payload (m : Message) : List UInt8 :=
  headerBytes m ++ (entryBytes m.digits (digitLimit m) ++ (subAddressBytes m ++
    (entryBytes m.subDigits (subDigitLimit m) ++ (writeInt32 m.uBearerDataLen ++
      entryBytes m.aBearerData (bearerLimit m)))))

theorem does_writeEntries (array : FixedArray) (items : Nat → UInt8) (limit : Nat) :
    Does (writeEntries array items limit) () (entryBytes items limit)
      ((List.range limit).map fun i => (array,i)) :=
  does_loop array items _ limit

theorem does_responseCdmaSms {size : Nat} {responselen : UInt32} (m : Message)
    (sized : responselen.toNat = size) :
    Does (responseCdmaSms size (some m) responselen) () (payload m)
      ((List.range (digitLimit m)).map (fun i => (.addressDigits,i)) ++
        ((List.range (subDigitLimit m)).map (fun i => (.subAddressDigits,i)) ++
          (List.range (bearerLimit m)).map fun i => (.aBearerData,i))) := by
  have body : responseCdmaSms size (some m) responselen = _ := if_neg (not_not.mpr sized)
  rw [body]
  simp only [payload,headerBytes,subAddressBytes,List.append_assoc]
  apply does_next (does_writeInt _)
  apply does_next (does_writeByte _)
  apply does_next (does_writeInt _)
  apply does_next (does_writeInt _)
  apply does_next (does_writeInt _)
  apply does_next (does_writeInt _)
  apply does_next (does_writeInt _)
  apply does_next (does_writeByte _)
  apply does_bind (does_writeEntries _ _ _)
  apply does_next (does_writeInt _)
  apply does_next (does_writeByte _)
  apply does_next (does_writeByte _)
  apply does_bind (does_writeEntries _ _ _)
  apply does_next (does_writeInt _)
  exact does_writeEntries _ _ _

theorem responseCdmaSms_payload {size : Nat} {responselen : UInt32} (m : Message)
    (sized : responselen.toNat = size) :
    marshalled (responseCdmaSms size (some m) responselen) = (payload m,0) :=
  (does_responseCdmaSms m sized).marshalled.1

end Encoder

section Decoder

theorem takes_entryBytes (items : Nat → UInt8) (limit : Nat) :
    Takes (readBytes limit) (entryBytes items limit) (firstEntries items limit) := by
  have all := takes_bytes ((List.range limit).map items)
  rwa [List.length_map,List.length_range] at all

theorem takes_header (m : Message) : Takes readCdmaSmsHeader (headerBytes m) (header m) := by
  apply takes_bind (takes_int _)
  apply takes_bind (takes_byte _)
  apply takes_bind (takes_int _)
  apply takes_bind (takes_int _)
  apply takes_bind (takes_int _)
  apply takes_bind (takes_int _)
  apply takes_bind (takes_int _)
  exact takes_map (takes_byte _)

theorem takes_subAddress (m : Message) :
    Takes readCdmaSmsSubAddress (subAddressBytes m) (subAddress m) := by
  apply takes_bind (takes_int _)
  apply takes_bind (takes_byte _)
  exact takes_map (takes_byte _)

theorem takes_payload (m : Message) : Takes constructCdmaSms (payload m) (received m) := by
  apply takes_bind (takes_header m)
  apply takes_bind (takes_entryBytes m.digits _)
  apply takes_bind (takes_subAddress m)
  apply takes_bind (takes_entryBytes m.subDigits _)
  apply takes_bind (takes_int m.uBearerDataLen)
  exact takes_map (takes_entryBytes m.aBearerData _)

end Decoder

section Broadcast

def gsmConfig (config : Responses.GsmBroadcastSmsConfigInfo) : GsmBroadcastSmsConfigInfo :=
  ⟨config.fromServiceId.toInt,config.toServiceId.toInt,config.fromCodeScheme.toInt,
    config.toCodeScheme.toInt,config.selected.toNat⟩

def cdmaConfig (config : Responses.CdmaBroadcastSmsConfigInfo) : CdmaBroadcastSmsConfigInfo :=
  ⟨config.service_category.toInt,config.language.toInt,config.selected.toNat⟩

theorem takes_selected {α : Type} (selected : UInt8) (make : Nat → α) :
    Takes (readInt32 >>= fun t => pure (make (t%2^8).toNat)) (Parcel.le32 selected.toNat)
      (make selected.toNat) := by
  have small := selected.toNat_lt
  have kept : ((selected.toNat : Int)%2^8).toNat = selected.toNat := by omega
  have read : Takes readInt32 (Parcel.le32 selected.toNat) selected.toNat := by
    apply takes_int32 <;> omega
  have both := @takes_map _ _ _ (fun t => make (t%2^8).toNat) _ _ read
  rwa [kept] at both

theorem takes_gsmConfig (config : Responses.GsmBroadcastSmsConfigInfo) :
    Takes readGsmBroadcast
      (writeInt32 config.fromServiceId ++ writeInt32 config.toServiceId ++
        writeInt32 config.fromCodeScheme ++ writeInt32 config.toCodeScheme ++
        Parcel.le32 config.selected.toNat) (gsmConfig config) := by
  simp only [List.append_assoc,gsmConfig]
  apply takes_bind (takes_int _)
  apply takes_bind (takes_int _)
  apply takes_bind (takes_int _)
  apply takes_bind (takes_int _)
  exact takes_selected _ _

theorem takes_cdmaConfig (config : Responses.CdmaBroadcastSmsConfigInfo) :
    Takes readCdmaBroadcast
      (writeInt32 config.service_category ++ writeInt32 config.language ++
        Parcel.le32 config.selected.toNat) (cdmaConfig config) := by
  simp only [List.append_assoc,cdmaConfig]
  apply takes_bind (takes_int _)
  apply takes_bind (takes_int _)
  exact takes_selected _ _

theorem dispatchBroadcast_list {α γ : Type} {platform : Platform} {size : Nat}
    {entry : StateM Locals α} {request : List α → Nat → VendorData} {write : γ → List UInt8}
    {view : γ → α} {configs : List γ} (each : ∀ config, Takes entry (write config) (view config))
    (short : configs.length < 2^31) (room : stackFits platform size configs.length = true)
    (header : List UInt8) :
    dispatchBroadcast platform size entry request
        ⟨header ++ (writeSize configs.length ++ configs.flatMap write),header.length⟩ =
      [.onRequest (request (configs.map view) (4*configs.length))] := by
  have count : Takes readInt32 (writeSize configs.length) configs.length := by
    apply takes_int32 <;> omega
  have entries := takes_entries each configs
  refine (Takes.whole ?_ header).1
  apply takes_bind count
  apply takes_checked
  rw [if_neg (by decide),if_neg (by omega),if_pos room,Int.toNat_natCast,
    ← List.append_nil (configs.flatMap write)]
  apply takes_bind entries
  apply takes_checked
  exact takes_pure _

end Broadcast

section Roundtrip
variable {Text : Type}

theorem counted_words {responselen : UInt32} {count : Nat} (sized : responselen.toNat = 4*count) :
    responselen.toNat/Responses.sizeofWord = count ∧ count < 2^31 := by
  have bound := responselen.toNat_lt
  unfold Responses.sizeofWord
  omega

theorem responseGsmBrSmsCnf_decoded {platform : Platform} {memory : Responses.Memory Text}
    {configs : List Responses.GsmBroadcastSmsConfigInfo} {responselen : UInt32}
    (list : (List.range configs.length).map memory.gsmBroadcasts = configs)
    (sized : responselen.toNat = 4*configs.length)
    (room : stackFits platform 24 configs.length = true) (header : List UInt8) :
    dispatchGsmBrSmsCnf platform
        ⟨header ++ (Responses.responseGsmBrSmsCnf memory responselen).1,header.length⟩ =
      [.onRequest (.gsmBroadcast (configs.map gsmConfig) (4*configs.length))] := by
  obtain ⟨number,short⟩ := counted_words sized
  simp only [Responses.responseGsmBrSmsCnf,number,list]
  exact dispatchBroadcast_list takes_gsmConfig short room header

theorem responseCdmaBrSmsCnf_decoded {platform : Platform} {memory : Responses.Memory Text}
    {configs : List Responses.CdmaBroadcastSmsConfigInfo} {responselen : UInt32}
    (list : (List.range configs.length).map memory.cdmaBroadcasts = configs)
    (sized : responselen.toNat = 4*configs.length)
    (room : stackFits platform 16 configs.length = true) (header : List UInt8) :
    dispatchCdmaBrSmsCnf platform
        ⟨header ++ (Responses.responseCdmaBrSmsCnf memory responselen).1,header.length⟩ =
      [.onRequest (.cdmaBroadcast (configs.map cdmaConfig) (4*configs.length))] := by
  obtain ⟨number,short⟩ := counted_words sized
  simp only [Responses.responseCdmaBrSmsCnf,number,list]
  exact dispatchBroadcast_list takes_cdmaConfig short room header

-- `header` is what stands in front of the payload. The size of the message is
-- that of its struct, and the stack has room for the two arrays of a broadcast
-- request.
theorem decoders_undo_encoders (size : Nat) (platform : Platform) (header : List UInt8) :
    (∀ (m : Message) (responselen : UInt32), responselen.toNat = size →
      ∃ bytes, marshalled (responseCdmaSms size (some m) responselen) = (bytes,0) ∧
        (constructCdmaSms (.start ⟨header ++ bytes,header.length⟩)).2.status = true ∧
        (constructCdmaSms (.start ⟨header ++ bytes,header.length⟩)).2.p =
          ⟨header ++ bytes,(header ++ bytes).length⟩ ∧
        Holds (constructCdmaSms (.start ⟨header ++ bytes,header.length⟩)).1 (cleared m)) ∧
    (∀ (memory : Responses.Memory Text) (configs : List Responses.GsmBroadcastSmsConfigInfo)
      (responselen : UInt32),
      (List.range configs.length).map memory.gsmBroadcasts = configs →
      responselen.toNat = 4*configs.length → stackFits platform 24 configs.length = true →
      ∃ bytes, Responses.responseGsmBrSmsCnf memory responselen = (bytes,0) ∧
        dispatchGsmBrSmsCnf platform ⟨header ++ bytes,header.length⟩ =
          [.onRequest (.gsmBroadcast (configs.map gsmConfig) (4*configs.length))]) ∧
    (∀ (memory : Responses.Memory Text) (configs : List Responses.CdmaBroadcastSmsConfigInfo)
      (responselen : UInt32),
      (List.range configs.length).map memory.cdmaBroadcasts = configs →
      responselen.toNat = 4*configs.length → stackFits platform 16 configs.length = true →
      ∃ bytes, Responses.responseCdmaBrSmsCnf memory responselen = (bytes,0) ∧
        dispatchCdmaBrSmsCnf platform ⟨header ++ bytes,header.length⟩ =
          [.onRequest (.cdmaBroadcast (configs.map cdmaConfig) (4*configs.length))]) := by
  refine ⟨?_,?_,?_⟩
  · intro m responselen sized
    obtain ⟨found,stops,good⟩ := (takes_payload m).whole header
    refine ⟨payload m,responseCdmaSms_payload m sized,good,stops,?_⟩
    rw [found]
    exact received_holds m
  · intro memory configs responselen list sized room
    exact ⟨_,rfl,responseGsmBrSmsCnf_decoded list sized room header⟩
  · intro memory configs responselen list sized room
    exact ⟨_,rfl,responseCdmaBrSmsCnf_decoded list sized room header⟩

def overlong : Message :=
  ⟨4098,1,0,0,0,1,1,200,fun i => .ofNat i,0,0,37,fun _ => 5,-1,fun _ => 9⟩

def oneConfig : Responses.GsmBroadcastSmsConfigInfo := ⟨50,60,0,255,1⟩

def oneEntry : Responses.Memory Unit :=
  {(default : Responses.Memory Unit) with gsmBroadcasts := fun _ => oneConfig}

theorem decoders_undo_encoders_overlong :
    (∃ bytes, marshalled (responseCdmaSms 300 (some overlong) 300) = (bytes,0) ∧
      Holds (constructCdmaSms (.start ⟨[] ++ bytes,0⟩)).1 (cleared overlong)) ∧
    ∃ bytes, Responses.responseGsmBrSmsCnf oneEntry 4 = (bytes,0) ∧
      dispatchGsmBrSmsCnf (asciiBuild 1).platform ⟨[] ++ bytes,0⟩ =
        [.onRequest (.gsmBroadcast [⟨50,60,0,255,1⟩] 4)] := by
  obtain ⟨sms,gsm,cdma⟩ := @decoders_undo_encoders Unit 300 (asciiBuild 1).platform []
  constructor
  · obtain ⟨bytes,written,_,_,holds⟩ := sms overlong 300 (by decide)
    exact ⟨bytes,written,holds⟩
  · exact gsm oneEntry [oneConfig] 4 rfl (by decide) (by decide)

end Roundtrip

section Formats
open LateStatus (Reading constructed writeArgs cdmaSms)

def behind (before : List UInt8) (p : Parcel) : Parcel :=
  ⟨before ++ p.data,before.length+p.pos⟩

theorem avail_behind (before : List UInt8) (p : Parcel) : (behind before p).avail = p.avail := by
  simp only [behind,Parcel.avail,List.length_append]
  omega

theorem byteAt_behind (before : List UInt8) (p : Parcel) (offset : Nat) :
    (behind before p).byteAt offset = p.byteAt offset := by
  simp only [behind,Parcel.byteAt,List.getD_eq_getElem?_getD,Nat.add_assoc]
  rw [List.getElem?_append_right (Nat.le_add_right _ _),Nat.add_sub_cancel_left]

theorem int32At_behind (before : List UInt8) (p : Parcel) (offset : Nat) :
    (behind before p).int32At offset = p.int32At offset := by
  simp only [Parcel.int32At,Parcel.wordAt,byteAt_behind]

theorem skip_behind (before : List UInt8) (p : Parcel) (n : Nat) :
    (behind before p).skip n = behind before (p.skip n) := by
  simp only [behind,Parcel.skip,Nat.add_assoc]

structure Moved (before : List UInt8) (l moved : Locals) : Prop where
  place : moved.p = behind before l.p
  fine : l.status = true
  good : moved.status = true

theorem readInt32_moved {before : List UInt8} {l moved : Locals} (same : Moved before l moved)
    (read : (readInt32 l).2.status = true) :
    (readInt32 moved).1 = (readInt32 l).1 ∧ Moved before (readInt32 l).2 (readInt32 moved).2 := by
  have room : 4 ≤ l.p.avail := by
    rw [← Bool.not_eq_false,readInt32_status] at read
    exact Nat.not_lt.mp read
  have moreRoom : 4 ≤ moved.p.avail := by rwa [same.place,avail_behind]
  refine ⟨?_,?_,read,?_⟩
  · rw [readInt32_value room,readInt32_value moreRoom,same.place,int32At_behind]
  · rw [readInt32_p,readInt32_p,afterInt_eq_skip room,afterInt_eq_skip moreRoom,same.place,
      skip_behind]
  · rw [← Bool.not_eq_false,readInt32_status]
    exact Nat.not_lt.mpr moreRoom

theorem readByte_moved {before : List UInt8} {l moved : Locals} (same : Moved before l moved)
    (read : (readByte l).2.status = true) :
    (readByte moved).1 = (readByte l).1 ∧ Moved before (readByte l).2 (readByte moved).2 := by
  have room : 4 ≤ l.p.avail := by
    by_contra short
    rw [LateStatus.Reading.readByte_fails (Nat.not_le.mp short)] at read
    cases read
  have moreRoom : 4 ≤ moved.p.avail := by rwa [same.place,avail_behind]
  rw [readByte_enough room,readByte_enough moreRoom,same.place]
  exact ⟨byteAt_behind before l.p 0,skip_behind before l.p 4,rfl,rfl⟩

-- Where every read succeeds, what stands in front makes no difference.
theorem run_moved {α : Type} {before : List UInt8} (x : Reading α) {l moved : Locals}
    (same : Moved before l moved) (every : ∀ ok ∈ x.statuses l, ok = true) :
    (x.run moved).1 = (x.run l).1 ∧ Moved before (x.run l).2 (x.run moved).2 := by
  induction x generalizing l moved with
  | done value => exact ⟨rfl,same⟩
  | int next ih =>
    obtain ⟨read,rest⟩ := List.forall_mem_cons.mp every
    obtain ⟨value,after⟩ := readInt32_moved same read
    have stepped : (Reading.int next).run moved = (next (readInt32 l).1).run (readInt32 moved).2 := by
      rw [← value]
      rfl
    rw [stepped]
    exact ih _ after rest
  | byte next ih =>
    obtain ⟨read,rest⟩ := List.forall_mem_cons.mp every
    obtain ⟨value,after⟩ := readByte_moved same read
    have stepped : (Reading.byte next).run moved = (next (readByte l).1).run (readByte moved).2 := by
      rw [← value]
      rfl
    rw [stepped]
    exact ih _ after rest
  | status next ih =>
    have stepped : (Reading.status next).run moved = (next l.status).run moved := by
      rw [same.fine,← same.good]
      rfl
    rw [stepped]
    exact ih _ same every

theorem readCdmaSms_limits {a a' s s' : Nat → Nat} {b b' : Int → Nat} {l : Locals}
    {rcsm : CdmaSmsMessage} (decoded : (readCdmaSms a s b l).1 = rcsm)
    (digits : a rcsm.header.number_of_digits = a' rcsm.header.number_of_digits)
    (subDigits : s rcsm.sSubAddress.number_of_digits = s' rcsm.sSubAddress.number_of_digits)
    (bearer : b rcsm.uBearerDataLen = b' rcsm.uBearerDataLen) :
    readCdmaSms a s b l = readCdmaSms a' s' b' l := by
  subst decoded
  simp only [readCdmaSms,bind_run,pure_run] at digits subDigits bearer ⊢
  rw [digits] at subDigits bearer ⊢
  rw [subDigits] at bearer ⊢
  rw [bearer]

theorem readCdmaSms_after (a s : Nat → Nat) (b : Int → Nat) (p : Parcel) :
    After p (0+8+a (readCdmaSms a s b (.start p)).1.header.number_of_digits+3+
        s (readCdmaSms a s b (.start p)).1.sSubAddress.number_of_digits+1+
        b (readCdmaSms a s b (.start p)).1.uBearerDataLen) (readCdmaSms a s b (.start p)).2 := by
  simp only [readCdmaSms,bind_run,pure_run]
  apply readBytes_reads
  apply readInt32_reads
  apply readBytes_reads
  apply readCdmaSmsSubAddress_reads
  apply readBytes_reads
  apply readCdmaSmsHeader_reads
  exact after_start p

structure SameStruct (message rcsm : CdmaSmsMessage) : Prop where
  header : message.header = rcsm.header
  digits : ∀ i, message.digits.getD i 0 = rcsm.digits.getD i 0
  sSubAddress : message.sSubAddress = rcsm.sSubAddress
  subDigits : ∀ i, message.subDigits.getD i 0 = rcsm.subDigits.getD i 0
  uBearerDataLen : message.uBearerDataLen = rcsm.uBearerDataLen
  aBearerData : ∀ i, message.aBearerData.getD i 0 = rcsm.aBearerData.getD i 0

theorem sameStruct_self (rcsm : CdmaSmsMessage) : SameStruct rcsm rcsm :=
  ⟨rfl,fun _ => rfl,rfl,fun _ => rfl,rfl,fun _ => rfl⟩

def FullArrays (rcsm : CdmaSmsMessage) : Prop :=
  rcsm.header.number_of_digits = RIL_CDMA_SMS_ADDRESS_MAX ∧
    rcsm.sSubAddress.number_of_digits = RIL_CDMA_SMS_SUBADDRESS_MAX ∧
    rcsm.uBearerDataLen = RIL_CDMA_SMS_BEARER_DATA_MAX

theorem decoded_length {payload : List UInt8} {rcsm : CdmaSmsMessage} {l : Locals}
    (decoded : constructCdmaSms (.start (.setData payload)) = (rcsm,l)) (fine : l.status = true)
    (whole : l.p.pos = payload.length) :
    payload.length = 4*(12+min rcsm.header.number_of_digits RIL_CDMA_SMS_ADDRESS_MAX+
      min rcsm.sSubAddress.number_of_digits RIL_CDMA_SMS_SUBADDRESS_MAX+
      (min rcsm.uBearerDataLen RIL_CDMA_SMS_BEARER_DATA_MAX).toNat) := by
  have after := readCdmaSms_after (fun n => min n RIL_CDMA_SMS_ADDRESS_MAX)
    (fun n => min n RIL_CDMA_SMS_SUBADDRESS_MAX)
    (fun n => (min n RIL_CDMA_SMS_BEARER_DATA_MAX).toNat) (.setData payload)
  change constructCdmaSms _ = _ at decoded
  unfold constructCdmaSms at decoded
  rw [decoded] at after
  have fits := mt (after.status (by omega)).mpr (by simp [fine])
  have place := after.enough (Nat.not_lt.mp fits)
  rw [place] at whole
  simp only [Parcel.skip,Parcel.setData] at whole
  omega

theorem dispatchRilCdmaSmsWriteArgs_rejects {p : Parcel} (short : p.avail < 4*340) :
    dispatchRilCdmaSmsWriteArgs p = [.invalidCommandBlock] := by
  have failed := (readCdmaSmsWriteArgs_status p).mpr short
  simp only [dispatchRilCdmaSmsWriteArgs,rilCdmaSmsWriteArgsCalls,dispatched,bind_run,lastStatus,failed,if_true,pure_run]

theorem run_behind_status {payload : List UInt8} {rcsm : CdmaSmsMessage} {l : Locals}
    {reading : Reading CdmaSmsMessage}
    (here : reading.run (.start (.setData payload)) = (rcsm,l)) (fine : l.status = true)
    (header : List UInt8) (status : Int32) :
    ∃ next, (readInt32 >>= fun number => reading.run >>= fun message => pure (number,message))
        (.start ⟨header ++ (Parcel.le32 status.toInt ++ payload),header.length⟩) =
      ((status.toInt,rcsm),next) ∧ next.status = true := by
  have every : ∀ ok ∈ reading.statuses (.start (.setData payload)), ok = true := by
    rw [← Reading.run_status reading rfl,here]
    exact fine
  obtain ⟨number,stops,good⟩ := takes_int status header payload
    (.start ⟨header ++ (Parcel.le32 status.toInt ++ payload),header.length⟩)
    (by rw [List.append_assoc]) rfl
  have moved : Moved (header ++ Parcel.le32 status.toInt) (.start (.setData payload)) _ :=
    ⟨stops,rfl,good⟩
  obtain ⟨message,after⟩ := run_moved reading moved every
  rw [here] at message
  refine ⟨_,?_,after.good⟩
  rw [bind_run,bind_run,pure_run,number,message]

theorem dispatchRilCdmaSmsWriteArgs_full {payload : List UInt8} {rcsm : CdmaSmsMessage} {l : Locals}
    (decoded : constructCdmaSms (.start (.setData payload)) = (rcsm,l)) (fine : l.status = true)
    (full : FullArrays rcsm) (header : List UInt8) (status : Int32) :
    dispatchRilCdmaSmsWriteArgs
        ⟨header ++ (Parcel.le32 status.toInt ++ payload),header.length⟩ =
      [.onRequest (.cdmaSmsWriteArgs status.toInt rcsm)] := by
  obtain ⟨digits,subDigits,bearer⟩ := full
  have here : (cdmaSms (fun _ => RIL_CDMA_SMS_ADDRESS_MAX) (fun _ => RIL_CDMA_SMS_SUBADDRESS_MAX)
      (fun _ => RIL_CDMA_SMS_BEARER_DATA_MAX)).run (.start (.setData payload)) = (rcsm,l) := by
    rw [LateStatus.cdmaSms_run,← decoded]
    refine (readCdmaSms_limits (congrArg Prod.fst decoded) ?_ ?_ ?_).symm
    · rw [digits]
      exact min_self _
    · rw [subDigits]
      exact min_self _
    · rw [bearer]
      exact congrArg Int.toNat (min_self _)
  obtain ⟨next,ran,good⟩ := run_behind_status here fine header status
  rw [LateStatus.cdmaSms_run] at ran
  have read : readCdmaSmsWriteArgs (.start ⟨header ++ (Parcel.le32 status.toInt ++ payload),
      header.length⟩) = ((status.toInt,rcsm),next) := ran
  simp only [dispatchRilCdmaSmsWriteArgs,rilCdmaSmsWriteArgsCalls,dispatched,bind_run,read,lastStatus,good]
  rw [if_neg (by decide),pure_run]

theorem write_args_same_format (header : List UInt8) (status : Int32) {payload : List UInt8}
    {rcsm : CdmaSmsMessage} {l : Locals}
    (decoded : constructCdmaSms (.start (.setData payload)) = (rcsm,l)) (fine : l.status = true)
    (whole : l.p.pos = payload.length)
    (digits : rcsm.header.number_of_digits ≤ RIL_CDMA_SMS_ADDRESS_MAX)
    (subDigits : rcsm.sSubAddress.number_of_digits ≤ RIL_CDMA_SMS_SUBADDRESS_MAX)
    (bearer : rcsm.uBearerDataLen ≤ RIL_CDMA_SMS_BEARER_DATA_MAX) :
    (∃ message, dispatchRilCdmaSmsWriteArgs
          ⟨header ++ (Parcel.le32 status.toInt ++ payload),header.length⟩ =
        [.onRequest (.cdmaSmsWriteArgs status.toInt message)] ∧ SameStruct message rcsm) ↔
      FullArrays rcsm := by
  constructor
  · rintro ⟨message,called,same⟩
    by_contra partly
    have length := decoded_length decoded fine whole
    have short : (⟨header ++ (Parcel.le32 status.toInt ++ payload),header.length⟩ : Parcel).avail <
        4*340 := by
      simp only [Parcel.avail,List.length_append,Parcel.le32_length]
      unfold FullArrays RIL_CDMA_SMS_ADDRESS_MAX RIL_CDMA_SMS_SUBADDRESS_MAX
        RIL_CDMA_SMS_BEARER_DATA_MAX at *
      omega
    rw [dispatchRilCdmaSmsWriteArgs_rejects short] at called
    cases called
  · intro full
    exact ⟨rcsm,dispatchRilCdmaSmsWriteArgs_full decoded fine full header status,sameStruct_self rcsm⟩

def fullMessage : Message :=
  ⟨4098,1,0,0,0,1,1,36,fun i => .ofNat i,0,0,36,fun _ => 5,255,fun _ => 9⟩

theorem write_args_same_format_full :
    ∃ message, dispatchRilCdmaSmsWriteArgs
        ⟨[] ++ (Parcel.le32 (1 : Int32).toInt ++ payload fullMessage),0⟩ =
      [.onRequest (.cdmaSmsWriteArgs (1 : Int32).toInt message)] ∧
      SameStruct message (received fullMessage) := by
  obtain ⟨l,decoded,whole,good⟩ := (takes_payload fullMessage).alone
  exact (write_args_same_format [] 1 decoded good (congrArg Parcel.pos whole) (by decide)
    (by decide) (by decide)).mpr ⟨rfl,rfl,rfl⟩

theorem short_message_rejected :
    ((constructCdmaSms (.start (.setData (List.replicate 48 0)))).1 =
        ⟨⟨0,0,0,0,0,0,0,0⟩,[],⟨0,0,0⟩,[],0,[]⟩ ∧
      (constructCdmaSms (.start (.setData (List.replicate 48 0)))).2.status = true ∧
      (constructCdmaSms (.start (.setData (List.replicate 48 0)))).2.p.pos = 48) ∧
    dispatchRilCdmaSmsWriteArgs (.setData (Parcel.le32 1 ++ List.replicate 48 0)) =
      [.invalidCommandBlock] := by
  constructor
  · decide +kernel
  · exact dispatchRilCdmaSmsWriteArgs_rejects (by decide)

end Formats

end SemcMsm7x30.CdmaSms

import SemcMsm7x30.MalformedPayload
import SemcMsm7x30.Ril

namespace SemcMsm7x30.LateStatus

-- A decoder as the tree of its reads: what is read decides what is read next.
inductive Reading (α : Type) where
  | done (value : α)
  | int (next : Int → Reading α)
  | byte (next : Nat → Reading α)
  | status (next : Bool → Reading α)

namespace Reading
variable {α β : Type}

def bind : Reading α → (α → Reading β) → Reading β
  | done value,f => f value
  | int next,f => int fun t => (next t).bind f
  | byte next,f => byte fun ut => (next ut).bind f
  | status next,f => status fun ok => (next ok).bind f

instance : Monad Reading where
  pure := done
  bind := bind

def run : Reading α → StateM Locals α
  | done value => pure value
  | int next => readInt32 >>= fun t => (next t).run
  | byte next => readByte >>= fun ut => (next ut).run
  | status next => lastStatus >>= fun ok => (next ok).run

def statuses : Reading α → Locals → List Bool
  | done _,_ => []
  | int next,l => (readInt32 l).2.status :: (next (readInt32 l).1).statuses (readInt32 l).2
  | byte next,l => (readByte l).2.status :: (next (readByte l).1).statuses (readByte l).2
  | status next,l => (next l.status).statuses l

theorem run_pure (value : α) : (pure value : Reading α).run = pure value := rfl

theorem run_bind (x : Reading α) (f : α → Reading β) :
    (x >>= f).run = x.run >>= fun value => (f value).run := by
  induction x with
  | done value => rfl
  | int next ih =>
    funext l
    exact congrFun (ih (readInt32 l).1) (readInt32 l).2
  | byte next ih =>
    funext l
    exact congrFun (ih (readByte l).1) (readByte l).2
  | status next ih =>
    funext l
    exact congrFun (ih l.status) l

theorem run_ite (c : Prop) [Decidable c] (x y : Reading α) :
    (if c then x else y).run = if c then x.run else y.run := apply_ite run c x y

theorem statuses_bind (x : Reading α) (f : α → Reading β) (l : Locals) :
    (x >>= f).statuses l = x.statuses l ++ (f (x.run l).1).statuses (x.run l).2 := by
  induction x generalizing l with
  | done value => rfl
  | int next ih => exact congrArg _ (ih (readInt32 l).1 (readInt32 l).2)
  | byte next ih => exact congrArg _ (ih (readByte l).1 (readByte l).2)
  | status next ih => exact ih l.status l

-- After a failed read less than a word is left.
def Stuck (l : Locals) : Prop := l.status = false ∧ l.p.avail < 4

theorem readInt32_stuck {l : Locals} (failed : (readInt32 l).2.status = false) :
    Stuck (readInt32 l).2 := by
  have short := (readInt32_status l).mp failed
  refine ⟨failed,?_⟩
  rw [readInt32_p,avail_afterInt,if_neg (by omega)]
  exact short

theorem readByte_stuck {l : Locals} (failed : (readByte l).2.status = false) :
    Stuck (readByte l).2 := by
  have after := readByte_reads l.p 0 l (after_self l)
  have short := (after.status (by decide)).mp failed
  exact ⟨failed,after.short short⟩

theorem readInt32_fails {l : Locals} (short : l.p.avail < 4) : (readInt32 l).2.status = false :=
  (readInt32_status l).mpr short

theorem readByte_fails {l : Locals} (short : l.p.avail < 4) : (readByte l).2.status = false :=
  ((readByte_reads l.p 0 l (after_self l)).status (by decide)).mpr (by omega)

theorem run_stuck (x : Reading α) {l : Locals} (stuck : Stuck l) : (x.run l).2.status = false := by
  induction x generalizing l with
  | done value => exact stuck.1
  | int next ih => exact ih _ (readInt32_stuck (readInt32_fails stuck.2))
  | byte next ih => exact ih _ (readByte_stuck (readByte_fails stuck.2))
  | status next ih => exact ih _ stuck

theorem status_cons {first last : Bool} {rest : List Bool}
    (good : first = true → (last = true ↔ ∀ ok ∈ rest, ok = true))
    (bad : first = false → last = false) : last = true ↔ ∀ ok ∈ first :: rest, ok = true := by
  rw [List.forall_mem_cons]
  cases first with
  | true => exact (good rfl).trans ⟨fun all => ⟨rfl,all⟩,And.right⟩
  | false =>
    rw [bad rfl]
    simp

theorem run_status (x : Reading α) {l : Locals} (fine : l.status = true) :
    (x.run l).2.status = true ↔ ∀ ok ∈ x.statuses l, ok = true := by
  induction x generalizing l with
  | done value => exact iff_of_true fine (by simp [statuses])
  | int next ih =>
    apply status_cons
    · exact fun read => ih _ read
    · exact fun failed => run_stuck (next _) (readInt32_stuck failed)
  | byte next ih =>
    apply status_cons
    · exact fun read => ih _ read
    · exact fun failed => run_stuck (next _) (readByte_stuck failed)
  | status next ih => exact ih _ fine

end Reading

section Decoders
open Reading (run_bind run_pure run_ite)

def int32 : Reading Int := .int .done

def uint8 : Reading Nat := .byte .done

def checked : Reading Bool := .status .done

def bytes : Nat → Reading (List Nat)
  | 0 => pure []
  | count+1 => do
    let ut ← uint8
    let rest ← bytes count
    return ut :: rest

def entries {α : Type} (entry : Reading α) : Nat → Reading (List α)
  | 0 => pure []
  | num+1 => do
    let first ← entry
    let rest ← entries entry num
    return first :: rest

def cdmaSmsHeader : Reading CdmaSmsHeader := do
  let uTeleserviceID ← int32
  let bIsServicePresent ← uint8
  let uServicecategory ← int32
  let digit_mode ← int32
  let number_mode ← int32
  let number_type ← int32
  let number_plan ← int32
  let number_of_digits ← uint8
  return ⟨uTeleserviceID,bIsServicePresent,uServicecategory,digit_mode,number_mode,number_type,
    number_plan,number_of_digits⟩

def cdmaSmsSubAddress : Reading CdmaSmsSubAddress := do
  let subaddressType ← int32
  let odd ← uint8
  let number_of_digits ← uint8
  return ⟨subaddressType,odd,number_of_digits⟩

def cdmaSms (addressLimit subAddressLimit : Nat → Nat) (bearerLimit : Int → Nat) :
    Reading CdmaSmsMessage := do
  let header ← cdmaSmsHeader
  let digits ← bytes (addressLimit header.number_of_digits)
  let sSubAddress ← cdmaSmsSubAddress
  let subDigits ← bytes (subAddressLimit sSubAddress.number_of_digits)
  let uBearerDataLen ← int32
  let aBearerData ← bytes (bearerLimit uBearerDataLen)
  return ⟨header,digits,sSubAddress,subDigits,uBearerDataLen,aBearerData⟩

def constructed : Reading CdmaSmsMessage :=
  cdmaSms (fun n => min n RIL_CDMA_SMS_ADDRESS_MAX) (fun n => min n RIL_CDMA_SMS_SUBADDRESS_MAX)
    (fun n => (min n RIL_CDMA_SMS_BEARER_DATA_MAX).toNat)

def writeArgs : Reading (Int × CdmaSmsMessage) := do
  let status ← int32
  let message ← cdmaSms (fun _ => RIL_CDMA_SMS_ADDRESS_MAX)
    (fun _ => RIL_CDMA_SMS_SUBADDRESS_MAX) (fun _ => RIL_CDMA_SMS_BEARER_DATA_MAX)
  return (status,message)

def outcome (data : VendorData) (ok : Bool) : Reading (List Call) :=
  if ok = false then return [.invalidCommandBlock]
  else return [.onRequest data]

-- How the functions end: the vendor is called if the last status is good.
def ending {α : Type} (body : Reading α) (request : α → VendorData) : Reading (List Call) := do
  let value ← body
  let ok ← checked
  outcome (request value) ok

def rilCdmaSmsWriteArgs : Reading (List Call) :=
  ending writeArgs fun args => .cdmaSmsWriteArgs args.1 args.2

def gsmBroadcast : Reading GsmBroadcastSmsConfigInfo := do
  let fromServiceId ← int32
  let toServiceId ← int32
  let fromCodeScheme ← int32
  let toCodeScheme ← int32
  let selected ← int32
  return ⟨fromServiceId,toServiceId,fromCodeScheme,toCodeScheme,(selected%2^8).toNat⟩

def cdmaBroadcast : Reading CdmaBroadcastSmsConfigInfo := do
  let service_category ← int32
  let language ← int32
  let selected ← int32
  return ⟨service_category,language,(selected%2^8).toNat⟩

def counted {α : Type} (m : Platform) (size : Nat) (entry : Reading α)
    (request : List α → Nat → VendorData) (num : Int) : Reading (List Call) :=
  if num < 0 then
    let pointers := Parcel.sizeT (4*num)
    return negativeCount m (Parcel.sizeT ((size-4 : Nat)*num)+pointers) (request [] pointers)
  else if stackFits m size num then
    ending (entries entry num.toNat) fun read => request read (4*num.toNat)
  else return [.fault]

def broadcast {α : Type} (m : Platform) (size : Nat) (entry : Reading α)
    (request : List α → Nat → VendorData) : Reading (List Call) := do
  let num ← int32
  let ok ← checked
  if ok = false then return [.invalidCommandBlock]
  else counted m size entry request num

theorem bytes_run (count : Nat) : (bytes count).run = readBytes count := by
  induction count with
  | zero => rfl
  | succ count ih =>
    have first : (bytes (count+1)).run = readByte >>= fun ut =>
        (bytes count >>= fun rest => pure (ut :: rest)).run := rfl
    rw [first]
    simp only [run_bind,run_pure,ih]
    rfl

theorem entries_run {α : Type} {entry : Reading α} {reader : StateM Locals α}
    (same : entry.run = reader) (num : Nat) : (entries entry num).run = readEntries reader num := by
  induction num with
  | zero => rfl
  | succ num ih =>
    simp only [entries,run_bind,run_pure,same,ih]
    rfl

theorem cdmaSms_run (addressLimit subAddressLimit : Nat → Nat) (bearerLimit : Int → Nat) :
    (cdmaSms addressLimit subAddressLimit bearerLimit).run =
      readCdmaSms addressLimit subAddressLimit bearerLimit := by
  have header : cdmaSmsHeader.run = readCdmaSmsHeader := rfl
  have subAddress : cdmaSmsSubAddress.run = readCdmaSmsSubAddress := rfl
  have length : int32.run = readInt32 := rfl
  simp only [cdmaSms,run_bind,run_pure,bytes_run,header,subAddress,length]
  rfl

theorem constructed_run : constructed.run = constructCdmaSms := cdmaSms_run _ _ _

theorem writeArgs_run : writeArgs.run = readCdmaSmsWriteArgs := by
  have status : int32.run = readInt32 := rfl
  simp only [writeArgs,run_bind,run_pure,cdmaSms_run,status]
  rfl

theorem rilCdmaSmsWriteArgs_run : rilCdmaSmsWriteArgs.run = rilCdmaSmsWriteArgsCalls := by
  have check : checked.run = lastStatus := rfl
  simp only [rilCdmaSmsWriteArgs,ending,outcome,run_bind,run_ite,run_pure,writeArgs_run,check]
  rfl

theorem broadcast_run {α : Type} {entry : Reading α} {reader : StateM Locals α}
    (same : entry.run = reader) (m : Platform) (size : Nat) (request : List α → Nat → VendorData) :
    (broadcast m size entry request).run = broadcastCalls m size reader request := by
  have check : checked.run = lastStatus := rfl
  have count : int32.run = readInt32 := rfl
  simp only [broadcast,counted,ending,outcome,run_bind,run_ite,run_pure,entries_run same,count,
    check]
  rfl

end Decoders

def VendorCalled (calls : List Call) : Prop := ∃ data, .onRequest data ∈ calls

-- Every read the function has to make is made and succeeds. Where the process
-- dies the reads behind it are not made.
def EveryReadSucceeds (x : Reading (List Call)) (l : Locals) : Prop :=
  .fault ∉ (x.run l).1 ∧ ∀ ok ∈ x.statuses l, ok = true

section Soundness
open Reading (run_bind run_ite run_status statuses_bind)

theorem outcome_statuses (data : VendorData) (ok : Bool) (l : Locals) :
    (outcome data ok).statuses l = [] := by
  cases ok <;> rfl

theorem outcome_called (data : VendorData) (ok : Bool) (l : Locals) :
    VendorCalled ((outcome data ok).run l).1 ↔ ok = true := by
  cases ok with
  | false => exact iff_of_false (fun ⟨_,called⟩ => nomatch List.mem_singleton.mp called) (by decide)
  | true => exact iff_of_true ⟨data,List.mem_singleton_self _⟩ rfl

theorem outcome_survives (data : VendorData) (ok : Bool) (l : Locals) :
    .fault ∉ ((outcome data ok).run l).1 := by
  cases ok <;> exact fun dies => nomatch List.mem_singleton.mp dies

theorem ending_sound {α : Type} (body : Reading α) (request : α → VendorData) {l : Locals}
    (fine : l.status = true) :
    VendorCalled ((ending body request).run l).1 ↔ EveryReadSucceeds (ending body request) l := by
  have reads : (ending body request).statuses l = body.statuses l := by
    rw [ending,statuses_bind]
    exact (congrArg _ (outcome_statuses _ _ _)).trans (List.append_nil _)
  have ran : (ending body request).run l =
      (outcome (request (body.run l).1) (body.run l).2.status).run (body.run l).2 := by
    rw [ending,run_bind]
    rfl
  unfold EveryReadSucceeds
  rw [reads,ran,outcome_called,← run_status body fine]
  exact (and_iff_right (outcome_survives _ _ _)).symm

theorem broadcast_counted {α : Type} (m : Platform) (size : Nat) (entry : Reading α)
    (request : List α → Nat → VendorData) {p : Parcel} (enough : 4 ≤ p.avail) :
    (broadcast m size entry request).run (.start p) =
        (counted m size entry request (p.int32At 0)).run (readInt32 (.start p)).2 ∧
      (broadcast m size entry request).statuses (.start p) =
        true :: (counted m size entry request (p.int32At 0)).statuses (readInt32 (.start p)).2 := by
  have read : (readInt32 (.start p)).2.status = true := by
    rw [← Bool.not_eq_false,readInt32_status]
    exact Nat.not_lt.mpr enough
  have value : (readInt32 (.start p)).1 = p.int32At 0 := readInt32_value enough
  have rest : (if (readInt32 (.start p)).2.status = false then
        (pure [.invalidCommandBlock] : Reading (List Call))
      else counted m size entry request (readInt32 (.start p)).1) =
      counted m size entry request (p.int32At 0) := by
    rw [read,value]
    rfl
  constructor
  · rw [← rest]
    rfl
  · rw [← rest]
    exact congrArg (· :: _) read

theorem counted_sound {α : Type} (m : Platform) (size : Nat) (entry : Reading α)
    (request : List α → Nat → VendorData) {num : Int} (natural : 0 ≤ num) {l : Locals}
    (fine : l.status = true) :
    VendorCalled ((counted m size entry request num).run l).1 ↔
      EveryReadSucceeds (counted m size entry request num) l := by
  unfold counted
  rw [if_neg (Int.not_lt.mpr natural)]
  split
  · exact ending_sound _ _ fine
  · refine iff_of_false ?_ ?_
    · rintro ⟨data,called⟩
      cases List.mem_singleton.mp called
    · exact fun every => every.1 (List.mem_singleton_self _)

theorem broadcast_sound {α : Type} (m : Platform) (size : Nat) (entry : Reading α)
    (request : List α → Nat → VendorData) {p : Parcel} (natural : 4 ≤ p.avail → 0 ≤ p.int32At 0) :
    VendorCalled ((broadcast m size entry request).run (.start p)).1 ↔
      EveryReadSucceeds (broadcast m size entry request) (.start p) := by
  by_cases enough : 4 ≤ p.avail
  · obtain ⟨ran,reads⟩ := broadcast_counted m size entry request enough
    have read : (readInt32 (.start p)).2.status = true := by
      rw [← Bool.not_eq_false,readInt32_status]
      exact Nat.not_lt.mpr enough
    unfold EveryReadSucceeds
    rw [ran,reads,counted_sound m size entry request (natural enough) read,List.forall_mem_cons]
    simp [EveryReadSucceeds]
  · have failed : (readInt32 (.start p)).2.status = false :=
      (readInt32_status _).mpr (Nat.not_le.mp enough)
    refine iff_of_false ?_ ?_
    · have calls : ((broadcast m size entry request).run (.start p)).1 = [.invalidCommandBlock] := by
        change (Reading.run (if (readInt32 (.start p)).2.status = false then _ else _) _).1 = _
        rw [if_pos failed]
        rfl
      rw [calls]
      simp [VendorCalled]
    · intro every
      have all := every.2 false
      exact absurd (all (failed ▸ List.mem_cons_self)) (by decide)

theorem late_status_sound (m : Platform) (p : Parcel) :
    (constructCdmaSms = constructed.run ∧
      ((constructCdmaSms (.start p)).2.status = true ↔
        ∀ ok ∈ constructed.statuses (.start p), ok = true)) ∧
    (rilCdmaSmsWriteArgsCalls = rilCdmaSmsWriteArgs.run ∧
      dispatchRilCdmaSmsWriteArgs p = (rilCdmaSmsWriteArgs.run (.start p)).1 ∧
      (VendorCalled (dispatchRilCdmaSmsWriteArgs p) ↔
        EveryReadSucceeds rilCdmaSmsWriteArgs (.start p))) ∧
    (broadcastCalls m 24 readGsmBroadcast .gsmBroadcast = (broadcast m 24 gsmBroadcast .gsmBroadcast).run ∧
      broadcastCalls m 16 readCdmaBroadcast .cdmaBroadcast =
        (broadcast m 16 cdmaBroadcast .cdmaBroadcast).run) ∧
    ((4 ≤ p.avail → 0 ≤ p.int32At 0) →
      (dispatchGsmBrSmsCnf m p =
          ((broadcast m 24 gsmBroadcast .gsmBroadcast).run (.start p)).1 ∧
        (VendorCalled (dispatchGsmBrSmsCnf m p) ↔
          EveryReadSucceeds (broadcast m 24 gsmBroadcast .gsmBroadcast) (.start p))) ∧
      (dispatchCdmaBrSmsCnf m p =
          ((broadcast m 16 cdmaBroadcast .cdmaBroadcast).run (.start p)).1 ∧
        (VendorCalled (dispatchCdmaBrSmsCnf m p) ↔
          EveryReadSucceeds (broadcast m 16 cdmaBroadcast .cdmaBroadcast) (.start p)))) := by
  have gsm : (broadcast m 24 gsmBroadcast .gsmBroadcast).run =
      broadcastCalls m 24 readGsmBroadcast .gsmBroadcast := broadcast_run rfl m 24 _
  have cdma : (broadcast m 16 cdmaBroadcast .cdmaBroadcast).run =
      broadcastCalls m 16 readCdmaBroadcast .cdmaBroadcast := broadcast_run rfl m 16 _
  have gsmCalls := congrArg (fun calls => (calls (.start p)).1) gsm
  have cdmaCalls := congrArg (fun calls => (calls (.start p)).1) cdma
  have writeCalls := congrArg (fun calls => (calls (.start p)).1) rilCdmaSmsWriteArgs_run
  refine ⟨⟨constructed_run.symm,?_⟩,⟨rilCdmaSmsWriteArgs_run.symm,writeCalls.symm,?_⟩,
    ⟨gsm.symm,cdma.symm⟩,fun natural => ⟨⟨gsmCalls.symm,?_⟩,⟨cdmaCalls.symm,?_⟩⟩⟩
  · rw [← constructed_run]
    exact run_status constructed rfl
  · have sound := ending_sound writeArgs (fun args => .cdmaSmsWriteArgs args.1 args.2)
      (l := .start p) rfl
    exact (Eq.to_iff (congrArg VendorCalled writeCalls)).symm.trans sound
  · have sound := broadcast_sound m 24 gsmBroadcast .gsmBroadcast natural
    exact (Eq.to_iff (congrArg VendorCalled gsmCalls)).symm.trans sound
  · have sound := broadcast_sound m 16 cdmaBroadcast .cdmaBroadcast natural
    exact (Eq.to_iff (congrArg VendorCalled cdmaCalls)).symm.trans sound

end Soundness

def oneConfig : Parcel :=
  .setData (Parcel.le32 1 ++ Parcel.le32 50 ++ Parcel.le32 60 ++ Parcel.le32 0 ++ Parcel.le32 255 ++
    Parcel.le32 1)

theorem late_status_sound_one :
    VendorCalled (dispatchGsmBrSmsCnf (asciiBuild 1).platform oneConfig) ∧
      EveryReadSucceeds (broadcast (asciiBuild 1).platform 24 gsmBroadcast .gsmBroadcast)
        (.start oneConfig) := by
  have called : VendorCalled (dispatchGsmBrSmsCnf (asciiBuild 1).platform oneConfig) :=
    ⟨_,List.mem_singleton_self _⟩
  obtain ⟨_,_,_,broadcasts⟩ := late_status_sound (asciiBuild 1).platform oneConfig
  obtain ⟨⟨_,gsm⟩,_⟩ := broadcasts (fun _ => by decide)
  exact ⟨called,gsm.mp called⟩

end SemcMsm7x30.LateStatus

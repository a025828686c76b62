import SemcMsm7x30.StringReads
import SemcMsm7x30.FrameWriter

namespace SemcMsm7x30.Counts
open StringReads

inductive Counted where
  | dispatchStrings
  | dispatchInts
  | dispatchImsGsmSms (retry : Nat) (messageRef : Int)
  | dispatchGsmBrSmsCnf
  | dispatchCdmaBrSmsCnf

def Counted.calls (m : Platform) (p : Parcel) : Counted → List Call
  | .dispatchStrings => SemcMsm7x30.dispatchStrings m p
  | .dispatchInts => SemcMsm7x30.dispatchInts m p
  | .dispatchImsGsmSms retry messageRef => SemcMsm7x30.dispatchImsGsmSms m p retry messageRef
  | .dispatchGsmBrSmsCnf => SemcMsm7x30.dispatchGsmBrSmsCnf m p
  | .dispatchCdmaBrSmsCnf => SemcMsm7x30.dispatchCdmaBrSmsCnf m p

def StringsDecoded : Nat → Parcel → Prop
  | 0,_ => True
  | count+1,p => StringOk p ∧ StringsDecoded count (afterString p)

def gsmBroadcastAt (p : Parcel) : GsmBroadcastSmsConfigInfo :=
  ⟨p.int32At 0,p.int32At 4,p.int32At 8,p.int32At 12,(p.int32At 16%2^8).toNat⟩

def cdmaBroadcastAt (p : Parcel) : CdmaBroadcastSmsConfigInfo :=
  ⟨p.int32At 0,p.int32At 4,(p.int32At 8%2^8).toNat⟩

-- The count is that of the buffer and not negative, the length is the count
-- times the size of a pointer or an int and does not wrap around.
def Measured (p : Parcel) (count datalen : Nat) : Prop :=
  4 ≤ p.avail ∧ p.int32At 0 = count ∧ datalen = 4*count ∧ 4*count < 2^32

def StringsHonoured (m : Platform) (p : Parcel) (request : Option (List CString) → Nat → VendorData)
    (data : VendorData) : Prop :=
  (4 ≤ p.avail ∧ p.int32At 0 = -1 ∧ data = request none 0) ∨
  ∃ count datalen, Measured p count datalen ∧ StringsDecoded count (p.skip 4) ∧
    data = request (some (readStrings m count (.start (p.skip 4))).1) datalen

def ElementsHonoured {α : Type} (p : Parcel) (size : Nat) (elementAt : Parcel → α)
    (request : List α → Nat → VendorData) (data : VendorData) : Prop :=
  ∃ count datalen, Measured p count datalen ∧ 4+size*count ≤ p.avail ∧
    data = request ((List.range count).map fun i => elementAt (p.skip (4+size*i))) datalen

def Honoured (m : Platform) (p : Parcel) : Counted → VendorData → Prop
  | .dispatchStrings => StringsHonoured m p .strings
  | .dispatchInts => ElementsHonoured p 4 (·.int32At 0) .ints
  | .dispatchImsGsmSms retry messageRef => StringsHonoured m p (.imsGsmSms retry messageRef)
  | .dispatchGsmBrSmsCnf => ElementsHonoured p 20 gsmBroadcastAt .gsmBroadcast
  | .dispatchCdmaBrSmsCnf => ElementsHonoured p 12 cdmaBroadcastAt .cdmaBroadcast

-- The counts the code gets right. An array that does not fit the stack ends the
-- process before the vendor is called.
def Countable (m : Platform) (p : Parcel) : Counted → Prop
  | .dispatchStrings | .dispatchImsGsmSms _ _ => p.avail < 4 ∨ (-1 ≤ p.int32At 0 ∧
    (stackFits m 4 (p.int32At 0) → StringsDecoded (p.int32At 0).toNat (p.skip 4)))
  | .dispatchInts | .dispatchGsmBrSmsCnf | .dispatchCdmaBrSmsCnf => p.avail < 4 ∨ 0 ≤ p.int32At 0

def Called (calls : List Call) (honoured : VendorData → Prop) : Prop :=
  ∀ data, .onRequest data ∈ calls → honoured data

section Calls
variable {honoured : VendorData → Prop}

theorem called_one {data : VendorData} : Called [.onRequest data] honoured ↔ honoured data := by
  simp [Called]

theorem called_negative (m : Platform) (bytes : Nat) {data : VendorData} :
    Called (negativeCount m bytes data) honoured ↔ honoured data := by
  unfold negativeCount
  split <;> simp [Called]

theorem called_invalid : Called [.invalidCommandBlock] honoured := by simp [Called]

theorem called_fault : Called [.fault] honoured := by simp [Called]

end Calls

section Strings
variable (m : Platform) {p : Parcel}

theorem stringsDecoded_avail {count : Nat} (decoded : StringsDecoded count p) :
    4*count ≤ p.avail := by
  induction count generalizing p with
  | zero => exact Nat.zero_le _
  | succ count ih =>
    obtain ⟨first,rest⟩ := decoded
    have left := ih rest
    have shorter : (afterString p).avail+4 ≤ p.avail := by
      have enough := stringOk_avail first
      by_cases whole : StringWhole p
      · rw [(readString_whole whole).2,Parcel.avail_skip]
        have inside := whole.2.2
        omega
      · simp only [afterString,readString_missing enough whole,Parcel.avail_skip]
        omega
    omega

theorem measured_small {count : Nat} (enough : 4 ≤ p.avail) (small : p.avail ≤ MAX_COMMAND_BYTES)
    (same : p.int32At 0 = count) (fits : 4*count ≤ p.avail) : Measured p count (4*count) := by
  refine ⟨enough,same,rfl,?_⟩
  have bound : MAX_COMMAND_BYTES < 2^32 := by decide
  omega

theorem stringArray_honoured (request : Option (List CString) → Nat → VendorData)
    (enough : 4 ≤ p.avail) (small : p.avail ≤ MAX_COMMAND_BYTES) :
    Called (stringArray m (p.skip 4) (p.int32At 0) request) (StringsHonoured m p request) ↔
      -1 ≤ p.int32At 0 ∧
        (stackFits m 4 (p.int32At 0) → StringsDecoded (p.int32At 0).toNat (p.skip 4)) := by
  unfold stringArray
  by_cases zero : p.int32At 0 = 0
  · rw [if_pos zero,called_one,zero]
    refine iff_of_true (.inr ⟨0,0,measured_small enough small zero (Nat.zero_le _),trivial,rfl⟩) ?_
    exact ⟨by decide,fun _ => trivial⟩
  · rw [if_neg zero]
    by_cases null : p.int32At 0 = -1
    · rw [if_pos null,called_one,null]
      exact iff_of_true (.inl ⟨enough,null,rfl⟩) ⟨by decide,fun _ => trivial⟩
    · rw [if_neg null]
      by_cases negative : p.int32At 0 < 0
      · rw [if_pos negative,called_negative]
        refine iff_of_false ?_ (by omega)
        rintro (⟨_,wrong,_⟩ | ⟨count,_,⟨_,same,_⟩,_⟩)
        · exact null wrong
        · omega
      · rw [if_neg negative]
        obtain ⟨count,same⟩ := Int.eq_ofNat_of_zero_le (Int.not_lt.mp negative)
        by_cases fits : stackFits m 4 (p.int32At 0) = true
        · rw [if_pos fits,called_one]
          have whole : (-1 ≤ p.int32At 0 ∧ (stackFits m 4 (p.int32At 0) = true →
              StringsDecoded (p.int32At 0).toNat (p.skip 4))) ↔ StringsDecoded count (p.skip 4) := by
            rw [same]
            simp only [Int.toNat_natCast]
            refine ⟨fun both => both.2 (same ▸ fits),fun decoded => ⟨by omega,fun _ => decoded⟩⟩
          rw [whole,same,Int.toNat_natCast]
          constructor
          · rintro (⟨_,wrong,_⟩ | ⟨other,_,⟨_,equal,_⟩,decoded,_⟩)
            · exact absurd wrong null
            · have counts : other = count := by omega
              exact counts ▸ decoded
          · intro decoded
            have inside := stringsDecoded_avail decoded
            rw [Parcel.avail_skip] at inside
            exact .inr ⟨count,_,measured_small enough small same (by omega),decoded,rfl⟩
        · rw [if_neg fits]
          exact iff_of_true called_fault ⟨by omega,fun fit => absurd fit fits⟩

end Strings

section Elements
variable (m : Platform) (p : Parcel)

theorem readInts_ok {room count : Nat} {p : Parcel} {pInts : List Int}
    (ran : readInts room count p = .ok pInts) :
    4*count ≤ p.avail ∧ pInts = (List.range count).map fun i => p.int32At (4*i) := by
  induction count generalizing room p pInts with
  | zero =>
    rw [readInts] at ran
    cases ran
    exact ⟨Nat.zero_le _,rfl⟩
  | succ count ih =>
    cases room with
    | zero => cases ran
    | succ room =>
      by_cases enough : 4 ≤ p.avail
      · simp only [readInts,readInt32_some enough] at ran
        cases later : readInts room count (p.skip 4) with
        | error call =>
          rw [later] at ran
          cases ran
        | ok rest =>
          rw [later] at ran
          cases ran
          obtain ⟨whole,values⟩ := ih later
          rw [Parcel.avail_skip] at whole
          refine ⟨by omega,?_⟩
          rw [values,List.range_succ_eq_map,List.map_cons,List.map_map]
          congr 1
          apply List.map_congr_left
          intro i _
          rw [Parcel.int32At_skip,Function.comp_apply,Nat.succ_eq_add_one,Nat.mul_add,Nat.add_comm]
      · simp only [readInts,readInt32_none (Nat.not_le.mp enough)] at ran
        cases ran

theorem readInts_error {room count : Nat} {p : Parcel} {call : Call}
    (ran : readInts room count p = .error call) : call = .invalidCommandBlock ∨ call = .fault := by
  induction count generalizing room p with
  | zero =>
    rw [readInts] at ran
    cases ran
  | succ count ih =>
    cases room with
    | zero =>
      cases ran
      exact .inr rfl
    | succ room =>
      rw [readInts] at ran
      cases read : p.readInt32 with
      | none =>
        rw [read] at ran
        cases ran
        exact .inl rfl
      | some next =>
        rw [read] at ran
        cases later : readInts room count next.2 with
        | error other =>
          simp only [later] at ran
          cases ran
          exact ih later
        | ok rest =>
          simp only [later] at ran
          cases ran

theorem elements_negative {α : Type} {size : Nat} {elementAt : Parcel → α}
    {request : List α → Nat → VendorData} {data : VendorData} (negative : p.int32At 0 < 0) :
    ¬ ElementsHonoured p size elementAt request data := by
  rintro ⟨count,_,⟨_,same,_⟩,_⟩
  omega

theorem dispatchInts_honoured (small : p.avail ≤ MAX_COMMAND_BYTES) :
    Called (dispatchInts m p) (ElementsHonoured p 4 (·.int32At 0) .ints) ↔
      p.avail < 4 ∨ 0 ≤ p.int32At 0 := by
  unfold dispatchInts
  by_cases enough : 4 ≤ p.avail
  · simp only [readInt32_some enough]
    by_cases zero : p.int32At 0 = 0
    · rw [if_pos zero]
      exact iff_of_true called_invalid (.inr (by omega))
    · rw [if_neg zero]
      by_cases negative : p.int32At 0 < 0
      · rw [if_pos negative,called_negative]
        exact iff_of_false (elements_negative p negative) (by omega)
      · rw [if_neg negative]
        apply iff_of_true _ (.inr (Int.not_lt.mp negative))
        obtain ⟨count,same⟩ := Int.eq_ofNat_of_zero_le (Int.not_lt.mp negative)
        split
        · split
          · rename_i call ran
            rcases readInts_error ran with rfl | rfl
            · exact called_invalid
            · exact called_fault
          · rename_i pInts ran
            obtain ⟨whole,values⟩ := readInts_ok ran
            rw [Parcel.avail_skip,same,Int.toNat_natCast] at whole
            have measured := measured_small enough small same (by omega)
            have unwrapped : Parcel.sizeT (4*p.int32At 0) = 4*count := by
              have bound := measured.2.2.2
              rw [same]
              unfold Parcel.sizeT
              omega
            rw [called_one,values,unwrapped,same,Int.toNat_natCast]
            refine ⟨count,_,measured,by omega,?_⟩
            simp only [Parcel.int32At_skip,Nat.add_zero]
        · exact called_fault
  · simp only [readInt32_none (Nat.not_le.mp enough)]
    exact iff_of_true called_invalid (.inl (Nat.not_le.mp enough))

section Broadcast
variable {α : Type} {entry : StateM Locals α} {words : Nat} {elementAt : Parcel → α}

def ReadsAt (words : Nat) (entry : StateM Locals α) (elementAt : Parcel → α) : Prop :=
  ∀ p before l, After p before l → 4*(before+words) ≤ p.avail →
    (entry l).1 = elementAt (p.skip (4*before))

theorem readEntries_values (reads : Reads words entry) (values : ReadsAt words entry elementAt)
    (num : Nat) {p : Parcel} {before : Nat} {l : Locals} (after : After p before l)
    (fits : 4*(before+words*num) ≤ p.avail) : (readEntries entry num l).1 =
      (List.range num).map fun i => elementAt (p.skip (4*(before+words*i))) := by
  induction num generalizing before l with
  | zero => rfl
  | succ num ih =>
    rw [Nat.mul_succ] at fits
    have first := values p before l after (by omega)
    have rest := ih (reads p before l after) (by omega)
    simp only [readEntries,bind_run,pure_run,first,rest,List.range_succ_eq_map,List.map_cons,
      List.map_map,Nat.mul_zero,Nat.add_zero]
    congr 1
    apply List.map_congr_left
    intro i _
    simp only [Function.comp_apply,Nat.succ_eq_add_one,Nat.mul_add,Nat.mul_one]
    congr 2
    omega

theorem dispatchBroadcast_honoured (stack : Nat) (request : List α → Nat → VendorData)
    (reads : Reads words entry) (values : ReadsAt words entry elementAt) (positive : 0 < words)
    (small : p.avail ≤ MAX_COMMAND_BYTES) :
    Called (dispatchBroadcast m stack entry request p)
      (ElementsHonoured p (4*words) elementAt request) ↔ p.avail < 4 ∨ 0 ≤ p.int32At 0 := by
  unfold dispatchBroadcast broadcastCalls dispatched
  change Ends (fun calls => Called calls (ElementsHonoured p (4*words) elementAt request) ↔
    p.avail < 4 ∨ 0 ≤ p.int32At 0) _ (.start p)
  apply ends_bind
  apply ends_status
  apply ends_ite
  · intro failed
    rw [readInt32_status,start_p] at failed
    exact ends_pure (iff_of_true called_invalid (.inl failed))
  · intro read
    rw [readInt32_status,start_p] at read
    have enough := Nat.not_lt.mp read
    rw [readInt32_value (by exact enough),start_p]
    have first := readInt32_reads p 0 _ (after_start p)
    apply ends_ite
    · intro negative
      apply ends_pure
      rw [called_negative]
      exact iff_of_false (elements_negative p negative) (by omega)
    · intro natural
      have good : p.avail < 4 ∨ 0 ≤ p.int32At 0 := .inr (Int.not_lt.mp natural)
      obtain ⟨count,same⟩ := Int.eq_ofNat_of_zero_le (Int.not_lt.mp natural)
      rw [same,Int.toNat_natCast]
      apply ends_ite
      · intro _
        have all := readEntries_reads reads count p _ _ first
        apply ends_bind
        apply ends_status
        apply ends_ite
        · intro _
          exact ends_pure (iff_of_true called_invalid (same ▸ good))
        · intro complete
          rw [all.status (by omega)] at complete
          have fits : 4*(1+words*count) ≤ p.avail := by omega
          have wide : count ≤ words*count := Nat.le_mul_of_pos_left count positive
          have elements := readEntries_values reads values count first fits
          rw [Nat.zero_add] at elements
          apply ends_pure
          rw [called_one,elements]
          refine iff_of_true ⟨count,_,measured_small enough small same (by omega),?_,?_⟩ (same ▸ good)
          · rw [Nat.mul_assoc]
            omega
          · congr 1
            apply List.map_congr_left
            intro i _
            rw [Nat.mul_add,Nat.mul_assoc]
      · intro _
        exact ends_pure (iff_of_true called_fault (same ▸ good))

theorem readGsmBroadcast_values : ReadsAt 5 readGsmBroadcast gsmBroadcastAt := by
  intro p before l after fits
  have one := readInt32_reads p before l after
  have two := readInt32_reads p _ _ one
  have three := readInt32_reads p _ _ two
  have four := readInt32_reads p _ _ three
  simp only [readGsmBroadcast,bind_run,pure_run]
  rw [readInt32_after after (by omega),readInt32_after one (by omega),readInt32_after two (by omega),
    readInt32_after three (by omega),readInt32_after four (by omega)]
  simp only [gsmBroadcastAt,Parcel.int32At_skip,Nat.mul_add,Nat.add_assoc,Nat.add_zero,Nat.mul_one,
    Nat.reduceAdd]

theorem readCdmaBroadcast_values : ReadsAt 3 readCdmaBroadcast cdmaBroadcastAt := by
  intro p before l after fits
  have one := readInt32_reads p before l after
  have two := readInt32_reads p _ _ one
  simp only [readCdmaBroadcast,bind_run,pure_run]
  rw [readInt32_after after (by omega),readInt32_after one (by omega),readInt32_after two (by omega)]
  simp only [cdmaBroadcastAt,Parcel.int32At_skip,Nat.mul_add,Nat.add_assoc,Nat.add_zero,Nat.mul_one,
    Nat.reduceAdd]

end Broadcast

theorem strings_honoured (request : Option (List CString) → Nat → VendorData)
    (small : p.avail ≤ MAX_COMMAND_BYTES) :
    Called (match p.readInt32 with
      | none => [.invalidCommandBlock]
      | some (countStrings,q) => stringArray m q countStrings request) (StringsHonoured m p request) ↔
      p.avail < 4 ∨ (-1 ≤ p.int32At 0 ∧
        (stackFits m 4 (p.int32At 0) → StringsDecoded (p.int32At 0).toNat (p.skip 4))) := by
  by_cases enough : 4 ≤ p.avail
  · rw [readInt32_some enough]
    simp only [stringArray_honoured m request enough small,Nat.not_lt.mpr enough,false_or]
  · rw [readInt32_none (Nat.not_le.mp enough)]
    exact iff_of_true called_invalid (.inl (Nat.not_le.mp enough))

theorem counts_honoured (k : Counted) (short : p.data.length ≤ MAX_COMMAND_BYTES) :
    Called (k.calls m p) (Honoured m p k) ↔ Countable m p k := by
  have small : p.avail ≤ MAX_COMMAND_BYTES := le_trans (Nat.sub_le _ _) short
  cases k with
  | dispatchStrings => exact strings_honoured m p .strings small
  | dispatchInts => exact dispatchInts_honoured m p small
  | dispatchImsGsmSms retry messageRef =>
    exact strings_honoured m p (.imsGsmSms retry messageRef) small
  | dispatchGsmBrSmsCnf =>
    exact dispatchBroadcast_honoured m p 24 .gsmBroadcast readGsmBroadcast_reads
      readGsmBroadcast_values (by decide) small
  | dispatchCdmaBrSmsCnf =>
    exact dispatchBroadcast_honoured m p 16 .cdmaBroadcast readCdmaBroadcast_reads
      readCdmaBroadcast_values (by decide) small

end Elements

def oneInt : Parcel := .setData (Parcel.le32 1 ++ Parcel.le32 5)

theorem counts_honoured_one :
    Called ((Counted.dispatchInts).calls (asciiBuild 1).platform oneInt)
      (Honoured (asciiBuild 1).platform oneInt .dispatchInts) ∧
    (Counted.dispatchInts).calls (asciiBuild 1).platform oneInt = [.onRequest (.ints [5] 4)] := by
  refine ⟨(counts_honoured (asciiBuild 1).platform oneInt .dispatchInts (by decide)).mpr (.inr ?_),by decide⟩
  decide

def noStrings : Parcel := .setData (Parcel.le32 2)
def negativeInts : Parcel := .setData (Parcel.le32 (-1))

theorem counts_not_honoured :
    ¬ Called ((Counted.dispatchStrings).calls (asciiBuild 1).platform noStrings)
      (Honoured (asciiBuild 1).platform noStrings .dispatchStrings) ∧
    ¬ Called ((Counted.dispatchInts).calls (asciiBuild 1).platform negativeInts)
      (Honoured (asciiBuild 1).platform negativeInts .dispatchInts) := by
  constructor
  · intro called
    have honoured := called _ (List.mem_singleton_self _)
    rcases honoured with ⟨_,null,_⟩ | ⟨count,_,⟨_,same,_⟩,decoded,_⟩
    · exact absurd null (by decide)
    · have fits := stringsDecoded_avail decoded
      have two : noStrings.int32At 0 = 2 := by decide
      have nothing : (noStrings.skip 4).avail = 0 := by decide
      omega
  · intro called
    have negative : negativeInts.int32At 0 < 0 := by decide
    have honoured : ElementsHonoured negativeInts 4 (·.int32At 0) .ints _ :=
      called _ List.mem_cons_self
    exact elements_negative negativeInts negative honoured

end SemcMsm7x30.Counts

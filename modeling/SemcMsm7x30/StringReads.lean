import SemcMsm7x30.MalformedPayload
import SemcMsm7x30.Ril

namespace SemcMsm7x30.StringReads

def StringWhole (p : Parcel) : Prop :=
  0 ≤ p.int32At 0 ∧ ((p.int32At 0).toNat+1)*2 ≤ Parcel.INT32_MAX ∧
    4+Parcel.pad (((p.int32At 0).toNat+1)*2) ≤ p.avail

def StringNull (p : Parcel) : Prop := 4 ≤ p.avail ∧ p.int32At 0 = -1

def StringOk (p : Parcel) : Prop := StringNull p ∨ StringWhole p

def IntOk (p : Parcel) : Prop := 4 ≤ p.avail

section Strings
variable {p : Parcel}

theorem pad_pos (n : Nat) : 4 ≤ Parcel.pad ((n+1)*2) := by
  unfold Parcel.pad
  omega

theorem whole_avail (whole : StringWhole p) : 4 ≤ p.avail :=
  le_trans (Nat.le_add_right 4 _) whole.2.2

theorem stringOk_avail (ok : StringOk p) : 4 ≤ p.avail := by
  rcases ok with null | whole
  · exact null.1
  · exact whole_avail whole

theorem readInplace_none {len : Nat} (tight : ¬ (len ≤ Parcel.INT32_MAX ∧ Parcel.pad len ≤ p.avail)) :
    p.readInplace len = none := by
  simp only [Parcel.readInplace,if_neg tight]

theorem readString_short (short : p.avail < 4) : p.readString16Inplace = (none,p) := by
  have tight := pad_pos 0
  have value : p.readInt32Value = (0,p) := by simp [Parcel.readInt32Value,readInt32_none short]
  have body : p.readInplace (((0 : Int).toNat+1)*2) = none :=
    readInplace_none (fun fits => absurd (le_trans tight fits.2) (Nat.not_le.mpr short))
  simp only [Parcel.readString16Inplace,value]
  rw [if_pos (by decide)]
  simp only [body]

theorem readString_long (enough : 4 ≤ p.avail) : p.readString16Inplace =
    if 0 ≤ p.int32At 0 ∧ p.int32At 0 < Parcel.INT32_MAX then
      match (p.skip 4).readInplace (((p.int32At 0).toNat+1)*2) with
      | some (bytes,q) => (some ((Parcel.units bytes).take (p.int32At 0).toNat),q)
      | none => (none,p.skip 4)
    else (none,p.skip 4) := by
  have value : p.readInt32Value = (p.int32At 0,p.skip 4) := by
    simp [Parcel.readInt32Value,readInt32_some enough]
  have opened : p.readString16Inplace = (fun r : Int × Parcel =>
      if 0 ≤ r.1 ∧ r.1 < Parcel.INT32_MAX then
        match r.2.readInplace ((r.1.toNat+1)*2) with
        | some (bytes,q) => (some ((Parcel.units bytes).take r.1.toNat),q)
        | none => (none,r.2)
      else (none,r.2)) p.readInt32Value := rfl
  rw [opened,value]

theorem readString_whole (whole : StringWhole p) :
    (∃ s, p.readString16Inplace.1 = some s) ∧
      afterString p = p.skip (4+Parcel.pad (((p.int32At 0).toNat+1)*2)) := by
  obtain ⟨positive,small,fits⟩ := whole
  have range : 0 ≤ p.int32At 0 ∧ p.int32At 0 < Parcel.INT32_MAX := by omega
  have body : ((p.int32At 0).toNat+1)*2 ≤ Parcel.INT32_MAX ∧
      Parcel.pad (((p.int32At 0).toNat+1)*2) ≤ (p.skip 4).avail := by
    rw [Parcel.avail_skip]
    omega
  unfold afterString
  rw [readString_long (by omega),if_pos range]
  simp only [Parcel.readInplace,if_pos body,Parcel.skip_skip]
  exact ⟨⟨_,rfl⟩,trivial⟩

theorem readString_missing (enough : 4 ≤ p.avail) (missing : ¬ StringWhole p) :
    p.readString16Inplace = (none,p.skip 4) := by
  rw [readString_long enough]
  by_cases range : 0 ≤ p.int32At 0 ∧ p.int32At 0 < Parcel.INT32_MAX
  · have body : (p.skip 4).readInplace (((p.int32At 0).toNat+1)*2) = none := by
      apply readInplace_none
      intro fits
      rw [Parcel.avail_skip] at fits
      exact missing ⟨range.1,fits.1,by omega⟩
    rw [if_pos range]
    simp only [body]
  · rw [if_neg range]

theorem stringMissing_iff (p : Parcel) : StringMissing p ↔ ¬ StringWhole p := by
  unfold StringMissing
  constructor
  · intro missing whole
    obtain ⟨s,read⟩ := (readString_whole whole).1
    rw [read] at missing
    cases missing
  · intro torn
    by_cases enough : 4 ≤ p.avail
    · rw [readString_missing enough torn]
    · rw [readString_short (Nat.not_le.mp enough)]

theorem intOk_before (later : IntOk (afterInt p)) : IntOk p := by
  unfold IntOk at later ⊢
  rw [avail_afterInt] at later
  split at later <;> omega

theorem three_ints (enough : 12 ≤ p.avail) :
    IntOk p ∧ IntOk (afterInt p) ∧ IntOk (afterInt (afterInt p)) := by
  unfold IntOk
  simp only [avail_afterInt]
  refine ⟨by omega,?_,?_⟩
  · rw [if_pos (by omega)]
    omega
  · rw [if_pos (by omega : 4 ≤ p.avail),if_pos (by omega)]
    omega

end Strings

def Ends {α : Type} (P : α → Prop) (x : StateM Locals α) (l : Locals) : Prop := P (x l).1

section Rules
variable {α β : Type} {P : β → Prop} {l : Locals}

theorem ends_bind {x : StateM Locals α} {f : α → StateM Locals β}
    (rest : Ends P (f (x l).1) (x l).2) : Ends P (x >>= f) l := rest

theorem ends_status {f : Bool → StateM Locals β} (rest : Ends P (f l.status) l) :
    Ends P (lastStatus >>= f) l := rest

theorem ends_pure {b : β} (holds : P b) : Ends P (pure b) l := holds

theorem ends_ite {c : Prop} [Decidable c] {x y : StateM Locals β} (yes : c → Ends P x l)
    (no : ¬ c → Ends P y l) : Ends P (if c then x else y) l := by
  by_cases holds : c
  · rw [if_pos holds]
    exact yes holds
  · rw [if_neg holds]
    exact no holds

end Rules

section Compared
variable (m : Platform)

def comparedSimIo : StateM Locals (List CString) := do
  let command ← readInt32
  let _ ← readInt32
  let path ← strdupReadString m
  let _ ← readInt32
  let _ ← readInt32
  let _ ← readInt32
  let ok ← lastStatus
  let _ ← strdupReadString m
  let _ ← strdupReadString m
  let _ ← strdupReadString m
  if ok = false then return []
  else if path = some MF_SIM ∧ command = 0xc0 then return [path]
  else return [path,path]

def comparedQueryFacility : StateM Locals (List CString) := do
  let _ ← readInt32
  let _ ← strdupReadString m
  let _ ← strdupReadString m
  let _ ← strdupReadString m
  let appId ← strdupReadString m
  return [appId]

def comparedSetFacility : StateM Locals (List CString) := do
  let _ ← readInt32
  let _ ← strdupReadString m
  let _ ← strdupReadString m
  let _ ← strdupReadString m
  let _ ← strdupReadString m
  let appId ← strdupReadString m
  return [appId]

def compared (p : Parcel) : DispatchFunction → List CString
  | .dispatchSimIo => (comparedSimIo m (.start p)).1
  | .dispatchQueryFacility => (comparedQueryFacility m (.start p)).1
  | .dispatchSetFacility => (comparedSetFacility m (.start p)).1
  | _ => []

-- The path, or appId, is there to be compared. dispatchSIM_IO compares only when
-- the three ints behind the path could be read.
def Comparable (p : Parcel) : DispatchFunction → Prop
  | .dispatchSimIo => (afterString (afterInt (afterInt p))).avail < 12 ∨
    StringWhole (afterInt (afterInt p))
  | .dispatchQueryFacility => StringWhole (afterString (afterString (afterString (afterInt p))))
  | .dispatchSetFacility =>
    StringWhole (afterString (afterString (afterString (afterString (afterInt p)))))
  | _ => True

theorem strdupReadString_whole (l : Locals) :
    (strdupReadString m l).1 = none ↔ ¬ StringWhole l.p := by
  rw [strdupReadString_none,stringMissing_iff]

theorem appId_compared (l : Locals) :
    none ∉ [(strdupReadString m l).1] ↔ StringWhole l.p := by
  rw [List.mem_singleton,eq_comm,strdupReadString_whole,not_not]

theorem simIo_compared (p : Parcel) :
    none ∉ compared m p .dispatchSimIo ↔ Comparable p .dispatchSimIo := by
  have ends : Ends (fun strings => none ∉ strings ↔ Comparable p .dispatchSimIo) (comparedSimIo m)
      (.start p) := by
    unfold comparedSimIo
    apply ends_bind
    apply ends_bind
    apply ends_bind
    apply ends_bind
    apply ends_bind
    apply ends_bind
    apply ends_status
    apply ends_bind
    apply ends_bind
    apply ends_bind
    have path := strdupReadString_whole m (readInt32 (readInt32 (.start p)).2).2
    rw [readInt32_p,readInt32_p,start_p] at path
    apply ends_ite
    · intro failed
      rw [readInt32_third_status,strdupReadString_p,readInt32_p,readInt32_p,start_p] at failed
      apply ends_pure
      simp [Comparable,failed]
    · intro read
      rw [readInt32_third_status,strdupReadString_p,readInt32_p,readInt32_p,start_p] at read
      have whole : Comparable p .dispatchSimIo ↔ StringWhole (afterInt (afterInt p)) := by
        simp [Comparable,read]
      apply ends_ite
      · intro _
        apply ends_pure
        rw [whole,List.mem_singleton,eq_comm,path,not_not]
      · intro _
        apply ends_pure
        rw [whole,List.mem_cons,List.mem_singleton,or_self,eq_comm,path,not_not]
  exact ends

theorem queryFacility_compared (p : Parcel) :
    none ∉ compared m p .dispatchQueryFacility ↔ Comparable p .dispatchQueryFacility := by
  have ends : Ends (fun strings => none ∉ strings ↔ Comparable p .dispatchQueryFacility)
      (comparedQueryFacility m) (.start p) := by
    unfold comparedQueryFacility
    apply ends_bind
    apply ends_bind
    apply ends_bind
    apply ends_bind
    apply ends_bind
    apply ends_pure
    rw [appId_compared,strdupReadString_p,strdupReadString_p,strdupReadString_p,readInt32_p]
    rfl
  exact ends

theorem setFacility_compared (p : Parcel) :
    none ∉ compared m p .dispatchSetFacility ↔ Comparable p .dispatchSetFacility := by
  have ends : Ends (fun strings => none ∉ strings ↔ Comparable p .dispatchSetFacility)
      (comparedSetFacility m) (.start p) := by
    unfold comparedSetFacility
    apply ends_bind
    apply ends_bind
    apply ends_bind
    apply ends_bind
    apply ends_bind
    apply ends_bind
    apply ends_pure
    rw [appId_compared,strdupReadString_p,strdupReadString_p,strdupReadString_p,strdupReadString_p,
      readInt32_p]
    rfl
  exact ends

theorem strcmp_given_strings (p : Parcel) (f : DispatchFunction) :
    none ∉ compared m p f ↔ Comparable p f := by
  cases f with
  | dispatchSimIo => exact simIo_compared m p
  | dispatchQueryFacility => exact queryFacility_compared m p
  | dispatchSetFacility => exact setFacility_compared m p
  | _ => simp [compared,Comparable]

def nullPath : List UInt8 :=
  Parcel.le32 28 ++ Parcel.le32 7 ++ Parcel.le32 0xb2 ++ Parcel.le32 0x6f3a ++ Parcel.le32 (-1) ++
    Parcel.le32 1 ++ Parcel.le32 4 ++ Parcel.le32 28

theorem null_path_compared : ∃ p pCI, readHeader nullPath = some (28,7,p) ∧
    lookupCommand 28 = some pCI ∧ pCI.dispatchFunction = some .dispatchSimIo ∧
    none ∈ compared (asciiBuild 1).platform p .dispatchSimIo :=
  ⟨⟨nullPath,8⟩,command 28 .dispatchSimIo .responseSimIo,rfl,rfl,rfl,by decide⟩

end Compared

def Acts (calls : List Call) : Prop :=
  ∃ call ∈ calls, (∃ data, call = .onRequest data) ∨
    ∃ response, call = .onRequestComplete RIL_E_SUCCESS response

def EveryRead (p : Parcel) : DispatchFunction → Prop
  | .dispatchSimIo =>
    let path := afterInt (afterInt p)
    let p1 := afterString path
    let data := afterInt (afterInt (afterInt p1))
    IntOk p ∧ IntOk (afterInt p) ∧ StringOk path ∧
      (IntOk p1 ∧ IntOk (afterInt p1) ∧ IntOk (afterInt (afterInt p1))) ∧
      StringOk data ∧ StringOk (afterString data) ∧ StringOk (afterString (afterString data))
  | .dispatchCallForward =>
    let number := afterInt (afterInt (afterInt (afterInt p)))
    IntOk p ∧ IntOk (afterInt p) ∧ IntOk (afterInt (afterInt p)) ∧
      IntOk (afterInt (afterInt (afterInt p))) ∧ StringOk number ∧ IntOk (afterString number)
  | _ => True

-- What the one check the function makes does catch. A path that is not there
-- ends the process.
def Caught (p : Parcel) : DispatchFunction → Prop
  | .dispatchSimIo =>
    let path := afterInt (afterInt p)
    let data := afterInt (afterInt (afterInt (afterString path)))
    (afterString path).avail < 12 ∨ ¬ StringWhole path ∨
      (StringOk data ∧ StringOk (afterString data) ∧ StringOk (afterString (afterString data)))
  | .dispatchCallForward =>
    let number := afterInt (afterInt (afterInt (afterInt p)))
    (afterString number).avail < 4 ∨ StringOk number
  | _ => True

section Caught
variable (m : Platform) (p : Parcel)

theorem acts_onRequest (data : VendorData) : Acts [.onRequest data] :=
  ⟨_,List.mem_singleton_self _,.inl ⟨data,rfl⟩⟩

theorem acts_success (response : Response) : Acts [.onRequestComplete RIL_E_SUCCESS response] :=
  ⟨_,List.mem_singleton_self _,.inr ⟨response,rfl⟩⟩

theorem idle_invalid : ¬ Acts [.invalidCommandBlock] := by simp [Acts]

theorem idle_fault : ¬ Acts [.fault] := by simp [Acts]

structure SimIoEnds (p : Parcel) (calls : List Call) : Prop where
  short : (afterString (afterInt (afterInt p))).avail < 12 → calls = [.invalidCommandBlock]
  missing : 12 ≤ (afterString (afterInt (afterInt p))).avail → ¬ StringWhole (afterInt (afterInt p)) →
    calls = [.fault]
  acts : 12 ≤ (afterString (afterInt (afterInt p))).avail → StringWhole (afterInt (afterInt p)) →
    Acts calls ∧ .fault ∉ calls

theorem dispatchSimIo_ends : SimIoEnds p (dispatchSimIo m p) := by
  unfold dispatchSimIo dispatched
  change Ends (SimIoEnds p) _ (.start p)
  apply ends_bind
  apply ends_bind
  apply ends_bind
  apply ends_bind
  apply ends_bind
  apply ends_bind
  apply ends_status
  apply ends_bind
  apply ends_bind
  apply ends_bind
  have path := strdupReadString_whole m (readInt32 (readInt32 (.start p)).2).2
  rw [readInt32_p,readInt32_p,start_p] at path
  apply ends_ite
  · intro failed
    rw [readInt32_third_status,strdupReadString_p,readInt32_p,readInt32_p,start_p] at failed
    apply ends_pure
    exact ⟨fun _ => rfl,fun enough => absurd failed (Nat.not_lt.mpr enough),
      fun enough => absurd failed (Nat.not_lt.mpr enough)⟩
  · intro read
    rw [readInt32_third_status,strdupReadString_p,readInt32_p,readInt32_p,start_p] at read
    apply ends_ite
    · intro missing
      apply ends_pure
      exact ⟨fun short => absurd short read,fun _ _ => rfl,fun _ whole => absurd whole (path.mp missing)⟩
    · intro there
      have whole := not_not.mp (mt path.mpr there)
      apply ends_ite
      · intro _
        apply ends_pure
        exact ⟨fun short => absurd short read,fun _ torn => absurd whole torn,
          fun _ _ => ⟨acts_success _,by simp⟩⟩
      · intro _
        apply ends_ite
        · intro _
          apply ends_pure
          exact ⟨fun short => absurd short read,fun _ torn => absurd whole torn,
            fun _ _ => ⟨acts_success _,by simp⟩⟩
        · intro _
          apply ends_pure
          exact ⟨fun short => absurd short read,fun _ torn => absurd whole torn,
            fun _ _ => ⟨acts_onRequest _,by simp⟩⟩

theorem dispatchSimIo_acts : Acts (dispatchSimIo m p) ↔
    12 ≤ (afterString (afterInt (afterInt p))).avail ∧ StringWhole (afterInt (afterInt p)) := by
  have ends := dispatchSimIo_ends m p
  by_cases short : (afterString (afterInt (afterInt p))).avail < 12
  · rw [ends.short short]
    exact iff_of_false idle_invalid (fun both => absurd both.1 (by omega))
  · have enough := Nat.not_lt.mp short
    by_cases whole : StringWhole (afterInt (afterInt p))
    · exact iff_of_true (ends.acts enough whole).1 ⟨enough,whole⟩
    · rw [ends.missing enough whole]
      exact iff_of_false idle_fault (fun both => whole both.2)

theorem dispatchSimIo_fault : .fault ∈ dispatchSimIo m p ↔ none ∈ compared m p .dispatchSimIo := by
  have ends := dispatchSimIo_ends m p
  have given := not_iff_not.mpr (simIo_compared m p)
  rw [not_not] at given
  rw [given,Comparable]
  by_cases short : (afterString (afterInt (afterInt p))).avail < 12
  · rw [ends.short short]
    simp [short]
  · have enough := Nat.not_lt.mp short
    by_cases whole : StringWhole (afterInt (afterInt p))
    · exact iff_of_false (ends.acts enough whole).2 (fun none => none (.inr whole))
    · rw [ends.missing enough whole]
      simp [short,whole]

theorem dispatchCallForward_acts : Acts (dispatchCallForward m p) ↔
    4 ≤ (afterString (afterInt (afterInt (afterInt (afterInt p))))).avail := by
  unfold dispatchCallForward dispatched
  change Ends (fun calls => Acts calls ↔
    4 ≤ (afterString (afterInt (afterInt (afterInt (afterInt p))))).avail) _ (.start p)
  apply ends_bind
  apply ends_bind
  apply ends_bind
  apply ends_bind
  apply ends_bind
  apply ends_bind
  apply ends_status
  apply ends_ite
  · intro failed
    rw [readInt32_status,strdupReadString_p,readInt32_p,readInt32_p,readInt32_p,readInt32_p,
      start_p] at failed
    apply ends_pure
    exact iff_of_false idle_invalid (by omega)
  · intro read
    rw [readInt32_status,strdupReadString_p,readInt32_p,readInt32_p,readInt32_p,readInt32_p,
      start_p] at read
    exact ends_pure (iff_of_true (acts_onRequest _) (by omega))

theorem simIo_caught :
    (Acts (dispatchSimIo m p) → EveryRead p .dispatchSimIo) ↔ Caught p .dispatchSimIo := by
  rw [dispatchSimIo_acts]
  constructor
  · intro every
    by_cases short : (afterString (afterInt (afterInt p))).avail < 12
    · exact .inl short
    · by_cases whole : StringWhole (afterInt (afterInt p))
      · obtain ⟨_,_,_,_,strings⟩ := every ⟨Nat.not_lt.mp short,whole⟩
        exact .inr (.inr strings)
      · exact .inr (.inl whole)
  · intro caught acts
    obtain ⟨enough,whole⟩ := acts
    have fileid := intOk_before (whole_avail whole)
    refine ⟨intOk_before fileid,fileid,.inr whole,three_ints enough,?_⟩
    rcases caught with short | torn | strings
    · exact absurd short (Nat.not_lt.mpr enough)
    · exact absurd whole torn
    · exact strings

theorem callForward_caught :
    (Acts (dispatchCallForward m p) → EveryRead p .dispatchCallForward) ↔
      Caught p .dispatchCallForward := by
  rw [dispatchCallForward_acts]
  constructor
  · intro every
    by_cases short : (afterString (afterInt (afterInt (afterInt (afterInt p))))).avail < 4
    · exact .inl short
    · obtain ⟨_,_,_,_,number,_⟩ := every (Nat.not_lt.mp short)
      exact .inr number
  · intro caught enough
    have number := caught.resolve_left (Nat.not_lt.mpr enough)
    have toa := intOk_before (stringOk_avail number)
    have serviceClass := intOk_before toa
    have reason := intOk_before serviceClass
    exact ⟨intOk_before reason,reason,serviceClass,toa,number,enough⟩

-- The one check at the end catches what it is meant to exactly for these payloads.
theorem late_check_catches (state : RadioState) (f : DispatchFunction)
    (decoder : f = .dispatchSimIo ∨ f = .dispatchCallForward) :
    (Acts (dispatch m state p f) → EveryRead p f) ↔ Caught p f := by
  rcases decoder with rfl | rfl
  · exact simIo_caught m p
  · exact callForward_caught m p

end Caught

def tornNumber : Parcel :=
  .setData (Parcel.le32 3 ++ Parcel.le32 0 ++ Parcel.le32 1 ++ Parcel.le32 129 ++ Parcel.le32 100 ++
    Parcel.le32 20)

theorem torn_number_passed :
    Acts (dispatch (asciiBuild 1).platform .on tornNumber .dispatchCallForward) ∧
      ¬ EveryRead tornNumber .dispatchCallForward := by
  constructor
  · exact ⟨_,List.mem_singleton_self _,.inl ⟨_,rfl⟩⟩
  · intro every
    obtain ⟨_,_,_,_,number,_⟩ := every
    rcases number with null | whole
    · exact absurd null.2 (by decide)
    · exact absurd whole.2.2 (by decide)

def nullNumber : Parcel :=
  .setData (Parcel.le32 3 ++ Parcel.le32 0 ++ Parcel.le32 1 ++ Parcel.le32 129 ++ Parcel.le32 (-1) ++
    Parcel.le32 20)

theorem late_check_catches_null :
    Acts (dispatch (asciiBuild 1).platform .on nullNumber .dispatchCallForward) ∧
      EveryRead nullNumber .dispatchCallForward := by
  have acts : Acts (dispatch (asciiBuild 1).platform .on nullNumber .dispatchCallForward) :=
    ⟨_,List.mem_singleton_self _,.inl ⟨_,rfl⟩⟩
  refine ⟨acts,(late_check_catches _ _ _ _ (.inr rfl)).mpr (.inr (.inl ⟨?_,?_⟩)) acts⟩
  · decide
  · decide

end SemcMsm7x30.StringReads

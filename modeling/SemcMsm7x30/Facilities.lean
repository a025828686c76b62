import SemcMsm7x30.RequestDecoding
import SemcMsm7x30.StringReads

namespace SemcMsm7x30.Facilities
open Parcel (string16Bytes Fits)

-- A string of a record: null, or its UTF-16 units.
abbrev Field := Option (List UInt16)

def text (m : Platform) (s : List UInt16) : List UInt8 := cString (m.strndup16to8 s)

def given (m : Platform) (field : Field) : CString := field.map (text m)

def FieldsFit (fields : List Field) : Prop := ∀ field ∈ fields, ∀ s ∈ field, Fits s

instance (fields : List Field) : Decidable (FieldsFit fields) :=
  inferInstanceAs (Decidable (∀ field ∈ fields, ∀ s ∈ field, Fits s))

section Strings

theorem readString_null (before after : List UInt8) :
    (⟨before ++ Parcel.le32 (-1) ++ after,before.length⟩ : Parcel).readString16Inplace =
      (none,⟨before ++ Parcel.le32 (-1) ++ after,(before ++ Parcel.le32 (-1)).length⟩) := by
  have length : (⟨before ++ Parcel.le32 (-1) ++ after,before.length⟩ : Parcel).int32At 0 = -1 :=
    Parcel.int32At_le32 (by decide) (by decide)
  have missing : ¬ StringReads.StringWhole ⟨before ++ Parcel.le32 (-1) ++ after,before.length⟩ := by
    intro whole
    rw [StringReads.StringWhole,length] at whole
    omega
  have enough : 4 ≤ (⟨before ++ Parcel.le32 (-1) ++ after,before.length⟩ : Parcel).avail := by
    simp only [Parcel.avail,List.length_append,Parcel.le32_length]
    omega
  rw [StringReads.readString_missing enough missing]
  simp [Parcel.skip]

theorem readString_some {s : List UInt16} (fits : Fits s) (before after : List UInt8) :
    (⟨before ++ string16Bytes (some s) ++ after,before.length⟩ : Parcel).readString16Inplace =
      (some s,⟨before ++ string16Bytes (some s) ++ after,
        (before ++ string16Bytes (some s)).length⟩) := by
  have small : (s.length+1)*2 ≤ Parcel.INT32_MAX := fits
  have bound : s.length < Parcel.INT32_MAX ∧ s.length < 2^31 := by
    unfold Parcel.INT32_MAX at small ⊢
    omega
  have width : (Parcel.bytesOf s ++ [0,0]).length = (s.length+1)*2 := by
    rw [List.length_append,Parcel.bytesOf_length]
    simp only [List.length_cons,List.length_nil]
    omega
  have block := @Parcel.block_roundtrip (Parcel.bytesOf s ++ [0,0]) (by rwa [width])
    (before ++ Parcel.le32 s.length) after
  simp only [width] at block
  simp only [string16Bytes,width]
  generalize List.replicate (Parcel.pad ((s.length+1)*2)-(s.length+1)*2) (0 : UInt8) = padding
    at block ⊢
  have length : (⟨before ++ (Parcel.le32 s.length ++ (Parcel.bytesOf s ++ [0,0] ++ padding)) ++ after,
      before.length⟩ : Parcel).int32At 0 = s.length := by
    have word := @Parcel.int32At_le32 before (Parcel.bytesOf s ++ [0,0] ++ padding ++ after) s.length
      (by omega) (by omega)
    simpa only [List.append_assoc] using word
  have enough : 4 ≤ (⟨before ++ (Parcel.le32 s.length ++ (Parcel.bytesOf s ++ [0,0] ++ padding)) ++
      after,before.length⟩ : Parcel).avail := by
    simp only [Parcel.avail,List.length_append,Parcel.le32_length]
    omega
  have body : ((⟨before ++ (Parcel.le32 s.length ++ (Parcel.bytesOf s ++ [0,0] ++ padding)) ++ after,
      before.length⟩ : Parcel).skip 4).readInplace ((s.length+1)*2) =
      some (Parcel.bytesOf s ++ [0,0],⟨before ++ (Parcel.le32 s.length ++
        (Parcel.bytesOf s ++ [0,0] ++ padding)) ++ after,
        (before ++ (Parcel.le32 s.length ++ (Parcel.bytesOf s ++ [0,0] ++ padding))).length⟩) := by
    simpa only [Parcel.skip,List.append_assoc,List.length_append,Parcel.le32_length] using block
  rw [StringReads.readString_long enough,length,if_pos (by omega),Int.toNat_natCast]
  simp only [body,Parcel.units_bytesOf,List.take_left]

theorem takes_string (m : Platform) {field : Field} (fits : ∀ s ∈ field, Fits s) :
    Takes (strdupReadString m) (string16Bytes field) (given m field) := by
  intro before after l place fine
  have read : l.p.readString16Inplace =
      (field,⟨before ++ string16Bytes field ++ after,(before ++ string16Bytes field).length⟩) := by
    rw [place]
    cases field with
    | none => exact readString_null before after
    | some s => exact readString_some (fits s rfl) before after
  simp only [strdupReadString,read]
  exact ⟨rfl,trivial,fine⟩

theorem takes_strings (m : Platform) {fields : List Field} (fit : FieldsFit fields) :
    Takes (readStrings m fields.length) (fields.flatMap string16Bytes) (fields.map (given m)) := by
  induction fields with
  | nil => exact takes_pure []
  | cons field fields ih =>
    obtain ⟨first,rest⟩ := List.forall_mem_cons.mp fit
    exact takes_bind (takes_string m first) (takes_map (ih rest))

end Strings

-- The conversions give back the strings concerned, the slot's included.
structure Converts (m : Platform) (fields : List Field) : Prop where
  back : ∀ s, some s ∈ fields → m.strdup8to16 (text m s) = s
  empty : text m [] = [] ∧ m.strdup8to16 [] = []
  digit : text m [0x30] = [0x30] ∧ m.strdup8to16 [0x30] = [0x30]

def slot (appId : List UInt16) : List UInt16 := if appId = [] then [] else [0x30]

section Rewriting
variable {m : Platform}

theorem dispatchStrings_fields {fields : List Field} (fit : FieldsFit fields)
    (present : 0 < fields.length) (short : fields.length < 2^31)
    (stack : 4*fields.length ≤ m.stackRoom) (header : List UInt8) :
    dispatchStrings m ⟨header ++ (Parcel.le32 fields.length ++ fields.flatMap string16Bytes),
        header.length⟩ =
      [.onRequest (.strings (some (fields.map (given m))) (4*fields.length))] := by
  have count := @Parcel.word_roundtrip fields.length (by omega) (by omega) header
    (fields.flatMap string16Bytes)
  have strings := ((takes_strings m fit).whole (header ++ Parcel.le32 fields.length)).1
  have room : stackFits m 4 fields.length = true := by
    simp only [stackFits,decide_eq_true_eq]
    exact_mod_cast stack
  unfold dispatchStrings
  rw [← List.append_assoc,count]
  simp only [stringArray]
  rw [if_neg (by omega),if_neg (by omega),if_neg (by omega),if_pos room,Int.toNat_natCast,strings]

theorem writeString16_whole (data : List UInt8) (field : Field) :
    (⟨data,data.length⟩ : Parcel).writeString16 field =
      ⟨data ++ string16Bytes field,(data ++ string16Bytes field).length⟩ := by
  cases field with
  | none => exact Parcel.write_at_end rfl
  | some s =>
    have length : (⟨data,data.length⟩ : Parcel).writeInt32 s.length =
        ⟨data ++ Parcel.le32 s.length,(data ++ Parcel.le32 s.length).length⟩ := Parcel.write_at_end rfl
    rw [Parcel.writeString16,length,Parcel.writeInplace,Parcel.write_at_end rfl]
    simp only [string16Bytes,List.append_assoc]

theorem writeStrings_whole (data : List UInt8) (strings : List CString) :
    strings.foldl (writeStringToParcel m) ⟨data,data.length⟩ =
      ⟨data ++ strings.flatMap (fun s => string16Bytes (s.map m.strdup8to16)),
        (data ++ strings.flatMap fun s => string16Bytes (s.map m.strdup8to16)).length⟩ := by
  induction strings generalizing data with
  | nil => simp
  | cons s strings ih =>
    rw [List.foldl_cons,writeStringToParcel,writeString16_whole,ih,List.flatMap_cons,
      List.append_assoc]

theorem converted_back {fields : List Field} (converts : Converts m fields) :
    (fields.map (given m)).flatMap (fun s => string16Bytes (s.map m.strdup8to16)) =
      fields.flatMap string16Bytes := by
  rw [List.flatMap_map]
  apply List.flatMap_congr
  intro field member
  cases field with
  | none => rfl
  | some s => exact congrArg (fun units => string16Bytes (some units)) (converts.back s member)

theorem given_slot {fields : List Field} {appId : List UInt16} (converts : Converts m fields)
    (concerned : some appId ∈ fields) :
    (if text m appId = [] then [] else [0x30]) = text m (slot appId) := by
  unfold slot
  by_cases empty : appId = []
  · rw [if_pos empty,empty,if_pos converts.empty.1,converts.empty.1]
  · have full : text m appId ≠ [] := by
      intro none
      have back := converts.back appId concerned
      rw [none,converts.empty.2] at back
      exact empty back.symm
    rw [if_neg empty,if_neg full,converts.digit.1]

theorem with_slot {fields : List Field} {appId : List UInt16} (converts : Converts m fields) :
    Converts m (some (slot appId) :: fields) := by
  refine ⟨?_,converts.empty,converts.digit⟩
  intro s member
  rcases List.mem_cons.mp member with first | rest
  · cases first
    unfold slot
    split
    · rw [converts.empty.1,converts.empty.2]
    · rw [converts.digit.1,converts.digit.2]
  · exact converts.back s rest

theorem slot_fits (appId : List UInt16) : Fits (slot appId) := by
  unfold slot
  split <;> decide

-- The second parcel has the count that dispatchStrings reads.
theorem dispatchRewritten_fault {p : Parcel} {appId : CString} {count : Int} {strings : List CString}
    (inside : p.pos ≤ p.data.length) (present : 0 < count) (short : count < 2^31)
    (stack : 4*count ≤ m.stackRoom) :
    .fault ∈ dispatchRewritten m p appId count strings ↔ appId = none := by
  cases appId with
  | none => exact iff_of_true List.mem_cons_self rfl
  | some id =>
    refine iff_of_false ?_ nofun
    have copied : Parcel.empty.appendFrom p p.pos = ⟨p.data.take p.pos,(p.data.take p.pos).length⟩ :=
      Parcel.write_at_end rfl
    have header : (p.data.take p.pos).length = p.pos := List.length_take_of_le inside
    have read (bytes : List UInt8) := @Parcel.word_roundtrip count (by omega) (by omega)
      (p.data.take p.pos) bytes
    have room : stackFits m 4 count = true := by
      simp only [stackFits,decide_eq_true_eq]
      exact stack
    rw [header] at read
    simp only [dispatchRewritten,copied,Parcel.writeInt32]
    rw [Parcel.write_at_end rfl,writeStrings_whole]
    simp only [Parcel.setDataPosition]
    rw [dispatchStrings,read]
    simp only [stringArray]
    rw [if_neg (by omega),if_neg (by omega),if_neg (by omega),if_pos room]
    simp

-- The process dies exactly where strcmp is given NULL.
theorem dispatchQueryFacility_fault {p : Parcel} (inside : p.pos ≤ p.data.length)
    (stack : 4*5 ≤ m.stackRoom) :
    .fault ∈ dispatchQueryFacility m p ↔ none ∈ StringReads.compared m p .dispatchQueryFacility := by
  have given := not_iff_not.mpr (StringReads.queryFacility_compared m p)
  rw [not_not] at given
  rw [given]
  unfold dispatchQueryFacility dispatched
  change StringReads.Ends (fun calls => Call.fault ∈ calls ↔
    ¬ StringReads.Comparable p .dispatchQueryFacility) _ (.start p)
  apply StringReads.ends_bind
  apply StringReads.ends_bind
  apply StringReads.ends_bind
  apply StringReads.ends_bind
  apply StringReads.ends_bind
  apply StringReads.ends_pure
  rw [dispatchRewritten_fault inside (by omega) (by omega) (by omega),
    StringReads.strdupReadString_whole,strdupReadString_p,strdupReadString_p,strdupReadString_p,readInt32_p]
  rfl

theorem dispatchSetFacility_fault {p : Parcel} (inside : p.pos ≤ p.data.length)
    (stack : 4*6 ≤ m.stackRoom) :
    .fault ∈ dispatchSetFacility m p ↔ none ∈ StringReads.compared m p .dispatchSetFacility := by
  have given := not_iff_not.mpr (StringReads.setFacility_compared m p)
  rw [not_not] at given
  rw [given]
  unfold dispatchSetFacility dispatched
  change StringReads.Ends (fun calls => Call.fault ∈ calls ↔
    ¬ StringReads.Comparable p .dispatchSetFacility) _ (.start p)
  apply StringReads.ends_bind
  apply StringReads.ends_bind
  apply StringReads.ends_bind
  apply StringReads.ends_bind
  apply StringReads.ends_bind
  apply StringReads.ends_bind
  apply StringReads.ends_pure
  rw [dispatchRewritten_fault inside (by omega) (by omega) (by omega),
    StringReads.strdupReadString_whole,strdupReadString_p,strdupReadString_p,strdupReadString_p,strdupReadString_p,readInt32_p]
  rfl

theorem dispatchRewritten_fields {p : Parcel} {appId : List UInt16} {fields : List Field}
    (inside : p.pos ≤ p.data.length) (fit : FieldsFit (some appId :: fields))
    (converts : Converts m (some appId :: fields)) (short : fields.length+2 < 2^31)
    (stack : 4*(fields.length+2) ≤ m.stackRoom) :
    dispatchRewritten m p (given m (some appId)) (fields.length+2 : Nat) (fields.map (given m)) =
      [.onRequest (.strings (some (given m (some (slot appId)) :: given m (some appId) ::
        fields.map (given m))) (4*(fields.length+2)))] := by
  have all : FieldsFit (some (slot appId) :: some appId :: fields) := by
    intro field member
    rcases List.mem_cons.mp member with first | rest
    · intro s same
      rw [first] at same
      cases same
      exact slot_fits appId
    · exact fit field rest
  have copied : Parcel.empty.appendFrom p p.pos = ⟨p.data.take p.pos,(p.data.take p.pos).length⟩ :=
    Parcel.write_at_end rfl
  have header : (p.data.take p.pos).length = p.pos := List.length_take_of_le inside
  have calls := @dispatchStrings_fields m _ all (Nat.succ_pos _) short stack (p.data.take p.pos)
  have rewritten : dispatchRewritten m p (given m (some appId)) (fields.length+2 : Nat)
      (fields.map (given m)) =
      dispatchStrings m ((((some (slot appId) :: some appId :: fields).map (given m)).foldl
        (writeStringToParcel m) ((Parcel.empty.appendFrom p p.pos).writeInt32
          (fields.length+2 : Nat))).setDataPosition p.pos) := by
    simp only [dispatchRewritten,given,Option.map_some,List.map_cons]
    rw [given_slot converts List.mem_cons_self]
  rw [header] at calls
  rw [rewritten,copied,Parcel.writeInt32,Parcel.write_at_end rfl,writeStrings_whole,
    converted_back (with_slot converts),List.append_assoc]
  exact calls

end Rewriting

def slotText (appId : List UInt16) : List UInt8 := if appId = [] then [] else [0x30]

section Requests
variable {m : Platform}

theorem FieldsFit.of_subset {fields more : List Field} (fit : FieldsFit more)
    (subset : fields ⊆ more) : FieldsFit fields :=
  fun field member => fit field (subset member)

theorem Converts.of_subset {fields more : List Field} (converts : Converts m more)
    (subset : fields ⊆ more) : Converts m fields :=
  ⟨fun s member => converts.back s (subset member),converts.empty,converts.digit⟩

theorem given_slotText {fields : List Field} (converts : Converts m fields) (appId : List UInt16) :
    given m (some (slot appId)) = some (slotText appId) := by
  unfold given slot slotText
  split
  · rw [Option.map_some,converts.empty.1]
  · rw [Option.map_some,converts.digit.1]

theorem dispatched_rewritten {p : Parcel} {body : StateM Locals (List Call)} {bytes : List UInt8}
    {appId : List UInt16} {fields : List Field} {header after : List UInt8}
    (reads : Takes body bytes (dispatchRewritten m p (given m (some appId)) (fields.length+2 : Nat)
      (fields.map (given m))))
    (place : p = ⟨header ++ bytes ++ after,header.length⟩) (fit : FieldsFit (some appId :: fields))
    (converts : Converts m (some appId :: fields)) (short : fields.length+2 < 2^31)
    (stack : 4*(fields.length+2) ≤ m.stackRoom) :
    dispatched p body = [.onRequest (.strings (some (some (slotText appId) ::
      given m (some appId) :: fields.map (given m))) (4*(fields.length+2)))] := by
  have inside : p.pos ≤ p.data.length := by
    rw [place]
    simp only [List.length_append]
    omega
  have calls := dispatchRewritten_fields inside fit converts short stack
  rw [given_slotText converts] at calls
  have ran := (reads header after (.start p) place rfl).1
  exact ran.trans calls

theorem dispatchQueryFacility_fields {facility password serviceClass : Field} {appId : List UInt16}
    (fit : FieldsFit [facility,password,serviceClass,some appId])
    (converts : Converts m [facility,password,serviceClass,some appId])
    (stack : 4*5 ≤ m.stackRoom) (count : Int32) (header after : List UInt8) :
    dispatchQueryFacility m ⟨header ++ (Parcel.le32 count.toInt ++
        [facility,password,serviceClass,some appId].flatMap string16Bytes) ++ after,header.length⟩ =
      [.onRequest (.strings (some [some (slotText appId),given m (some appId),given m facility,
        given m password,given m serviceClass]) (4*5))] := by
  have ordered : [some appId,facility,password,serviceClass] ⊆
      [facility,password,serviceClass,some appId] := by
    intro field member
    simp only [List.mem_cons] at member ⊢
    tauto
  refine dispatched_rewritten ?_ rfl (fit.of_subset ordered) (converts.of_subset ordered) (by simp)
    stack
  apply takes_bind (takes_int count)
  apply takes_bind (takes_string m (fit _ (by simp)))
  apply takes_bind (takes_string m (fit _ (by simp)))
  apply takes_bind (takes_string m (fit _ (by simp)))
  apply takes_bind (takes_string m (fit _ (by simp)))
  exact takes_pure _

theorem dispatchSetFacility_fields {facility lockString password serviceClass : Field}
    {appId : List UInt16}
    (fit : FieldsFit [facility,lockString,password,serviceClass,some appId])
    (converts : Converts m [facility,lockString,password,serviceClass,some appId])
    (stack : 4*6 ≤ m.stackRoom) (count : Int32) (header after : List UInt8) :
    dispatchSetFacility m ⟨header ++ (Parcel.le32 count.toInt ++
        [facility,lockString,password,serviceClass,some appId].flatMap string16Bytes) ++ after,
        header.length⟩ =
      [.onRequest (.strings (some [some (slotText appId),given m (some appId),given m facility,
        given m lockString,given m password,given m serviceClass]) (4*6))] := by
  have ordered : [some appId,facility,lockString,password,serviceClass] ⊆
      [facility,lockString,password,serviceClass,some appId] := by
    intro field member
    simp only [List.mem_cons] at member ⊢
    tauto
  refine dispatched_rewritten ?_ rfl (fit.of_subset ordered) (converts.of_subset ordered) (by simp)
    stack
  apply takes_bind (takes_int count)
  apply takes_bind (takes_string m (fit _ (by simp)))
  apply takes_bind (takes_string m (fit _ (by simp)))
  apply takes_bind (takes_string m (fit _ (by simp)))
  apply takes_bind (takes_string m (fit _ (by simp)))
  apply takes_bind (takes_string m (fit _ (by simp)))
  exact takes_pure _

end Requests

def RIL_REQUEST_QUERY_FACILITY_LOCK : Int32 := 42
def RIL_REQUEST_SET_FACILITY_LOCK : Int32 := 43

section Records
variable (b : Build) (s : Ril) (socket_id : SocketId) (token : Int32)

def header (request token : Int32) : List UInt8 :=
  Parcel.le32 request.toInt ++ Parcel.le32 token.toInt

def record (request token count : Int32) (fields : List Field) (after : List UInt8) : List UInt8 :=
  header request token ++ (Parcel.le32 count.toInt ++ fields.flatMap string16Bytes) ++ after

-- The request is pending under its token, and the vendor was called once, with it
-- and with these strings.
def handed (pCI : CommandInfo) (strings : List CString) : Ril :=
  let pRI := newRequest s token.toInt pCI socket_id
  {enqueue s (socketHook b.simCount socket_id) pRI with
    calls := s.calls ++ [⟨pRI.addr,pCI.requestNumber,
      .strings (some strings) (4*strings.length),socket_id⟩]}

theorem readHeader_header (request : Int32) (rest : List UInt8) :
    readHeader (header request token ++ rest) =
      some (request.toInt,token.toInt,⟨header request token ++ rest,(header request token).length⟩) := by
  have first := Parcel.word_roundtrip (Int32.le_toInt request) (Int32.toInt_lt request) []
    (Parcel.le32 token.toInt ++ rest)
  have second := Parcel.word_roundtrip (Int32.le_toInt token) (Int32.toInt_lt token)
    (Parcel.le32 request.toInt) rest
  rw [List.nil_append,← List.append_assoc] at first
  have read : (Parcel.setData (header request token ++ rest)).readInt32 =
      some (request.toInt,⟨header request token ++ rest,(Parcel.le32 request.toInt).length⟩) := first
  unfold readHeader
  rw [read]
  simp only [header,second]

theorem processCommandBuffer_handed {request count : Int32} {fields : List Field}
    {after : List UInt8} {f : DispatchFunction} {pCI : CommandInfo} {strings : List CString}
    (row : lookupCommand request.toInt = some pCI) (function : pCI.dispatchFunction = some f)
    (writes : Writes) (state : RadioState)
    (calls : dispatch b.platform state ⟨record request token count fields after,
      (header request token).length⟩ f = [.onRequest (.strings (some strings) (4*strings.length))]) :
    processCommandBuffer b writes state s (record request token count fields after) socket_id =
      some (handed b s socket_id token pCI strings) := by
  have read := readHeader_header token request
    ((Parcel.le32 count.toInt ++ fields.flatMap string16Bytes) ++ after)
  rw [← List.append_assoc] at read
  change readHeader (record request token count fields after) = _ at read
  unfold processCommandBuffer
  rw [read]
  simp only [row,function]
  change runCalls b writes _ _ (dispatch b.platform state ⟨record request token count fields after,
    (header request token).length⟩ f) = _
  rw [calls]
  rfl

theorem facility_locks_translated (writes : Writes) (state : RadioState) (count : Int32)
    (after : List UInt8) (stack : 4*6 ≤ b.platform.stackRoom) :
    (∀ (facility password serviceClass : Field) (appId : List UInt16),
      FieldsFit [facility,password,serviceClass,some appId] →
      Converts b.platform [facility,password,serviceClass,some appId] →
      processCommandBuffer b writes state s (record RIL_REQUEST_QUERY_FACILITY_LOCK token count
          [facility,password,serviceClass,some appId] after) socket_id =
        some (handed b s socket_id token (command 42 .dispatchQueryFacility .responseInts)
          [some (slotText appId),given b.platform (some appId),given b.platform facility,
            given b.platform password,given b.platform serviceClass])) ∧
    (∀ (facility lockString password serviceClass : Field) (appId : List UInt16),
      FieldsFit [facility,lockString,password,serviceClass,some appId] →
      Converts b.platform [facility,lockString,password,serviceClass,some appId] →
      processCommandBuffer b writes state s (record RIL_REQUEST_SET_FACILITY_LOCK token count
          [facility,lockString,password,serviceClass,some appId] after) socket_id =
        some (handed b s socket_id token (command 43 .dispatchSetFacility .responseInts)
          [some (slotText appId),given b.platform (some appId),given b.platform facility,
            given b.platform lockString,given b.platform password,
            given b.platform serviceClass])) := by
  constructor
  · intro facility password serviceClass appId fit converts
    refine processCommandBuffer_handed b s socket_id token (by decide) rfl writes state ?_
    exact dispatchQueryFacility_fields fit converts (by omega) count _ after
  · intro facility lockString password serviceClass appId fit converts
    refine processCommandBuffer_handed b s socket_id token (by decide) rfl writes state ?_
    exact dispatchSetFacility_fields fit converts (by omega) count _ after

def queried : List Field := [some [0x53,0x43],none,some [0x37],some [0x61]]

theorem queried_converts : Converts (asciiBuild 1).platform queried := by
  refine ⟨?_,by decide,by decide⟩
  intro s member
  simp only [queried,List.mem_cons,Option.some.injEq,reduceCtorEq,List.not_mem_nil,or_false,
    false_or] at member
  rcases member with rfl | rfl | rfl <;> decide

theorem facility_locks_translated_query :
    processCommandBuffer (asciiBuild 1) (fun _ => true) .on .initial
        (record RIL_REQUEST_QUERY_FACILITY_LOCK 7 4 queried []) .socket1 =
      some (handed (asciiBuild 1) .initial .socket1 7
        (command 42 .dispatchQueryFacility .responseInts)
        [some [0x30],some [0x61],some [0x53,0x43],none,some [0x37]]) :=
  (facility_locks_translated (asciiBuild 1) .initial .socket1 7 (fun _ => true) .on 4 []
    (by decide)).1 (some [0x53,0x43]) none (some [0x37]) [0x61] (by decide) queried_converts

end Records

end SemcMsm7x30.Facilities

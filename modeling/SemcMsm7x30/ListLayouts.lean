import SemcMsm7x30.ReplyDecoding

namespace SemcMsm7x30.Responses

def CountsItself {Text : Type} (writeString : Option Text → List UInt8) (result : Marshalled)
    (strings : List (Option Text)) : Prop :=
  ∃ (count : Nat) (written : List (Option Text)),
    result = (writeSize count ++ written.flatMap writeString,0) ∧ count = written.length ∧
      written = strings

def fifthLeftOut {α : Type} (strings : List α) : List α :=
  (strings.zipIdx.filter fun entry => entry.2%5 ≠ 4).map Prod.fst

section Networks
variable {Text : Type} (writeString : Option Text → List UInt8)

theorem writeSize_inj {a b : Nat} (boundA : a < 2^31) (boundB : b < 2^31)
    (same : writeSize a = writeSize b) : a = b := by
  have equal := Parcel.le32_inj (by omega) (by omega) (by omega) (by omega) same
  omega

theorem kept_length (n : Nat) :
    ((List.range n).filter fun i => (i+1)%5 ≠ 0).length = n-n/5 := by
  induction n with
  | zero => rfl
  | succ n ih =>
    rw [List.range_succ,List.filter_append,List.length_append,ih,List.filter_singleton]
    by_cases fifth : (n+1)%5 = 0
    · simp [fifth]
      omega
    · simp [fifth]
      omega

theorem fifthLeftOut_range {α : Type} (item : Nat → α) (n : Nat) :
    fifthLeftOut ((List.range n).map item) =
      ((List.range n).filter fun i => (i+1)%5 ≠ 0).map item := by
  have test : (fun i : Nat => decide ((i+1)%5 ≠ 0)) = fun i => decide (i%5 ≠ 4) := by
    funext i
    rw [decide_eq_decide]
    omega
  rw [test]
  unfold fifthLeftOut
  induction n with
  | zero => rfl
  | succ n ih =>
    simp only [List.range_succ,List.map_append,List.zipIdx_append,List.filter_append,ih,
      List.length_map,List.length_range]
    congr 1
    by_cases fourth : n%5 = 4 <;> simp [fourth]

theorem responseAvailableNetworks_eq {response : Option (Memory Text)} {responselen : UInt32}
    {n : Nat} (length : responselen.toNat = 4*n) (pointer : response = none → n = 0) :
    responseAvailableNetworks writeString response responselen =
      (writeSize (n/5*4) ++
        (fifthLeftOut (records Memory.strings response n)).flatMap writeString,0) := by
  have whole : responselen.toNat%sizeofWord = 0 := by
    unfold sizeofWord
    omega
  have count : responselen.toNat/sizeofWord = n := by
    unfold sizeofWord
    omega
  unfold responseAvailableNetworks
  cases response with
  | none =>
    have zero := pointer rfl
    subst zero
    have empty : responselen = 0 := UInt32.toNat_inj.mp (length.trans rfl)
    rw [if_neg (by simp [empty]),if_neg (by simp [whole])]
    simp [records,fifthLeftOut]
  | some memory =>
    rw [if_neg (by simp),if_neg (by simp [whole])]
    simp only [count,records,fifthLeftOut_range,List.flatMap_map]

-- Four of five strings are counted, but the rest behind the last five is written
-- and not counted.
theorem networks_counted {response : Option (Memory Text)} {responselen : UInt32} {n : Nat}
    (length : responselen.toNat = 4*n) (pointer : response = none → n = 0) :
    CountsItself writeString (responseAvailableNetworks writeString response responselen)
      (fifthLeftOut (records Memory.strings response n)) ↔ n%5 = 0 := by
  have bound := responselen.toNat_lt
  have kept : (fifthLeftOut (records Memory.strings response n)).length = n-n/5 := by
    cases response with
    | none =>
      have zero := pointer rfl
      subst zero
      rfl
    | some memory =>
      rw [records,fifthLeftOut_range,List.length_map,kept_length]
  rw [responseAvailableNetworks_eq writeString length pointer]
  constructor
  · rintro ⟨count,written,same,rfl,rfl⟩
    have counts := List.append_cancel_right (Prod.mk.inj same).1
    have equal := writeSize_inj (by omega) (by omega) counts
    omega
  · intro multiple
    refine ⟨n/5*4,_,rfl,?_,rfl⟩
    rw [kept]
    omega

end Networks

theorem networks_counted_three :
    CountsItself asciiString (responseAvailableNetworks asciiString (some default) 60)
      (fifthLeftOut (records Memory.strings (some default) 15)) := by
  have length : (60 : UInt32).toNat = 4*15 := rfl
  exact (networks_counted asciiString length (by simp)).mpr rfl

theorem lone_string_uncounted :
    ¬ CountsItself asciiString (responseAvailableNetworks asciiString (some default) 4)
      (fifthLeftOut (records Memory.strings (some default) 1)) := by
  have written : responseAvailableNetworks asciiString (some default) 4 =
      (writeSize 0 ++ asciiString none,0) := rfl
  rintro ⟨count,strings,same,rfl,rfl⟩
  rw [written] at same
  exact absurd same (by decide)

inductive DataCallLayout where
  | v6 | v9 | v11
  deriving DecidableEq, Repr

namespace DataCallLayout

def size (layout : Layout) : DataCallLayout → Nat
  | v6 => layout.dataCallV6
  | v9 => layout.dataCallV9
  | v11 => layout.dataCallV11

def number : DataCallLayout → Int32
  | v6 => 6 | v9 => 10 | v11 => 11

def fields {Text : Type} (writeString : Option Text → List UInt8) (memory : Memory Text) (n : Nat) :
    DataCallLayout → List UInt8
  | v6 => ((List.range n).map memory.dataCallsV6).flatMap (writeDataCallV6 writeString)
  | v9 => ((List.range n).map memory.dataCallsV9).flatMap (writeDataCallV9 writeString)
  | v11 => ((List.range n).map memory.dataCallsV11).flatMap (writeDataCallV11 writeString)

-- The lists that are not also a whole number of shorter records.
def Recognised (n : Nat) : DataCallLayout → Prop
  | v6 => True
  | v9 => ¬ 9 ∣ n
  | v11 => ¬ 9 ∣ n ∧ ¬ 10 ∣ n

end DataCallLayout

-- 32-bit: nine, ten and eleven words.
structure WordSized (layout : Layout) : Prop where
  dataCallV6 : layout.dataCallV6 = 36
  dataCallV9 : layout.dataCallV9 = 40
  dataCallV11 : layout.dataCallV11 = 44

section DataCalls
variable {Text : Type} (writeString : Option Text → List UInt8) (memory : Memory Text)

theorem responseList_records {α : Type} {front : List UInt8} {size n : Nat}
    {p_cur : Memory Text → Nat → α} {write : α → List UInt8} {responselen : UInt32}
    (positive : 0 < size) (length : responselen.toNat = size*n) :
    responseList front size p_cur write (some memory) responselen =
      (front ++ writeSize n ++ ((List.range n).map (p_cur memory)).flatMap write,0) := by
  have whole : responselen.toNat%size = 0 := by
    rw [length,Nat.mul_mod_right]
  have count : responselen.toNat/size = n := by
    rw [length,Nat.mul_div_cancel_left n positive]
  unfold responseList
  rw [if_neg (by simp),if_neg (by simp [whole])]
  simp only [count,records]

theorem versions_differ {a b : Int32} (differ : a ≠ b) {x y : List UInt8} :
    writeInt32 a ++ x ≠ writeInt32 b ++ y := by
  intro same
  have bytes : writeInt32 a = writeInt32 b :=
    (List.append_inj same ((Parcel.le32_length _).trans (Parcel.le32_length _).symm)).1
  have equal := Parcel.le32_inj (Int32.le_toInt a) (Int32.toInt_lt a) (Int32.le_toInt b)
    (Int32.toInt_lt b) bytes
  exact differ (Int32.toInt_inj.mp equal)

theorem shorter_list {used : DataCallLayout} {other : Int32} (differ : other ≠ used.number) {n m : Nat}
    {rest : List UInt8} :
    ¬ ((writeInt32 other ++ writeSize m ++ rest,(0 : Int)) =
      (writeInt32 used.number ++ writeSize n ++ used.fields writeString memory n,0)) := by
  intro same
  have bytes := (Prod.mk.inj same).1
  rw [List.append_assoc,List.append_assoc] at bytes
  exact versions_differ differ bytes

theorem dataCalls_recognised {layout : Layout} (words : WordSized layout) {version : Int}
    (five : 5 ≤ version) (used : DataCallLayout) {n : Nat} {responselen : UInt32}
    (length : responselen.toNat = used.size layout*n) :
    responseDataCallList layout version writeString (some memory) responselen =
        (writeInt32 used.number ++ writeSize n ++ used.fields writeString memory n,0) ↔
      used.Recognised n := by
  have v6 : layout.dataCallV6 = 36 := words.dataCallV6
  have v9 : layout.dataCallV9 = 40 := words.dataCallV9
  have v11 : layout.dataCallV11 = 44 := words.dataCallV11
  unfold responseDataCallList
  rw [if_neg (by omega)]
  cases used with
  | v6 =>
    simp only [DataCallLayout.size] at length
    rw [if_pos (by rw [length,Nat.mul_mod_right])]
    refine iff_of_true ?_ trivial
    exact responseList_records memory (by omega) length
  | v9 =>
    simp only [DataCallLayout.size] at length
    by_cases nines : 9 ∣ n
    · obtain ⟨k,rfl⟩ := nines
      have also : responselen.toNat = layout.dataCallV6*(10*k) := by
        rw [length,v6,v9]
        omega
      rw [if_pos (by rw [also,Nat.mul_mod_right])]
      refine iff_of_false ?_ (fun recognised => recognised ⟨k,rfl⟩)
      unfold responseDataCallListV6
      rw [responseList_records memory (by omega) also]
      exact shorter_list writeString memory (by decide)
    · rw [if_neg (by rw [length,v6,v9]; omega),if_pos (by rw [length,Nat.mul_mod_right])]
      refine iff_of_true ?_ nines
      exact responseList_records memory (by omega) length
  | v11 =>
    simp only [DataCallLayout.size] at length
    by_cases nines : 9 ∣ n
    · obtain ⟨k,rfl⟩ := nines
      have also : responselen.toNat = layout.dataCallV6*(11*k) := by
        rw [length,v6,v11]
        omega
      rw [if_pos (by rw [also,Nat.mul_mod_right])]
      refine iff_of_false ?_ (fun recognised => recognised.1 ⟨k,rfl⟩)
      unfold responseDataCallListV6
      rw [responseList_records memory (by omega) also]
      exact shorter_list writeString memory (by decide)
    · rw [if_neg (by rw [length,v6,v11]; omega)]
      by_cases tens : 10 ∣ n
      · obtain ⟨k,rfl⟩ := tens
        have also : responselen.toNat = layout.dataCallV9*(11*k) := by
          rw [length,v9,v11]
          omega
        rw [if_pos (by rw [also,Nat.mul_mod_right])]
        refine iff_of_false ?_ (fun recognised => recognised.2 ⟨k,rfl⟩)
        unfold responseDataCallListV9
        rw [responseList_records memory (by omega) also]
        exact shorter_list writeString memory (by decide)
      · rw [if_neg (by rw [length,v9,v11]; omega)]
        refine iff_of_true ?_ ⟨nines,tens⟩
        exact responseList_records memory (by omega) length

end DataCalls

theorem words32_sized : WordSized words32 := ⟨rfl,rfl,rfl⟩

theorem dataCalls_recognised_eight :
    responseDataCallList words32 RIL_VERSION_V3 asciiString (some default) 352 =
      (writeInt32 DataCallLayout.v11.number ++ writeSize 8 ++
        DataCallLayout.v11.fields asciiString default 8,0) := by
  have length : (352 : UInt32).toNat = DataCallLayout.v11.size words32*8 := rfl
  exact (dataCalls_recognised asciiString default words32_sized (by decide) .v11
    length).mpr ⟨by decide,by decide⟩

theorem nine_calls_mistaken :
    responseDataCallList words32 RIL_VERSION_V3 asciiString (some default) 360 ≠
      (writeInt32 DataCallLayout.v9.number ++ writeSize 9 ++
        DataCallLayout.v9.fields asciiString default 9,0) := by
  have length : (360 : UInt32).toNat = words32.dataCallV6*10 := rfl
  have taken : responseDataCallList words32 RIL_VERSION_V3 asciiString (some default) 360 =
      responseList (writeInt32 6) words32.dataCallV6 Memory.dataCallsV6
        (writeDataCallV6 asciiString) (some default) 360 := rfl
  rw [taken,responseList_records default (by decide) length]
  exact shorter_list asciiString default (by decide)

end SemcMsm7x30.Responses

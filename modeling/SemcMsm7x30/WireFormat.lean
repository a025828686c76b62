import SemcMsm7x30.Parcel

namespace Parcel

abbrev Reader (α : Type) := StateT Parcel Option α

def Decodes {α : Type} (read : Reader α) (bytes : List UInt8) (value : α) : Prop :=
  ∀ before after, read ⟨before ++ bytes ++ after,before.length⟩ =
    some (value,⟨before ++ bytes ++ after,(before ++ bytes).length⟩)

structure Codec (α : Type) where
  write : α → List UInt8
  read : Reader α
  roundtrip : ∀ value, Decodes read (write value) value

section Rules
variable {α β : Type}

theorem decodes_pure (value : α) : Decodes (pure value) [] value := by
  intro before after
  simp [pure,StateT.pure]

theorem decodes_bind {read : Reader α} {next : α → Reader β} {bytes tail : List UInt8} {value : α}
    {result : β} (first : Decodes read bytes value) (rest : Decodes (next value) tail result) :
    Decodes (read >>= next) (bytes ++ tail) result := by
  intro before after
  have head := first before (tail ++ after)
  have last := rest (before ++ bytes) after
  simp only [List.append_assoc] at head last ⊢
  simp only [bind,StateT.bind,head,Option.bind_some]
  exact last

theorem decodes_map {read : Reader α} {make : α → β} {bytes : List UInt8} {value : α}
    (first : Decodes read bytes value) :
    Decodes (read >>= fun v => pure (make v)) bytes (make value) := by
  have both : Decodes (read >>= fun v => pure (make v)) (bytes ++ []) (make value) :=
    decodes_bind first (decodes_pure (make value))
  rwa [List.append_nil] at both

theorem Decodes.whole {read : Reader α} {bytes : List UInt8} {value : α}
    (decodes : Decodes read bytes value) :
    read (setData bytes) = some (value,⟨bytes,bytes.length⟩) := by
  have alone := decodes [] []
  simp only [List.nil_append,List.append_nil,List.length_nil] at alone
  exact alone

def readMany (read : Reader α) : Nat → Reader (List α)
  | 0 => pure []
  | count+1 => do
    let value ← read
    let values ← readMany read count
    pure (value :: values)

theorem decodes_many {γ : Type} {read : Reader α} {write : γ → List UInt8} {view : γ → α}
    {records : List γ} (each : ∀ record ∈ records, Decodes read (write record) (view record)) :
    Decodes (readMany read records.length) (records.flatMap write) (records.map view) := by
  induction records with
  | nil => exact decodes_pure []
  | cons record records ih =>
    have head := each record List.mem_cons_self
    have tail := ih fun other member => each other (List.mem_cons_of_mem record member)
    exact decodes_bind head (decodes_map tail)

end Rules

def readInt : Reader Int32 := do
  let value ← (readInt32 : Reader Int)
  pure (Int32.ofInt value)

theorem word_roundtrip {value : Int} (low : -2^31 ≤ value) (high : value < 2^31) :
    Decodes (readInt32 : Reader Int) (le32 value) value := by
  intro before after
  have room : 4 ≤ (⟨before ++ le32 value ++ after,before.length⟩ : Parcel).avail := by
    simp only [avail,List.length_append,le32_length]
    omega
  have found : (⟨before ++ le32 value ++ after,before.length⟩ : Parcel).int32At 0 = value :=
    int32At_le32 low high
  simp only [readInt32,if_pos room,found,skip,List.length_append,le32_length]

theorem int_roundtrip (value : Int32) : Decodes readInt (le32 value.toInt) value := by
  have both : Decodes readInt (le32 value.toInt) (Int32.ofInt value.toInt) :=
    decodes_map (word_roundtrip (Int32.le_toInt value) (Int32.toInt_lt value))
  rwa [Int32.ofInt_toInt] at both

theorem le32_inj {a b : Int} (lowA : -2^31 ≤ a) (highA : a < 2^31) (lowB : -2^31 ≤ b)
    (highB : b < 2^31) (same : le32 a = le32 b) : a = b := by
  have readA := @int32At_le32 [] [] a lowA highA
  have readB := @int32At_le32 [] [] b lowB highB
  rw [same,readB] at readA
  exact readA.symm

theorem block_roundtrip {bytes : List UInt8} (small : bytes.length ≤ INT32_MAX) :
    Decodes (fun p => p.readInplace bytes.length)
      (bytes ++ List.replicate (pad bytes.length-bytes.length) 0) bytes := by
  intro before after
  have wide : bytes.length ≤ pad bytes.length := by
    unfold pad
    omega
  have room : pad bytes.length ≤ (⟨before ++ (bytes ++ List.replicate
      (pad bytes.length-bytes.length) 0) ++ after,before.length⟩ : Parcel).avail := by
    simp only [avail,List.length_append,List.length_replicate]
    omega
  have taken : ((before ++ (bytes ++ List.replicate (pad bytes.length-bytes.length) 0) ++
      after).drop before.length).take bytes.length = bytes := by
    simp
  simp only [readInplace,small,room,and_self,if_true,taken,skip,List.length_append,
    List.length_replicate]
  congr 3
  omega

def counted {α : Type} (read : Reader α) : Reader (List α) := do
  let count ← readInt
  readMany read count.toInt.toNat

theorem counted_roundtrip {α γ : Type} {read : Reader α} {write : γ → List UInt8} {view : γ → α}
    {records : List γ} {count : Int32} (length : count.toInt.toNat = records.length)
    (each : ∀ record ∈ records, Decodes read (write record) (view record)) :
    Decodes (counted read) (le32 count.toInt ++ records.flatMap write) (records.map view) := by
  apply decodes_bind (int_roundtrip count)
  rw [length]
  exact decodes_many each

theorem unit_roundtrip (u : UInt16) : u.toUInt8.toUInt16+256*(u/256).toUInt8.toUInt16 = u := by
  apply UInt16.toNat_inj.mp
  have bound := u.toNat_lt
  simp only [UInt16.toNat_add,UInt16.toNat_mul,UInt8.toNat_toUInt16,UInt16.toNat_toUInt8,
    UInt16.toNat_div,UInt16.reduceToNat]
  omega

theorem units_bytesOf (s : List UInt16) (rest : List UInt8) :
    units (bytesOf s ++ rest) = s ++ units rest := by
  induction s with
  | nil => rfl
  | cons u s ih =>
    have head : units (bytesOf (u :: s) ++ rest) =
        (u.toUInt8.toUInt16+256*(u/256).toUInt8.toUInt16) :: units (bytesOf s ++ rest) := rfl
    rw [head,unit_roundtrip,ih]
    rfl

theorem bytesOf_length (s : List UInt16) : (bytesOf s).length = s.length*2 := by
  simp [bytesOf,List.length_flatMap]

def Fits (s : List UInt16) : Prop := (s.length+1)*2 ≤ INT32_MAX

instance (s : List UInt16) : Decidable (Fits s) := inferInstanceAs (Decidable (_ ≤ _))

def string16Bytes : Option (List UInt16) → List UInt8
  | none => le32 (-1)
  | some s =>
    let bytes := bytesOf s ++ [0,0]
    le32 s.length ++ (bytes ++ List.replicate (pad bytes.length-bytes.length) 0)

theorem writeString16_at_end {p : Parcel} (s : Option (List UInt16)) (atEnd : p.pos = p.data.length) :
    (p.writeString16 s).data = p.data ++ string16Bytes s := by
  cases s with
  | none => simp [writeString16,writeInt32,write_at_end atEnd,string16Bytes]
  | some s =>
    simp only [writeString16,writeInt32,writeInplace,write_at_end atEnd,string16Bytes]
    rw [write_at_end rfl]
    simp

def readString16 : Reader (Option (List UInt16)) := do
  let size ← readInt
  if size = -1 then pure none
  else
    let bytes ← (fun p => p.readInplace ((size.toInt.toNat+1)*2) : Reader (List UInt8))
    pure (some ((units bytes).take size.toInt.toNat))

theorem string16_roundtrip {s : Option (List UInt16)} (fits : ∀ text ∈ s, Fits text) :
    Decodes readString16 (string16Bytes s) s := by
  cases s with
  | none =>
    have flag : Decodes readString16 (le32 (-1) ++ []) none :=
      decodes_bind (int_roundtrip (-1)) (decodes_pure none)
    rwa [List.append_nil] at flag
  | some text =>
    have small : (text.length+1)*2 ≤ INT32_MAX := fits text rfl
    have count : (Int32.ofNat text.length).toInt = text.length := by
      apply Int32.toInt_ofNat_of_lt
      unfold INT32_MAX at small
      omega
    have length : (bytesOf text ++ [0,0]).length = (text.length+1)*2 := by
      simp only [List.length_append,bytesOf_length,List.length_cons,List.length_nil]
      omega
    have present : Int32.ofNat text.length ≠ -1 := by
      intro negative
      rw [negative] at count
      have : (-1 : Int32).toInt = -1 := by decide
      omega
    have block : Decodes (fun p => p.readInplace (bytesOf text ++ [0,0]).length) _
        (bytesOf text ++ [0,0]) := block_roundtrip (by rwa [length])
    rw [length] at block
    have whole : Decodes readString16 (string16Bytes (some text))
        (some ((units (bytesOf text ++ [0,0])).take text.length)) := by
      have header := int_roundtrip (Int32.ofNat text.length)
      rw [count] at header
      apply decodes_bind header
      rw [if_neg present,count,Int.toNat_natCast,length]
      exact decodes_map block
    rw [units_bytesOf,List.take_left] at whole
    exact whole

end Parcel

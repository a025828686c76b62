import Mathlib

-- The binder container requests and replies travel in, as far as the daemon
-- uses it: a byte string with one position for reading and writing.
structure Parcel where
  data : List UInt8
  pos : Nat
  deriving DecidableEq, Repr

namespace Parcel

def INT32_MAX : Nat := 2^31-1

def sizeT (n : Int) : Nat := (n % 2^32).toNat

def signed (n : Nat) : Int := if n < 2^31 then n else n-2^32

def avail (p : Parcel) : Nat := p.data.length-p.pos

def byteAt (p : Parcel) (offset : Nat) : Nat := (p.data.getD (p.pos+offset) 0).toNat

def wordAt (p : Parcel) (offset : Nat) : Nat :=
  p.byteAt offset+2^8*p.byteAt (offset+1)+2^16*p.byteAt (offset+2)+2^24*p.byteAt (offset+3)

def int32At (p : Parcel) (offset : Nat) : Int := signed (p.wordAt offset)

def skip (p : Parcel) (n : Nat) : Parcel := {p with pos := p.pos+n}

def pad (len : Nat) : Nat := (len+3)/4*4

def setData (bytes : List UInt8) : Parcel := ⟨bytes,0⟩

def setDataPosition (p : Parcel) (pos : Nat) : Parcel := {p with pos}

-- A read that does not fit leaves the position where it is.
def readInt32 (p : Parcel) : Option (Int × Parcel) :=
  if 4 ≤ p.avail then some (p.int32At 0,p.skip 4) else none

-- read(&ut,sizeof(ut)) of one byte takes a whole padded word.
def readByte (p : Parcel) : Option (Nat × Parcel) :=
  if 4 ≤ p.avail then some (p.byteAt 0,p.skip 4) else none

-- The overload without a status answers 0 where nothing can be read.
def readInt32Value (p : Parcel) : Int × Parcel := p.readInt32.getD (0,p)

def readInplace (p : Parcel) (len : Nat) : Option (List UInt8 × Parcel) :=
  if len ≤ INT32_MAX ∧ pad len ≤ p.avail then
    some ((p.data.drop p.pos).take len,p.skip (pad len))
  else none

def units : List UInt8 → List UInt16
  | low :: high :: rest => (low.toUInt16+256*high.toUInt16) :: units rest
  | _ => []

-- The string and its terminator have to fit; otherwise only the length is taken.
def readString16Inplace (p : Parcel) : Option (List UInt16) × Parcel :=
  let (size,p) := p.readInt32Value
  if 0 ≤ size ∧ size < INT32_MAX then
    match p.readInplace ((size.toNat+1)*2) with
    | some (bytes,p) => (some ((units bytes).take size.toNat),p)
    | none => (none,p)
  else (none,p)

def le32 (n : Int) : List UInt8 :=
  let word := sizeT n
  [.ofNat word,.ofNat (word/2^8),.ofNat (word/2^16),.ofNat (word/2^24)]

def le64 (n : Int) : List UInt8 := le32 (n%2^32) ++ le32 (n/2^32)

def write (p : Parcel) (bytes : List UInt8) : Parcel :=
  ⟨p.data.take p.pos ++ bytes ++ p.data.drop (p.pos+bytes.length),p.pos+bytes.length⟩

def writeInt32 (p : Parcel) (n : Int) : Parcel := p.write (le32 n)

def writeInt64 (p : Parcel) (n : Int) : Parcel := p.write (le64 n)

def bytesOf (s : List UInt16) : List UInt8 := s.flatMap fun u => [u.toUInt8,(u/256).toUInt8]

def writeInplace (p : Parcel) (bytes : List UInt8) : Parcel :=
  p.write (bytes ++ List.replicate (pad bytes.length-bytes.length) 0)

def writeString16 (p : Parcel) : Option (List UInt16) → Parcel
  | none => p.writeInt32 (-1)
  | some s => (p.writeInt32 s.length).writeInplace (bytesOf s ++ [0,0])

def appendFrom (p source : Parcel) (len : Nat) : Parcel := p.write (source.data.take len)

def empty : Parcel := ⟨[],0⟩

@[simp] theorem le32_length (n : Int) : (le32 n).length = 4 := rfl

@[simp] theorem le64_length (n : Int) : (le64 n).length = 8 := rfl

@[simp] theorem avail_skip (p : Parcel) (n : Nat) : (p.skip n).avail = p.avail-n := by
  simp only [avail,skip]
  omega

@[simp] theorem byteAt_skip (p : Parcel) (n offset : Nat) :
    (p.skip n).byteAt offset = p.byteAt (n+offset) := by
  simp only [byteAt,skip,Nat.add_assoc]

@[simp] theorem int32At_skip (p : Parcel) (n offset : Nat) :
    (p.skip n).int32At offset = p.int32At (n+offset) := by
  simp only [int32At,wordAt,byteAt_skip,Nat.add_assoc]

@[simp] theorem skip_skip (p : Parcel) (n m : Nat) : (p.skip n).skip m = p.skip (n+m) := by
  simp only [skip,Nat.add_assoc]

theorem write_at_end {p : Parcel} {bytes : List UInt8} (atEnd : p.pos = p.data.length) :
    p.write bytes = ⟨p.data ++ bytes,(p.data ++ bytes).length⟩ := by
  simp [write,atEnd]

theorem write_length_le (p : Parcel) (bytes : List UInt8) :
    p.data.length ≤ (p.write bytes).data.length := by
  simp only [write,List.length_append,List.length_take,List.length_drop]
  omega

theorem byte_of_word (n : Nat) : ((UInt8.ofNat n).toNat) = n%2^8 := by simp

theorem signed_sizeT {n : Int} (low : -2^31 ≤ n) (high : n < 2^31) : signed (sizeT n) = n := by
  unfold signed
  split
  · rename_i small
    unfold sizeT at small ⊢
    omega
  · rename_i large
    unfold sizeT at large ⊢
    omega

theorem int32At_le32 {before after : List UInt8} {n : Int} (low : -2^31 ≤ n) (high : n < 2^31) :
    (⟨before ++ le32 n ++ after,before.length⟩ : Parcel).int32At 0 = n := by
  have word : (⟨before ++ le32 n ++ after,before.length⟩ : Parcel).wordAt 0 = sizeT n := by
    have bound : sizeT n < 2^32 := by
      simp only [sizeT]
      omega
    have at0 : (before ++ le32 n ++ after).getD before.length 0 = .ofNat (sizeT n) := by
      simp [le32]
    have at1 : (before ++ le32 n ++ after).getD (before.length+1) 0 = .ofNat (sizeT n/2^8) := by
      simp [le32]
    have at2 : (before ++ le32 n ++ after).getD (before.length+2) 0 = .ofNat (sizeT n/2^16) := by
      simp [le32]
    have at3 : (before ++ le32 n ++ after).getD (before.length+3) 0 = .ofNat (sizeT n/2^24) := by
      simp [le32]
    simp only [wordAt,byteAt,Nat.zero_add,Nat.add_zero,at0,at1,at2,at3,byte_of_word]
    omega
  rw [int32At,word,signed_sizeT low high]

end Parcel

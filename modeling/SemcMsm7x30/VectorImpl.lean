import SemcMsm7x30.SharedBuffer

namespace SemcMsm7x30.Vectors
open RawMemory

structure VectorImpl where
  mStorage : Option Nat
  mCount : Nat
  deriving DecidableEq, Repr

def kMinVectorCapacity : Nat := 4

inductive Status where
  | value (n : Nat)
  | BAD_INDEX
  | BAD_VALUE
  | NO_MEMORY
  deriving DecidableEq, Repr

def safe_add (a b : Nat) : Run Nat := if a+b ≤ SIZE_MAX then .ok (a+b) else .error .fatal
def safe_mul (a b : Nat) : Run Nat := if a*b ≤ SIZE_MAX then .ok (a*b) else .error .fatal
def safe_sub (a b : Nat) : Run Nat := if b ≤ a then .ok (a-b) else .error .fatal

section Items
variable {α : Type} (t : ItemType α)

-- do_copy and memcpy leave the same items; for none the pointer may be NULL.
def _do_copy (h : Heap α) (dest destAt : Nat) (source : Option Nat) (sourceAt num : Nat) :
    Run (Heap α) :=
  match source with
  | none => if num = 0 then pure h else .error .fault
  | some sb => do
    let values ← readItems t h sb sourceAt num
    writeItems t h dest destAt values

def _do_destroy (h : Heap α) (sb start num : Nat) : Run (Heap α) :=
  if t.HAS_TRIVIAL_DTOR then pure h
  else writeItems t h sb start (slice (t.garbage sb) start num)

def _do_construct (h : Heap α) (sb start num : Nat) : Run (Heap α) :=
  if t.HAS_TRIVIAL_CTOR then pure h
  else writeItems t h sb start (List.replicate num t.constructed)

def _do_splat (h : Heap α) (sb start : Nat) (item : α) (num : Nat) : Run (Heap α) :=
  writeItems t h sb start (List.replicate num item)

def _do_move_forward (h : Heap α) (sb dest source num : Nat) : Run (Heap α) := do
  let span ← readItems t h sb source (dest-source+num)
  writeItems t h sb source (t.do_move_forward (dest-source) span)

def _do_move_backward (h : Heap α) (sb dest source num : Nat) : Run (Heap α) := do
  let span ← readItems t h sb dest (source-dest+num)
  writeItems t h sb dest (t.do_move_backward (source-dest) span)

end Items

section Methods
variable {α : Type} (t : ItemType α) (h : Heap α) (this : VectorImpl)

def capacity : Run Nat :=
  match this.mStorage with
  | none => pure 0
  | some sb => do
    let b ← deref h sb
    pure (b.mSize/t.mItemSize)

def itemLocation (index : Nat) : Run (Option Nat) := do
  let cap ← capacity t h this
  if index < cap then pure this.mStorage else pure none

def release_storage : Run (Heap α) :=
  match this.mStorage with
  | none => pure h
  | some sb => do
    let (prev,h) ← release h sb true
    if prev = 1 then
      let h ← _do_destroy t h sb 0 this.mCount
      dealloc h sb
    else pure h

def editArrayImpl : Run (Heap α × VectorImpl) :=
  match this.mStorage with
  | none => pure (h,this)
  | some sb => do
    let b ← deref h sb
    if b.onlyOwner then pure (h,this)
    else
      -- If we're here, we're not the only owner of the buffer.
      let (editable,h) ← alloc t h b.mSize
      let h ← _do_copy t h editable 0 this.mStorage 0 this.mCount
      let h ← release_storage t h this
      pure (h,{this with mStorage := some editable})

def editItemLocation (index : Nat) : Run (Heap α × VectorImpl × Option Nat) := do
  let cap ← capacity t h this
  if index < cap then
    let (h,this) ← editArrayImpl t h this
    pure (h,this,this.mStorage)
  else pure (h,this,none)

def copyUnlessNone (h : Heap α) (dest destAt : Nat) (source : Option Nat) (sourceAt num : Nat) :
    Run (Heap α) :=
  if num ≠ 0 then _do_copy t h dest destAt source sourceAt num else pure h

def copyAround (size place dest source num : Nat) : Run (Heap α × VectorImpl) := do
  let (sb,h) ← alloc t h size
  let h ← copyUnlessNone t h sb 0 this.mStorage 0 place
  let h ← copyUnlessNone t h sb dest this.mStorage source num
  let h ← release_storage t h this
  pure (h,{this with mStorage := some sb})

def resizeStorage (cur_sb size : Nat) : Run (Heap α × VectorImpl) := do
  let (sb,h) ← editResize t h cur_sb size
  pure (h,{this with mStorage := some sb})

def growCapacity (place amount new_size : Nat) : Run (Heap α × VectorImpl) := do
  let new_capacity ← safe_add new_size (new_size/2)
  let new_capacity ← safe_add new_capacity 1
  let new_capacity := max kMinVectorCapacity new_capacity
  let new_alloc_size ← safe_mul new_capacity t.mItemSize
  match this.mStorage with
  | some cur_sb =>
    if this.mCount = place ∧ t.HAS_TRIVIAL_COPY ∧ t.HAS_TRIVIAL_DTOR then
      resizeStorage t h this cur_sb new_alloc_size
    else copyAround t h this new_alloc_size place (place+amount) place (this.mCount-place)
  | none => copyAround t h this new_alloc_size place (place+amount) place (this.mCount-place)

def growInPlace (place amount : Nat) : Run (Heap α × VectorImpl) := do
  let (h,this) ← editArrayImpl t h this
  match this.mStorage with
  | some array =>
    if place ≠ this.mCount then
      let h ← _do_move_forward t h array (place+amount) place (this.mCount-place)
      pure (h,this)
    else pure (h,this)
  | none => pure (h,this)

def growStorage (cap place amount new_size : Nat) : Run (Heap α × VectorImpl) :=
  if cap < new_size then growCapacity t h this place amount new_size
  else growInPlace t h this place amount

def _grow (place amount : Nat) : Run (Heap α × VectorImpl × Option Nat) := do
  let new_size ← safe_add this.mCount amount
  let cap ← capacity t h this
  let (h,this) ← growStorage t h this cap place amount new_size
  let this := {this with mCount := new_size}
  let free_space ← itemLocation t h this place
  pure (h,this,free_space)

def shrinkCapacity (cur_sb place amount new_size : Nat) : Run (Heap α × VectorImpl) :=
  let new_capacity := max kMinVectorCapacity (new_size*2)
  let new_alloc_size := new_capacity*t.mItemSize%2^32
  if place = new_size ∧ t.HAS_TRIVIAL_COPY ∧ t.HAS_TRIVIAL_DTOR then
    resizeStorage t h this cur_sb new_alloc_size
  else copyAround t h this new_alloc_size place place (place+amount) (new_size-place)

def shrinkInPlace (place amount new_size : Nat) : Run (Heap α × VectorImpl) := do
  let (h,this) ← editArrayImpl t h this
  match this.mStorage with
  | some array =>
    let h ← _do_destroy t h array place amount
    if place ≠ new_size then
      let h ← _do_move_backward t h array place (place+amount) (new_size-place)
      pure (h,this)
    else pure (h,this)
  | none => pure (h,this)

def shrinkStorage (cap cur_sb place amount new_size : Nat) : Run (Heap α × VectorImpl) :=
  if new_size < cap/2 then shrinkCapacity t h this cur_sb place amount new_size
  else shrinkInPlace t h this place amount new_size

def _shrink (place amount : Nat) : Run (Heap α × VectorImpl) :=
  match this.mStorage with
  | none => pure (h,this)
  | some cur_sb => do
    let new_size ← safe_sub this.mCount amount
    let cap ← capacity t h this
    let (h,this) ← shrinkStorage t h this cap cur_sb place amount new_size
    pure (h,{this with mCount := new_size})

-- The frame insertArrayAt and insertAt share: `fill` puts the items into the slots.
def insertWith (index amount : Nat) (fill : Heap α → Nat → Run (Heap α)) :
    Run (Heap α × VectorImpl × Status) :=
  if this.mCount < index then pure (h,this,.BAD_INDEX)
  else do
    let (h,this,free_space) ← _grow t h this index amount
    match free_space with
    | none => pure (h,this,.NO_MEMORY)
    | some sb =>
      let h ← fill h sb
      pure (h,this,.value index)

def insertArrayAt (array : List α) (index : Nat) : Run (Heap α × VectorImpl × Status) :=
  insertWith t h this index array.length fun h sb => writeItems t h sb index array

def appendArray (array : List α) : Run (Heap α × VectorImpl × Status) :=
  insertArrayAt t h this array this.mCount

def splatOrConstruct (h : Heap α) (sb start : Nat) (item : Option α) (num : Nat) : Run (Heap α) :=
  match item with
  | some item => _do_splat t h sb start item num
  | none => _do_construct t h sb start num

-- `item` is none for the overload that constructs the items.
def insertAt (item : Option α) (index numItems : Nat) : Run (Heap α × VectorImpl × Status) :=
  insertWith t h this index numItems fun h sb => splatOrConstruct t h sb index item numItems

def replaceAt (prototype : Option α) (index : Nat) : Run (Heap α × VectorImpl × Status) :=
  if this.mCount ≤ index then pure (h,this,.BAD_INDEX)
  else do
    let (h,this,location) ← editItemLocation t h this index
    match location with
    -- `item != prototype` is false where both are NULL
    | none => pure (h,this,if prototype.isSome then .NO_MEMORY else .value index)
    | some sb =>
      let h ← _do_destroy t h sb index 1
      let h ← splatOrConstruct t h sb index prototype 1
      pure (h,this,.value index)

def removeItemsAt (index count : Nat) : Run (Heap α × VectorImpl × Status) :=
  if this.mCount < (index+count)%2^32 then pure (h,this,.BAD_VALUE)
  else do
    let (h,this) ← _shrink t h this index count
    pure (h,this,.value index)

def finish_vector : Run (Heap α × VectorImpl) := do
  let h ← release_storage t h this
  pure (h,⟨none,0⟩)

def clear : Run (Heap α × VectorImpl) := _shrink t h this 0 this.mCount

def setCapacity (new_capacity : Nat) : Run (Heap α × VectorImpl × Status) :=
  -- The capacity must always be greater than or equal to the size of this vector.
  if new_capacity ≤ this.mCount then do
    let cap ← capacity t h this
    pure (h,this,.value cap)
  else do
    let new_allocation_size ← safe_mul new_capacity t.mItemSize
    let (sb,h) ← alloc t h new_allocation_size
    let h ← _do_copy t h sb 0 this.mStorage 0 this.mCount
    let h ← release_storage t h this
    pure (h,{this with mStorage := some sb},.value new_capacity)

def resize (size : Nat) : Run (Heap α × VectorImpl × Status) := do
  if this.mCount < size then
    let (h,this,result) ← insertAt t h this none this.mCount (size-this.mCount)
    match result with
    | .value _ => pure (h,this,.value size)
    | error => pure (h,this,error)
  else if size < this.mCount then
    let (h,this,result) ← removeItemsAt t h this size (this.mCount-size)
    match result with
    | .value _ => pure (h,this,.value size)
    | error => pure (h,this,error)
  else pure (h,this,.value size)

def copied : Run (Heap α × VectorImpl) :=
  match this.mStorage with
  | none => pure (h,this)
  | some sb => do
    let h ← acquire h sb
    pure (h,this)

def assigned (rhs : VectorImpl) : Run (Heap α × VectorImpl) := do
  let h ← release_storage t h this
  if rhs.mCount ≠ 0 then
    match rhs.mStorage with
    | none => .error .fault
    | some sb =>
      let h ← acquire h sb
      pure (h,⟨rhs.mStorage,rhs.mCount⟩)
  else pure (h,⟨none,0⟩)

end Methods

end SemcMsm7x30.Vectors

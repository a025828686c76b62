import SemcMsm7x30.VectorImpl

namespace SemcMsm7x30.Vectors
open RawMemory

section Views
variable {α : Type}

def bytes (h : Heap α) (v : VectorImpl) : Nat :=
  ((v.mStorage.bind h.buffers).map SharedBuffer.mSize).getD 0

def items (h : Heap α) (v : VectorImpl) : List α :=
  ((v.mStorage.bind h.buffers).map fun b => slice b.data 0 v.mCount).getD []

structure Fit (t : ItemType α) (others : Nat → Nat) (h : Heap α) (v : VectorImpl) : Prop where
  counted : Counted h (plus others v.mStorage)
  bounded : v.mCount*t.mItemSize ≤ bytes h v
  small : bytes h v < 2^32

def Alone (others : Nat → Nat) (v : VectorImpl) : Prop := ∀ sb, v.mStorage = some sb → others sb = 0

variable {t : ItemType α} {others : Nat → Nat} {h next : Heap α} {v : VectorImpl}

theorem bytes_some {sb : Nat} {b : SharedBuffer α} (storage : v.mStorage = some sb)
    (found : h.buffers sb = some b) : bytes h v = b.mSize := by
  simp [bytes,storage,found]

theorem items_some {sb : Nat} {b : SharedBuffer α} (storage : v.mStorage = some sb)
    (found : h.buffers sb = some b) : items h v = slice b.data 0 v.mCount := by
  simp [items,storage,found]

theorem items_none (storage : v.mStorage = none) : items h v = [] := by
  simp [items,storage]

theorem Fit.found (fit : Fit t others h v) {sb : Nat} (storage : v.mStorage = some sb) :
    ∃ b, h.buffers sb = some b ∧ v.mCount*t.mItemSize ≤ b.mSize := by
  have counted := fit.counted
  rw [storage] at counted
  obtain ⟨b,found⟩ := counted.alive (by simp : 0 < plus others (some sb) sb)
  refine ⟨b,found,?_⟩
  rw [← bytes_some storage found]
  exact fit.bounded

theorem Fit.empty (fit : Fit t others h v) (storage : v.mStorage = none) : v.mCount = 0 := by
  have bound := fit.bounded
  have none : bytes h v = 0 := by simp [bytes,storage]
  rw [none] at bound
  have := t.positive
  by_contra some
  have := Nat.mul_pos (Nat.pos_of_ne_zero some) t.positive
  omega

theorem Fit.length (fit : Fit t others h v) : (items h v).length = v.mCount := by
  cases storage : v.mStorage with
  | none => rw [items_none storage,fit.empty storage,List.length_nil]
  | some sb =>
    obtain ⟨b,found,_⟩ := fit.found storage
    rw [items_some storage found,slice_length]

theorem Kept.view {pointer : Option Nat} (kept : Kept others h next)
    (counted : Counted h (plus others pointer))
    (owned : ∀ sb, v.mStorage = some sb → 0 < others sb) :
    items next v = items h v ∧ bytes next v = bytes h v := by
  cases storage : v.mStorage with
  | none => simp [items,bytes,storage]
  | some sb =>
    obtain ⟨b,found⟩ := counted.alive
      (lt_of_lt_of_le (owned sb storage) (le_plus others pointer sb))
    obtain ⟨later,there,size,data⟩ := kept sb b (owned sb storage) found
    rw [items_some storage found,items_some storage there,bytes_some storage found,
      bytes_some storage there,size,data]
    exact ⟨rfl,rfl⟩

end Views

section Primitives
variable {α : Type} {t : ItemType α} {others refs : Nat → Nat} {h next : Heap α} {v : VectorImpl}
  {sb : Nat} {b : SharedBuffer α}

theorem readItems_eq (found : h.buffers sb = some b) {start count : Nat}
    (within : (start+count)*t.mItemSize ≤ b.mSize) :
    readItems t h sb start count = .ok (slice b.data start count) := by
  simp only [readItems,deref_some found]
  exact if_pos within

theorem writeItems_eq (found : h.buffers sb = some b) {start : Nat} {values : List α}
    (within : (start+values.length)*t.mItemSize ≤ b.mSize) :
    writeItems t h sb start values =
      .ok (h.put sb {b with data := blit b.data start values}) := by
  simp only [writeItems,deref_some found]
  exact if_pos within

theorem do_move_forward_eq (found : h.buffers sb = some b) {source amount num : Nat}
    (within : (source+(amount+num))*t.mItemSize ≤ b.mSize) :
    _do_move_forward t h sb (source+amount) source num = .ok (h.put sb {b with
      data := blit b.data source (t.do_move_forward amount (slice b.data source (amount+num)))}) := by
  simp only [_do_move_forward,Nat.add_sub_cancel_left,readItems_eq found within,ok_bind]
  exact writeItems_eq found (by rwa [t.forward_length,slice_length])

theorem do_move_backward_eq (found : h.buffers sb = some b) {dest amount num : Nat}
    (within : (dest+(amount+num))*t.mItemSize ≤ b.mSize) :
    _do_move_backward t h sb dest (dest+amount) num = .ok (h.put sb {b with
      data := blit b.data dest (t.do_move_backward amount (slice b.data dest (amount+num)))}) := by
  simp only [_do_move_backward,Nat.add_sub_cancel_left,readItems_eq found within,ok_bind]
  exact writeItems_eq found (by rwa [t.backward_length,slice_length])

theorem put_self (found : h.buffers sb = some b) : h.put sb b = h := by
  have same : Function.update h.buffers sb (some b) = h.buffers := by
    rw [← found]
    exact Function.update_eq_self sb h.buffers
  unfold Heap.put
  rw [same]

theorem destroy_eq (t : ItemType α) (found : h.buffers sb = some b) {start num : Nat}
    (within : (start+num)*t.mItemSize ≤ b.mSize) :
    ∃ data, _do_destroy t h sb start num = .ok (h.put sb {b with data}) ∧
      ∀ i, i < start ∨ start+num ≤ i → data i = b.data i := by
  unfold _do_destroy
  split
  · refine ⟨b.data,?_,fun _ _ => rfl⟩
    rw [put_self found]
    rfl
  · refine ⟨_,writeItems_eq found (by rwa [slice_length]),?_⟩
    intro i outside
    unfold blit
    split
    · rw [List.getElem?_eq_none (by simp; omega),Option.getD_none]
    · rfl

theorem release_storage_safe (counted : Counted h (plus refs v.mStorage))
    (bounded : v.mCount*t.mItemSize ≤ bytes h v) :
    Safe (release_storage t h v) fun next => Counted next refs ∧ Kept refs h next := by
  unfold release_storage
  cases storage : v.mStorage with
  | none =>
    rw [storage,plus_none] at counted
    exact ⟨counted,kept_refl refs h⟩
  | some sb =>
    rw [storage] at counted
    obtain ⟨b,found⟩ := counted.alive (by simp : 0 < plus refs (some sb) sb)
    rw [bytes_some storage found] at bounded
    simp only [release,deref_some found,ok_bind]
    by_cases only : b.onlyOwner
    · have last := (onlyOwner_iff counted found).mp only
      obtain ⟨data,destroyed,_⟩ := destroy_eq t (put_get h sb {b with mRefs := 0})
        (by simpa using bounded : (0+v.mCount)*t.mItemSize ≤ _)
      rw [put_put] at destroyed
      have unused : deref (h.put sb {b with mRefs := 0,data}) sb = .ok {b with mRefs := 0,data} :=
        deref_some (put_get h sb _)
      have freed : (h.put sb {b with mRefs := 0,data}).free sb = h.free sb := by
        simp [Heap.free,Heap.put]
      rw [if_pos only]
      change Safe (_do_destroy t (h.put sb {b with mRefs := 0}) sb 0 v.mCount >>= (dealloc · sb)) _
      rw [destroyed]
      simp only [ok_bind,dealloc,unused]
      change Safe (.ok ((h.put sb {b with mRefs := 0,data}).free sb)) _
      rw [freed]
      exact ⟨free_counted counted last found,free_kept last⟩
    · have more : ¬b.mRefs = 1 := only
      rw [if_neg only]
      change Safe (if b.mRefs = 1 then _ else .ok (h.put sb {b with mRefs := b.mRefs-1})) _
      rw [if_neg more]
      exact ⟨leave_counted counted found only,put_same_kept found rfl rfl⟩

end Primitives

structure Became {α : Type} (t : ItemType α) (others : Nat → Nat) (h : Heap α) (l : List α)
    (next : Heap α) (v : VectorImpl) : Prop where
  fit : Fit t others next v
  kept : Kept others h next
  alone : Alone others v
  items : items next v = l

section Copies
variable {α : Type} {t : ItemType α} {others : Nat → Nat} {h : Heap α} {v : VectorImpl}

theorem Fit.unowned_next (fit : Fit t others h v) : others h.next = 0 := by
  have := fit.counted.unowned_next
  unfold plus at this
  omega

theorem copy_added_eq (fit : Fit t others h v) (data : Nat → α) {size destAt sourceAt num : Nat}
    (from' : sourceAt+num ≤ v.mCount) (into : (destAt+num)*t.mItemSize ≤ size) :
    _do_copy t (h.added ⟨1,size,data⟩) h.next destAt v.mStorage sourceAt num =
      .ok (h.added ⟨1,size,blit data destAt (((items h v).drop sourceAt).take num)⟩) := by
  cases storage : v.mStorage with
  | none =>
    have none : num = 0 := by
      have := fit.empty storage
      omega
    subst none
    simp only [_do_copy,if_true,List.take_zero,blit_nil]
    rfl
  | some sb =>
    obtain ⟨b,found,bounded⟩ := fit.found storage
    have older : sb ≠ h.next := (fit.counted.old sb b found).ne
    have present : (h.added ⟨1,size,data⟩).buffers sb = some b := (added_other older).trans found
    have inside : (sourceAt+num)*t.mItemSize ≤ b.mSize :=
      (Nat.mul_le_mul_right _ from').trans bounded
    have values : ((items h v).drop sourceAt).take num = slice b.data sourceAt num := by
      rw [items_some storage found,drop_slice _ (by omega),take_slice _ (by omega),Nat.zero_add]
    rw [values]
    simp only [_do_copy,readItems_eq present inside,ok_bind]
    apply (writeItems_eq (added_get h _) (by rwa [slice_length])).trans
    rw [added_put]

theorem relocate_safe (fit : Fit t others h v) (data : Nat → α) {size count : Nat}
    (room : count*t.mItemSize ≤ size) (small : size < 2^32) :
    Safe (release_storage t (h.added ⟨1,size,data⟩) v) fun next =>
      Became t others h (slice data 0 count) next ⟨some h.next,count⟩ ∧
        bytes next ⟨some h.next,count⟩ = size := by
  have both : Counted (h.added ⟨1,size,data⟩) (plus (plus others (some h.next)) v.mStorage) := by
    rw [plus_comm]
    exact added_counted fit.counted rfl
  have bounded : v.mCount*t.mItemSize ≤ bytes (h.added ⟨1,size,data⟩) v := by
    cases storage : v.mStorage with
    | none => simp [fit.empty storage]
    | some sb =>
      obtain ⟨b,found,inside⟩ := fit.found storage
      have older : sb ≠ h.next := (fit.counted.old sb b found).ne
      rwa [bytes_some storage ((added_other older).trans found)]
  apply (release_storage_safe both bounded).mono
  intro next left
  obtain ⟨later,there,same,copied⟩ := left.2 h.next _ (by simp) (added_get h _)
  have storage : (⟨some h.next,count⟩ : VectorImpl).mStorage = some h.next := rfl
  have whole : bytes next ⟨some h.next,count⟩ = size := (bytes_some storage there).trans same
  refine ⟨⟨⟨left.1,by rwa [whole],by rwa [whole]⟩,?_,?_,?_⟩,whole⟩
  · apply Kept.trans ((added_kept fit.counted).fewer (le_plus others v.mStorage))
    exact left.2.fewer (le_plus others (some h.next))
  · intro sb pointer
    cases pointer
    exact fit.unowned_next
  · rw [items_some storage there,copied]

theorem whole_copy_eq (fit : Fit t others h v) (data : Nat → α) {size : Nat}
    (room : v.mCount*t.mItemSize ≤ size) :
    _do_copy t (h.added ⟨1,size,data⟩) h.next 0 v.mStorage 0 v.mCount =
      .ok (h.added ⟨1,size,blit data 0 (items h v)⟩) := by
  have all : ((items h v).drop 0).take v.mCount = items h v := by
    rw [List.drop_zero,← fit.length,List.take_length]
  have copied := copy_added_eq fit data (Nat.zero_add v.mCount).le
    (by rwa [Nat.zero_add] : (0+v.mCount)*t.mItemSize ≤ size)
  rwa [all] at copied

theorem slice_whole (fit : Fit t others h v) (slots : Nat → α) :
    slice (blit slots 0 (items h v)) 0 v.mCount = items h v := by
  rw [← fit.length]
  exact slice_blit_same slots 0 (items h v)

theorem editArrayImpl_safe (fit : Fit t others h v) :
    Safe (editArrayImpl t h v) fun result =>
      Became t others h (items h v) result.1 result.2 ∧ result.2.mCount = v.mCount ∧
        bytes result.1 result.2 = bytes h v := by
  unfold editArrayImpl
  cases storage : v.mStorage with
  | none =>
    refine ⟨⟨fit,kept_refl others h,?_,rfl⟩,rfl,rfl⟩
    intro sb present
    cases storage.symm.trans present
  | some sb =>
    obtain ⟨b,found,bounded⟩ := fit.found storage
    have counted := fit.counted
    rw [storage] at counted
    simp only [deref_some found,ok_bind]
    apply safe_ite
    · intro only
      refine ⟨⟨fit,kept_refl others h,?_,rfl⟩,rfl,rfl⟩
      intro other same
      cases storage.symm.trans same
      exact (onlyOwner_iff counted found).mp only
    · intro _
      apply Safe.bind (alloc_safe t h b.mSize)
      rintro result ⟨rfl,small⟩
      have copy := whole_copy_eq fit (t.garbage h.next) bounded
      rw [storage] at copy
      simp only [copy,ok_bind]
      apply Safe.bind (relocate_safe fit _ bounded small)
      intro next moved
      rw [slice_whole fit] at moved
      exact ⟨moved.1,rfl,moved.2.trans (bytes_some storage found).symm⟩

theorem capacity_eq (fit : Fit t others h v) : capacity t h v = .ok (bytes h v/t.mItemSize) := by
  unfold capacity
  cases storage : v.mStorage with
  | none => simp [bytes,storage,pure,Except.pure]
  | some sb =>
    obtain ⟨b,found,_⟩ := fit.found storage
    simp only [deref_some found,ok_bind,bytes_some storage found]
    rfl

theorem safe_mul_safe (a b : Nat) : Safe (safe_mul a b) fun product => product = a*b :=
  safe_ite (fun _ => safe_ok rfl) fun _ => safe_fatal

theorem safe_add_safe (a b : Nat) : Safe (safe_add a b) fun sum => sum = a+b :=
  safe_ite (fun _ => safe_ok rfl) fun _ => safe_fatal

theorem setCapacity_safe (fit : Fit t others h v) (new_capacity : Nat) :
    Safe (setCapacity t h v new_capacity) fun result =>
      Fit t others result.1 result.2.1 ∧ Kept others h result.1 ∧
        items result.1 result.2.1 = items h v := by
  unfold setCapacity
  apply safe_ite
  · intro _
    simp only [capacity_eq fit,ok_bind]
    exact ⟨fit,kept_refl others h,rfl⟩
  · intro larger
    apply Safe.bind (safe_mul_safe new_capacity t.mItemSize)
    intro size product
    subst product
    have room : v.mCount*t.mItemSize ≤ new_capacity*t.mItemSize :=
      Nat.mul_le_mul_right _ (by omega)
    apply Safe.bind (alloc_safe t h _)
    rintro result ⟨rfl,small⟩
    simp only [whole_copy_eq fit (t.garbage h.next) room,ok_bind]
    apply Safe.bind (relocate_safe fit _ room small)
    intro next moved
    rw [slice_whole fit] at moved
    exact ⟨moved.1.fit,moved.1.kept,moved.1.items⟩

theorem copyUnlessNone_eq (fit : Fit t others h v) (data : Nat → α)
    {size destAt sourceAt num : Nat} (from' : sourceAt+num ≤ v.mCount)
    (into : (destAt+num)*t.mItemSize ≤ size) :
    copyUnlessNone t (h.added ⟨1,size,data⟩) h.next destAt v.mStorage sourceAt num =
      .ok (h.added ⟨1,size,blit data destAt (((items h v).drop sourceAt).take num)⟩) := by
  unfold copyUnlessNone
  split
  · exact copy_added_eq fit data from' into
  · rename_i none
    have none : num = 0 := by omega
    simp only [none,List.take_zero,blit_nil]
    rfl

theorem copyAround_safe (fit : Fit t others h v) {size place dest source num : Nat}
    (front : place ≤ v.mCount) (back : source+num ≤ v.mCount) (apart : place ≤ dest)
    (room : (dest+num)*t.mItemSize ≤ size) :
    Safe (copyAround t h v size place dest source num) fun result =>
      Became t others h ((items h v).take place ++ slice (t.garbage h.next) place (dest-place) ++
        ((items h v).drop source).take num) result.1 {result.2 with mCount := dest+num} := by
  unfold copyAround
  apply Safe.bind (alloc_safe t h size)
  rintro result ⟨rfl,small⟩
  have begin' : (0+place)*t.mItemSize ≤ size :=
    (Nat.mul_le_mul_right _ (by omega)).trans room
  simp only [copyUnlessNone_eq fit (t.garbage h.next) (by omega : 0+place ≤ v.mCount) begin',
    copyUnlessNone_eq fit _ back room,ok_bind]
  apply Safe.bind (relocate_safe fit _ room small)
  intro next moved
  have first : (((items h v).drop 0).take place).length = place := by
    rw [List.drop_zero,List.length_take,fit.length]
    omega
  have second : (((items h v).drop source).take num).length = num := by
    rw [List.length_take,List.length_drop,fit.length]
    omega
  have whole := slice_gap (t.garbage h.next) (((items h v).drop source).take num)
    (by rwa [first] : (((items h v).drop 0).take place).length ≤ dest)
  rw [first,second,List.drop_zero] at whole
  rw [List.drop_zero,whole] at moved
  exact moved.1

end Copies

section Growing
variable {α : Type} {t : ItemType α} {others : Nat → Nat} {h : Heap α} {v : VectorImpl}

theorem resizeStorage_safe (fit : Fit t others h v) {sb : Nat} (storage : v.mStorage = some sb)
    (size : Nat) {count : Nat} (room : count*t.mItemSize ≤ size) :
    Safe (resizeStorage t h v sb size) fun result =>
      ∃ l, Became t others h l result.1 {result.2 with mCount := count} ∧ l.length = count ∧
        ∀ kept, kept ≤ count → kept ≤ v.mCount → l.take kept = (items h v).take kept := by
  obtain ⟨b,found,bounded⟩ := fit.found storage
  have counted := fit.counted
  have small := fit.small
  rw [storage] at counted
  rw [bytes_some storage found] at small
  unfold resizeStorage
  apply Safe.bind (editResize_safe t counted found small size)
  rintro ⟨copy,next⟩ ⟨resized,kept⟩
  obtain ⟨later,there,whole,begins⟩ := resized.data
  have pointer : (⟨some copy,count⟩ : VectorImpl).mStorage = some copy := rfl
  have room' : bytes next ⟨some copy,count⟩ = size := (bytes_some pointer there).trans whole
  refine ⟨slice later.data 0 count,⟨⟨resized.counted,by rwa [room'],?_⟩,kept,?_,?_⟩,
    slice_length _ _ _,?_⟩
  · rw [room']
    exact resized.small
  · intro other same
    cases same
    exact resized.alone
  · exact items_some pointer there
  · intro some within own
    rw [take_slice _ within,items_some storage found,take_slice _ own]
    exact begins some ((Nat.mul_le_mul_right _ within).trans room)
      ((Nat.mul_le_mul_right _ own).trans bounded)

theorem Became.after {final : List α} {next last : Heap α} {w : VectorImpl}
    (kept : Kept others h next) (became : Became t others next final last w) :
    Became t others h final last w :=
  ⟨became.fit,kept.trans became.kept,became.alone,became.items⟩

theorem put_became (fit : Fit t others h v) (alone : Alone others v) {sb : Nat}
    (storage : v.mStorage = some sb) {b : SharedBuffer α} (found : h.buffers sb = some b)
    (data : Nat → α) {count : Nat} (room : count*t.mItemSize ≤ b.mSize) :
    Became t others h (slice data 0 count) (h.put sb {b with data}) {v with mCount := count} := by
  have pointer : ({v with mCount := count} : VectorImpl).mStorage = some sb := storage
  have present := put_get h sb {b with data}
  have small := fit.small
  rw [bytes_some storage found] at small
  constructor
  · constructor
    · exact put_counted fit.counted found rfl
    · rwa [bytes_some pointer present]
    · rwa [bytes_some pointer present]
  · exact put_kept (alone sb storage)
  · exact alone
  · exact items_some pointer present

def lifted (t : ItemType α) (amount : Nat) (rest : List α) : List α :=
  if amount = 0 then t.do_move_forward 0 rest else rest

theorem lifted_some {amount : Nat} (some : 0 < amount) (rest : List α) : lifted t amount rest = rest :=
  if_neg (by omega)

theorem lifted_nil (amount : Nat) : lifted t amount [] = [] := by
  unfold lifted
  split
  · exact List.eq_nil_of_length_eq_zero (t.forward_length 0 [])
  · rfl

def Opened (t : ItemType α) (others : Nat → Nat) (h : Heap α) (l : List α) (place amount : Nat)
    (next : Heap α) (v : VectorImpl) : Prop :=
  ∃ middle, middle.length = amount ∧
    Became t others h (l.take place ++ middle ++ lifted t amount (l.drop place)) next v

theorem copy_opened (fit : Fit t others h v) {place amount size : Nat} (within : place ≤ v.mCount)
    (some : 0 < amount) (room : (v.mCount+amount)*t.mItemSize ≤ size) :
    Safe (copyAround t h v size place (place+amount) place (v.mCount-place)) fun result =>
      Opened t others h (items h v) place amount result.1
        {result.2 with mCount := v.mCount+amount} := by
  have total : place+amount+(v.mCount-place) = v.mCount+amount := by omega
  have rest : ((items h v).drop place).take (v.mCount-place) = (items h v).drop place := by
    apply List.take_of_length_le
    rw [List.length_drop,fit.length]
  have wide : (place+amount+(v.mCount-place))*t.mItemSize ≤ size := by rwa [total]
  have copied := copyAround_safe fit within (by omega : place+(v.mCount-place) ≤ v.mCount)
    (by omega) wide
  rw [total,rest] at copied
  apply copied.mono
  intro result became
  unfold Opened
  rw [lifted_some some]
  exact ⟨_,by rw [slice_length,Nat.add_sub_cancel_left],became⟩

theorem growCapacity_safe (fit : Fit t others h v) {place amount : Nat} (some : 0 < amount)
    (within : place ≤ v.mCount) :
    Safe (growCapacity t h v place amount (v.mCount+amount)) fun result =>
      Opened t others h (items h v) place amount result.1
        {result.2 with mCount := v.mCount+amount} := by
  unfold growCapacity
  apply Safe.bind (safe_add_safe _ _)
  rintro half rfl
  apply Safe.bind (safe_add_safe _ _)
  rintro more rfl
  apply Safe.bind (safe_mul_safe _ _)
  rintro size rfl
  have room : (v.mCount+amount)*t.mItemSize ≤
      max kMinVectorCapacity (v.mCount+amount+(v.mCount+amount)/2+1)*t.mItemSize :=
    Nat.mul_le_mul_right _ (le_trans (by omega) (le_max_right _ _))
  cases storage : v.mStorage with
  | none =>
    have copied := copy_opened fit within some room
    exact copied
  | some sb =>
    apply safe_ite
    · rintro ⟨last,_⟩
      apply (resizeStorage_safe fit storage _ room).mono
      rintro result ⟨l,became,length,begins⟩
      have same := begins v.mCount (by omega) le_rfl
      have all : (items h v).take v.mCount = items h v := by
        rw [← fit.length,List.take_length]
      have none : (items h v).drop v.mCount = [] := by
        rw [← fit.length,List.drop_length]
      refine ⟨l.drop v.mCount,by rw [List.length_drop,length]; omega,?_⟩
      rw [← last,all,none,lifted_nil,List.append_nil,← all,← same,List.take_append_drop]
      exact became
    · intro _
      exact copy_opened fit within some room

theorem slice_moved_up (t : ItemType α) (data : Nat → α) (place amount num : Nat) :
    ∃ middle, middle.length = amount ∧
      slice (blit data place (t.do_move_forward amount (slice data place (amount+num)))) 0
          (place+(amount+num)) =
        slice data 0 place ++ middle ++ lifted t amount (slice data place num) := by
  have length := t.forward_length amount (slice data place (amount+num))
  rw [slice_length] at length
  have behind : (t.do_move_forward amount (slice data place (amount+num))).drop amount =
      lifted t amount (slice data place num) := by
    cases amount with
    | zero =>
      rw [Nat.zero_add]
      rfl
    | succ less =>
      rw [lifted_some less.succ_pos,t.moves_forward _ _ less.succ_pos,slice_length,
        Nat.add_sub_cancel_left,take_slice _ (by omega)]
  refine ⟨(t.do_move_forward amount (slice data place (amount+num))).take amount,?_,?_⟩
  · rw [List.length_take,length]
    omega
  · rw [slice_blit_front data place length.ge,List.take_of_length_le length.le,List.append_assoc,
      ← behind,List.take_append_drop]

theorem growInPlace_safe (fit : Fit t others h v) {place : Nat} (amount : Nat)
    (within : place ≤ v.mCount) (room : (v.mCount+amount)*t.mItemSize ≤ bytes h v) :
    Safe (growInPlace t h v place amount) fun result =>
      Opened t others h (items h v) place amount result.1
        {result.2 with mCount := v.mCount+amount} := by
  unfold growInPlace
  apply Safe.bind (editArrayImpl_safe fit)
  rintro ⟨next,w⟩ ⟨became,count,size⟩
  simp only at became count size ⊢
  cases storage : w.mStorage with
  | none =>
    have empty := became.fit.empty storage
    have nothing : bytes next w = 0 := by simp [bytes,storage]
    have none : v.mCount+amount = 0 := by
      by_contra some
      have := Nat.mul_pos (Nat.pos_of_ne_zero some) t.positive
      omega
    have same : ({w with mCount := v.mCount+amount} : VectorImpl) = w := by
      rw [none,← empty]
    have nothing' : (items h v).drop place = [] := by
      apply List.drop_eq_nil_of_le
      rw [fit.length]
      omega
    have all : (items h v).take place = items h v := by
      apply List.take_of_length_le
      rw [fit.length]
      omega
    refine ⟨[],by rw [List.length_nil]; omega,?_⟩
    rw [same,nothing',lifted_nil,all,List.append_nil,List.append_nil]
    exact became
  | some sb =>
    obtain ⟨b,found,_⟩ := became.fit.found storage
    rw [bytes_some storage found] at size
    have wide : (v.mCount+amount)*t.mItemSize ≤ b.mSize := by rwa [size]
    have old : items h v = slice b.data 0 v.mCount := by
      rw [← became.items,items_some storage found,count]
    simp only [count]
    by_cases last : place = v.mCount
    · have kept := put_became became.fit became.alone storage found b.data wide
      rw [put_self found] at kept
      simp only [last,ne_eq,not_true_eq_false,if_false]
      refine ⟨slice b.data v.mCount amount,slice_length _ _ _,?_⟩
      have whole : (items h v).take v.mCount ++ slice b.data v.mCount amount ++
          lifted t amount ((items h v).drop v.mCount) = slice b.data 0 (v.mCount+amount) := by
        rw [old,take_slice _ le_rfl,drop_slice _ le_rfl,Nat.sub_self,slice_zero,lifted_nil,
          List.append_nil,slice_append,Nat.zero_add]
      rw [whole]
      exact kept.after became.kept
    · have total : place+(amount+(v.mCount-place)) = v.mCount+amount := by omega
      have inside : (place+(amount+(v.mCount-place)))*t.mItemSize ≤ b.mSize := by rwa [total]
      simp only [last,ne_eq,not_false_eq_true,if_true,do_move_forward_eq found inside,ok_bind]
      obtain ⟨middle,length,moved⟩ := slice_moved_up t b.data place amount (v.mCount-place)
      have kept := put_became became.fit became.alone storage found
        (blit b.data place (t.do_move_forward amount (slice b.data place (amount+(v.mCount-place)))))
        wide
      rw [← total,moved] at kept
      unfold Opened
      rw [old,take_slice _ within,drop_slice _ within,Nat.zero_add,← total]
      exact ⟨middle,length,kept.after became.kept⟩

theorem itemLocation_eq (fit : Fit t others h v) (index : Nat) :
    itemLocation t h v index =
      .ok (if index < bytes h v/t.mItemSize then v.mStorage else none) := by
  simp only [itemLocation,capacity_eq fit,ok_bind]
  split <;> rfl

theorem grow_safe (fit : Fit t others h v) {place : Nat} (amount : Nat) (within : place ≤ v.mCount) :
    Safe (_grow t h v place amount) fun result =>
      Opened t others h (items h v) place amount result.1 result.2.1 ∧
        result.2.1.mCount = v.mCount+amount ∧
        (result.2.2 = none ∧ amount = 0 ∨ ∃ sb, result.2.2 = some sb ∧
          result.2.1.mStorage = some sb) := by
  unfold _grow
  apply Safe.bind (safe_add_safe _ _)
  rintro new_size rfl
  simp only [capacity_eq fit,ok_bind]
  have stored : Safe (growStorage t h v (bytes h v/t.mItemSize) place amount (v.mCount+amount))
      fun result => Opened t others h (items h v) place amount result.1
        {result.2 with mCount := v.mCount+amount} := by
    unfold growStorage
    apply safe_ite
    · intro _
      have some : 0 < amount := by
        have := (Nat.le_div_iff_mul_le t.positive).mpr fit.bounded
        omega
      exact growCapacity_safe fit some within
    · intro enough
      apply growInPlace_safe fit amount within
      exact (Nat.le_div_iff_mul_le t.positive).mp (by omega)
  apply Safe.bind stored
  rintro ⟨next,w⟩ opened
  simp only at opened ⊢
  have fit' : Fit t others next {w with mCount := v.mCount+amount} := by
    obtain ⟨_,_,became⟩ := opened
    exact became.fit
  simp only [itemLocation_eq fit',ok_bind]
  refine safe_ok ⟨opened,rfl,?_⟩
  simp only
  split
  · cases storage : w.mStorage with
    | some sb => exact Or.inr ⟨sb,rfl,rfl⟩
    | none =>
      have empty := fit'.empty storage
      simp only at empty
      exact Or.inl ⟨rfl,by omega⟩
  · rename_i outside
    have bounded := (Nat.le_div_iff_mul_le t.positive).mpr fit'.bounded
    simp only at bounded
    exact Or.inl ⟨rfl,by omega⟩

end Growing

section Shrinking
variable {α : Type} {t : ItemType α} {others : Nat → Nat} {h : Heap α} {v : VectorImpl}

-- The product wraps around only where no item is left to keep.
theorem shrunk_room (fit : Fit t others h v) {new_size : Nat}
    (little : new_size < bytes h v/t.mItemSize/2) :
    new_size*t.mItemSize ≤ max kMinVectorCapacity (new_size*2)*t.mItemSize%2^32 := by
  cases new_size with
  | zero => simp
  | succ less =>
    have capacity : max kMinVectorCapacity ((less+1)*2) ≤ bytes h v/t.mItemSize := by
      unfold kMinVectorCapacity
      omega
    have room := (Nat.le_div_iff_mul_le t.positive).mp capacity
    rw [Nat.mod_eq_of_lt (lt_of_le_of_lt room fit.small)]
    apply Nat.mul_le_mul_right
    omega

theorem shrinkCapacity_safe (fit : Fit t others h v) {sb : Nat} (storage : v.mStorage = some sb)
    {place amount : Nat} (within : place+amount ≤ v.mCount)
    (little : v.mCount-amount < bytes h v/t.mItemSize/2) :
    Safe (shrinkCapacity t h v sb place amount (v.mCount-amount)) fun result =>
      Became t others h ((items h v).take place ++ (items h v).drop (place+amount)) result.1
        {result.2 with mCount := v.mCount-amount} := by
  have room := shrunk_room fit little
  unfold shrinkCapacity
  apply safe_ite
  · rintro ⟨last,_⟩
    apply (resizeStorage_safe fit storage _ room).mono
    rintro result ⟨l,became,length,begins⟩
    have same := begins place (by omega) (by omega)
    have none : (items h v).drop (place+amount) = [] := by
      apply List.drop_eq_nil_of_le
      rw [fit.length]
      omega
    rw [none,List.append_nil,← same,List.take_of_length_le (by omega)]
    exact became
  · intro _
    have total : place+(v.mCount-amount-place) = v.mCount-amount := by omega
    have wide : (place+(v.mCount-amount-place))*t.mItemSize ≤
        max kMinVectorCapacity ((v.mCount-amount)*2)*t.mItemSize%2^32 := by rwa [total]
    have rest : ((items h v).drop (place+amount)).take (v.mCount-amount-place) =
        (items h v).drop (place+amount) := by
      apply List.take_of_length_le
      rw [List.length_drop,fit.length]
      omega
    have copied := copyAround_safe fit (by omega : place ≤ v.mCount)
      (by omega : place+amount+(v.mCount-amount-place) ≤ v.mCount) le_rfl wide
    rwa [total,rest,Nat.sub_self,slice_zero,List.append_nil] at copied

def lowered (t : ItemType α) (amount : Nat) (rest : List α) : List α :=
  if amount = 0 then t.do_move_backward 0 rest else rest

theorem lowered_nil (amount : Nat) : lowered t amount [] = [] := by
  unfold lowered
  split
  · exact List.eq_nil_of_length_eq_zero (t.backward_length 0 [])
  · rfl

theorem slice_moved_down (t : ItemType α) (data : Nat → α) (place amount num : Nat) :
    slice (blit data place (t.do_move_backward amount (slice data place (amount+num)))) 0
        (place+num) =
      slice data 0 place ++ lowered t amount (slice data (place+amount) num) := by
  have length := t.backward_length amount (slice data place (amount+num))
  rw [slice_length] at length
  rw [slice_blit_front data place (by omega)]
  congr 1
  cases amount with
  | zero =>
    rw [Nat.zero_add] at length ⊢
    exact List.take_of_length_le length.le
  | succ less =>
    have moved := t.moves_backward (less+1) (slice data place (less+1+num)) less.succ_pos
    rw [slice_length,Nat.add_sub_cancel_left,drop_slice _ (by omega),Nat.add_sub_cancel_left] at moved
    exact moved

theorem shrinkInPlace_safe (fit : Fit t others h v) {place amount : Nat}
    (within : place+amount ≤ v.mCount) :
    Safe (shrinkInPlace t h v place amount (v.mCount-amount)) fun result =>
      Became t others h ((items h v).take place ++ lowered t amount ((items h v).drop (place+amount)))
        result.1 {result.2 with mCount := v.mCount-amount} := by
  unfold shrinkInPlace
  apply Safe.bind (editArrayImpl_safe fit)
  rintro ⟨next,w⟩ ⟨became,count,_⟩
  simp only at became count ⊢
  cases storage : w.mStorage with
  | none =>
    have empty := became.fit.empty storage
    have none : v.mCount-amount = w.mCount := by omega
    have nothing : items h v = [] := List.eq_nil_of_length_eq_zero (by rw [fit.length]; omega)
    rw [nothing,none,List.take_nil,List.drop_nil,lowered_nil,List.append_nil,← nothing]
    exact became
  | some sb =>
    obtain ⟨b,found,wide⟩ := became.fit.found storage
    rw [count] at wide
    have old : items h v = slice b.data 0 v.mCount := by
      rw [← became.items,items_some storage found,count]
    obtain ⟨data,destroyed,outside⟩ := destroy_eq t found
      ((Nat.mul_le_mul_right _ within).trans wide)
    have front : slice data 0 place = slice b.data 0 place :=
      slice_congr fun i _ below => outside i (by omega)
    have back : slice data (place+amount) (v.mCount-amount-place) =
        slice b.data (place+amount) (v.mCount-amount-place) :=
      slice_congr fun i above _ => outside i (by omega)
    have room : (v.mCount-amount)*t.mItemSize ≤ b.mSize :=
      (Nat.mul_le_mul_right _ (by omega)).trans wide
    have target : (items h v).take place ++ lowered t amount ((items h v).drop (place+amount)) =
        slice data 0 place ++ lowered t amount (slice data (place+amount) (v.mCount-amount-place)) := by
      rw [front,back,old,take_slice _ (by omega),drop_slice _ within,Nat.zero_add]
      congr 3
      omega
    rw [target]
    simp only [destroyed,ok_bind]
    by_cases last : place = v.mCount-amount
    · have kept := put_became became.fit became.alone storage found data room
      simp only [last,ne_eq,not_true_eq_false,if_false,Nat.sub_self,slice_zero,lowered_nil,
        List.append_nil]
      rw [← last] at kept ⊢
      exact kept.after became.kept
    · have total : place+(v.mCount-amount-place) = v.mCount-amount := by omega
      have inside : (place+(amount+(v.mCount-amount-place)))*t.mItemSize ≤ b.mSize :=
        (Nat.mul_le_mul_right _ (by omega)).trans wide
      have moved := do_move_backward_eq (put_get next sb {b with data}) inside
      simp only [last,ne_eq,not_false_eq_true,if_true,moved,ok_bind,put_put]
      have kept := put_became became.fit became.alone storage found
        (blit data place (t.do_move_backward amount
          (slice data place (amount+(v.mCount-amount-place))))) room
      have down := slice_moved_down t data place amount (v.mCount-amount-place)
      rw [total] at down
      rw [down] at kept
      exact kept.after became.kept

def Roomy (t : ItemType α) (h : Heap α) (v : VectorImpl) (new_size : Nat) : Prop :=
  new_size < bytes h v/t.mItemSize/2

instance (t : ItemType α) (h : Heap α) (v : VectorImpl) (new_size : Nat) :
    Decidable (Roomy t h v new_size) := inferInstanceAs (Decidable (_ < _))

def remaining (t : ItemType α) (h : Heap α) (v : VectorImpl) (amount : Nat) (rest : List α) : List α :=
  if Roomy t h v (v.mCount-amount) then rest else lowered t amount rest

theorem remaining_nil (h : Heap α) (v : VectorImpl) (amount : Nat) :
    remaining t h v amount [] = [] := by
  rw [remaining,lowered_nil,ite_self]

theorem shrink_safe (fit : Fit t others h v) {place amount : Nat} (within : place+amount ≤ v.mCount) :
    Safe (_shrink t h v place amount) fun result =>
      Fit t others result.1 result.2 ∧ Kept others h result.1 ∧
        items result.1 result.2 =
          (items h v).take place ++ remaining t h v amount ((items h v).drop (place+amount)) := by
  unfold _shrink
  cases storage : v.mStorage with
  | none =>
    refine ⟨fit,kept_refl others h,?_⟩
    rw [items_none storage,List.take_nil,List.drop_nil,remaining_nil,List.append_nil]
  | some sb =>
    have subtracted : safe_sub v.mCount amount = .ok (v.mCount-amount) := if_pos (by omega)
    simp only [subtracted,capacity_eq fit,ok_bind]
    have stored : Safe (shrinkStorage t h v (bytes h v/t.mItemSize) sb place amount (v.mCount-amount))
        fun result => Became t others h
          ((items h v).take place ++ remaining t h v amount ((items h v).drop (place+amount)))
          result.1 {result.2 with mCount := v.mCount-amount} := by
      unfold shrinkStorage
      apply safe_ite
      · intro little
        rw [remaining,if_pos (show Roomy t h v _ from little)]
        exact shrinkCapacity_safe fit storage within little
      · intro much
        rw [remaining,if_neg (show ¬Roomy t h v _ from much)]
        exact shrinkInPlace_safe fit within
    apply Safe.bind stored
    intro result became
    exact ⟨became.fit,became.kept,became.items⟩

end Shrinking

end SemcMsm7x30.Vectors

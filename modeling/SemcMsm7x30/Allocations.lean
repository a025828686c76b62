import SemcMsm7x30.VectorLists

namespace SemcMsm7x30.Vectors
open RawMemory PartialMachine

def Allocatable (size : Nat) : Prop := size < SIZE_MAX-sizeofSharedBuffer

def Granted {α : Type} (h : Heap α) : Prop := ∀ sb b, h.buffers sb = some b → Allocatable b.mSize

section Blocks
variable {α : Type} {t : ItemType α} {h : Heap α} {v : VectorImpl} {sb : Nat} {b : SharedBuffer α}

theorem put_granted (granted : Granted h) (accepted : Allocatable b.mSize) : Granted (h.put sb b) := by
  intro other buffer present
  by_cases same : other = sb
  · subst same
    rw [put_get] at present
    cases present
    exact accepted
  · rw [put_other same] at present
    exact granted other buffer present

theorem added_granted (granted : Granted h) (accepted : Allocatable b.mSize) : Granted (h.added b) := by
  intro other buffer present
  by_cases same : other = h.next
  · subst same
    rw [added_get] at present
    cases present
    exact accepted
  · rw [added_other same] at present
    exact granted other buffer present

theorem free_granted (granted : Granted h) (sb : Nat) : Granted (h.free sb) := by
  intro other buffer present
  by_cases same : other = sb
  · subst same
    simp [Heap.free] at present
  · rw [free_other same] at present
    exact granted other buffer present

theorem deref_yields : Yields (deref h sb) fun b => h.buffers sb = some b := by
  unfold deref
  split
  · exact yields_error
  · rename_i b found
    exact yields_ok found

theorem alloc_granted (granted : Granted h) (size : Nat) :
    Yields (alloc t h size) fun result => Granted result.2 := by
  unfold alloc
  apply yields_ite
  · exact fun _ => yields_error
  · exact fun small => yields_ok (added_granted granted (by unfold Allocatable; simp only; omega))

theorem dealloc_granted (granted : Granted h) (sb : Nat) : Yields (dealloc h sb) Granted := by
  unfold dealloc
  apply deref_yields.bind
  intro b _
  apply yields_ite
  · exact fun _ => yields_ok granted
  · exact fun _ => yields_ok (free_granted granted sb)

theorem acquire_granted (granted : Granted h) (sb : Nat) : Yields (acquire h sb) Granted := by
  unfold acquire
  apply deref_yields.bind
  intro b found
  exact yields_ok (put_granted granted (granted sb b found))

theorem release_granted (granted : Granted h) (sb : Nat) (eKeepStorage : Bool) :
    Yields (release h sb eKeepStorage) fun result => Granted result.2 := by
  unfold release
  apply deref_yields.bind
  intro b found
  have accepted := granted sb b found
  apply yields_ite
  · intro _
    apply yields_ite
    · exact fun _ => yields_ok (put_granted granted accepted)
    · exact fun _ => yields_ok (free_granted granted sb)
  · exact fun _ => yields_ok (put_granted granted accepted)

theorem editResize_granted (granted : Granted h) (sb newSize : Nat) :
    Yields (editResize t h sb newSize) fun result => Granted result.2 := by
  unfold editResize
  apply deref_yields.bind
  intro b found
  apply yields_ite
  · intro _
    apply yields_ite
    · exact fun _ => yields_ok granted
    · intro _
      apply yields_ite
      · exact fun _ => yields_error
      · exact fun small => yields_ok (put_granted granted (by unfold Allocatable; simp only; omega))
  · intro _
    unfold alloc
    by_cases large : SIZE_MAX-sizeofSharedBuffer ≤ newSize
    · rw [if_pos large]
      exact yields_error
    · rw [if_neg large]
      have accepted : Allocatable newSize := by
        unfold Allocatable
        omega
      simp only [ok_bind]
      apply (release_granted (put_granted (added_granted granted accepted) accepted) sb false).bind
      rintro ⟨_,next⟩ granted'
      exact yields_ok granted'

theorem writeItems_granted (granted : Granted h) (sb start : Nat) (values : List α) :
    Yields (writeItems t h sb start values) Granted := by
  unfold writeItems
  apply deref_yields.bind
  intro b found
  apply yields_ite
  · exact fun _ => yields_ok (put_granted granted (granted sb b found))
  · exact fun _ => yields_error

theorem do_copy_granted (granted : Granted h) (dest destAt : Nat) (source : Option Nat)
    (sourceAt num : Nat) : Yields (_do_copy t h dest destAt source sourceAt num) Granted := by
  unfold _do_copy
  split
  · apply yields_ite
    · exact fun _ => yields_ok granted
    · exact fun _ => yields_error
  · apply yields_self.bind
    intro values _
    exact writeItems_granted granted dest destAt values

theorem do_destroy_granted (granted : Granted h) (sb start num : Nat) :
    Yields (_do_destroy t h sb start num) Granted := by
  unfold _do_destroy
  apply yields_ite
  · exact fun _ => yields_ok granted
  · exact fun _ => writeItems_granted granted sb start _

theorem do_move_forward_granted (granted : Granted h) (sb dest source num : Nat) :
    Yields (_do_move_forward t h sb dest source num) Granted := by
  apply yields_self.bind
  intro span _
  exact writeItems_granted granted sb source _

theorem do_move_backward_granted (granted : Granted h) (sb dest source num : Nat) :
    Yields (_do_move_backward t h sb dest source num) Granted := by
  apply yields_self.bind
  intro span _
  exact writeItems_granted granted sb dest _

theorem splatOrConstruct_granted (granted : Granted h) (sb start : Nat) (item : Option α) (num : Nat) :
    Yields (splatOrConstruct t h sb start item num) Granted := by
  cases item with
  | some value => exact writeItems_granted granted sb start _
  | none =>
    show Yields (_do_construct t h sb start num) Granted
    unfold _do_construct
    apply yields_ite
    · exact fun _ => yields_ok granted
    · exact fun _ => writeItems_granted granted sb start _

theorem release_storage_granted (granted : Granted h) : Yields (release_storage t h v) Granted := by
  unfold release_storage
  split
  · exact yields_ok granted
  · rename_i sb _
    apply (release_granted granted sb true).bind
    rintro ⟨prev,next⟩ granted'
    apply yields_ite
    · intro _
      apply (do_destroy_granted granted' sb 0 v.mCount).bind
      intro last granted''
      exact dealloc_granted granted'' sb
    · exact fun _ => yields_ok granted'

end Blocks

section Operations
variable {α : Type} {t : ItemType α} {h : Heap α} {v : VectorImpl}

theorem editArrayImpl_granted (granted : Granted h) :
    Yields (editArrayImpl t h v) fun result => Granted result.1 := by
  unfold editArrayImpl
  split
  · exact yields_ok granted
  · apply deref_yields.bind
    intro b _
    apply yields_ite
    · exact fun _ => yields_ok granted
    · intro _
      apply (alloc_granted granted b.mSize).bind
      rintro ⟨editable,added⟩ allocated
      apply (do_copy_granted allocated editable 0 _ 0 v.mCount).bind
      intro copy filled
      apply (release_storage_granted filled).bind
      intro last released
      exact yields_ok released

theorem copyUnlessNone_granted (granted : Granted h) (dest destAt : Nat) (source : Option Nat)
    (sourceAt num : Nat) : Yields (copyUnlessNone t h dest destAt source sourceAt num) Granted := by
  unfold copyUnlessNone
  apply yields_ite
  · exact fun _ => do_copy_granted granted dest destAt source sourceAt num
  · exact fun _ => yields_ok granted

theorem copyAround_granted (granted : Granted h) (size place dest source num : Nat) :
    Yields (copyAround t h v size place dest source num) fun result => Granted result.1 := by
  unfold copyAround
  apply (alloc_granted granted size).bind
  rintro ⟨sb,added⟩ allocated
  apply (copyUnlessNone_granted allocated sb 0 _ 0 place).bind
  intro front begun
  apply (copyUnlessNone_granted begun sb dest _ source num).bind
  intro back filled
  apply (release_storage_granted filled).bind
  intro last released
  exact yields_ok released

theorem resizeStorage_granted (granted : Granted h) (cur_sb size : Nat) :
    Yields (resizeStorage t h v cur_sb size) fun result => Granted result.1 := by
  unfold resizeStorage
  apply (editResize_granted granted cur_sb size).bind
  rintro ⟨sb,next⟩ resized
  exact yields_ok resized

theorem growCapacity_granted (granted : Granted h) (place amount new_size : Nat) :
    Yields (growCapacity t h v place amount new_size) fun result => Granted result.1 := by
  unfold growCapacity
  apply yields_self.bind
  intro half _
  apply yields_self.bind
  intro more _
  apply yields_self.bind
  intro size _
  split
  · apply yields_ite
    · exact fun _ => resizeStorage_granted granted _ size
    · exact fun _ => copyAround_granted granted size place _ place _
  · exact copyAround_granted granted size place _ place _

theorem growInPlace_granted (granted : Granted h) (place amount : Nat) :
    Yields (growInPlace t h v place amount) fun result => Granted result.1 := by
  unfold growInPlace
  apply (editArrayImpl_granted granted).bind
  rintro ⟨next,w⟩ edited
  simp only
  split
  · rename_i array _
    apply yields_ite
    · intro _
      apply (do_move_forward_granted edited array (place+amount) place (w.mCount-place)).bind
      intro last moved
      exact yields_ok moved
    · exact fun _ => yields_ok edited
  · exact yields_ok edited

theorem grow_granted (granted : Granted h) (place amount : Nat) :
    Yields (_grow t h v place amount) fun result => Granted result.1 := by
  unfold _grow
  apply yields_self.bind
  intro new_size _
  apply yields_self.bind
  intro cap _
  have stored : Yields (growStorage t h v cap place amount new_size) fun result => Granted result.1 := by
    unfold growStorage
    apply yields_ite
    · exact fun _ => growCapacity_granted granted place amount new_size
    · exact fun _ => growInPlace_granted granted place amount
  apply stored.bind
  rintro ⟨next,w⟩ grown
  apply yields_self.bind
  intro location _
  exact yields_ok grown

theorem shrinkCapacity_granted (granted : Granted h) (cur_sb place amount new_size : Nat) :
    Yields (shrinkCapacity t h v cur_sb place amount new_size) fun result => Granted result.1 := by
  unfold shrinkCapacity
  apply yields_ite
  · exact fun _ => resizeStorage_granted granted cur_sb _
  · exact fun _ => copyAround_granted granted _ place place _ _

theorem shrinkInPlace_granted (granted : Granted h) (place amount new_size : Nat) :
    Yields (shrinkInPlace t h v place amount new_size) fun result => Granted result.1 := by
  unfold shrinkInPlace
  apply (editArrayImpl_granted granted).bind
  rintro ⟨next,w⟩ edited
  simp only
  split
  · rename_i array _
    apply (do_destroy_granted edited array place amount).bind
    intro cleared destroyed
    apply yields_ite
    · intro _
      apply (do_move_backward_granted destroyed array place (place+amount) (new_size-place)).bind
      intro last moved
      exact yields_ok moved
    · exact fun _ => yields_ok destroyed
  · exact yields_ok edited

theorem shrink_granted (granted : Granted h) (place amount : Nat) :
    Yields (_shrink t h v place amount) fun result => Granted result.1 := by
  unfold _shrink
  split
  · exact yields_ok granted
  · rename_i cur_sb _
    apply yields_self.bind
    intro new_size _
    apply yields_self.bind
    intro cap _
    have stored : Yields (shrinkStorage t h v cap cur_sb place amount new_size) fun result =>
        Granted result.1 := by
      unfold shrinkStorage
      apply yields_ite
      · exact fun _ => shrinkCapacity_granted granted cur_sb place amount new_size
      · exact fun _ => shrinkInPlace_granted granted place amount new_size
    apply stored.bind
    rintro ⟨next,w⟩ shrunk
    exact yields_ok shrunk

theorem insertWith_granted (granted : Granted h) (index amount : Nat) {fill : Heap α → Nat → Run (Heap α)}
    (fills : ∀ next sb, Granted next → Yields (fill next sb) Granted) :
    Yields (insertWith t h v index amount fill) fun result => Granted result.1 := by
  unfold insertWith
  apply yields_ite
  · exact fun _ => yields_ok granted
  · intro _
    apply (grow_granted granted index amount).bind
    rintro ⟨next,w,location⟩ grown
    cases location with
    | none => exact yields_ok grown
    | some sb =>
      apply (fills next sb grown).bind
      intro last filled
      exact yields_ok filled

theorem insertArrayAt_granted (granted : Granted h) (array : List α) (index : Nat) :
    Yields (insertArrayAt t h v array index) fun result => Granted result.1 :=
  insertWith_granted granted index array.length fun _ sb grown =>
    writeItems_granted grown sb index array

theorem insertAt_granted (granted : Granted h) (item : Option α) (index numItems : Nat) :
    Yields (insertAt t h v item index numItems) fun result => Granted result.1 :=
  insertWith_granted granted index numItems fun _ sb grown =>
    splatOrConstruct_granted grown sb index item numItems

theorem editItemLocation_granted (granted : Granted h) (index : Nat) :
    Yields (editItemLocation t h v index) fun result => Granted result.1 := by
  unfold editItemLocation
  apply yields_self.bind
  intro cap _
  apply yields_ite
  · intro _
    apply (editArrayImpl_granted granted).bind
    rintro ⟨next,w⟩ edited
    exact yields_ok edited
  · exact fun _ => yields_ok granted

theorem replaceAt_granted (granted : Granted h) (prototype : Option α) (index : Nat) :
    Yields (replaceAt t h v prototype index) fun result => Granted result.1 := by
  unfold replaceAt
  apply yields_ite
  · exact fun _ => yields_ok granted
  · intro _
    apply (editItemLocation_granted granted index).bind
    rintro ⟨next,w,location⟩ located
    cases location with
    | none => exact yields_ok located
    | some sb =>
      apply (do_destroy_granted located sb index 1).bind
      intro cleared destroyed
      apply (splatOrConstruct_granted destroyed sb index prototype 1).bind
      intro last written
      exact yields_ok written

theorem removeItemsAt_granted (granted : Granted h) (index count : Nat) :
    Yields (removeItemsAt t h v index count) fun result => Granted result.1 := by
  unfold removeItemsAt
  apply yields_ite
  · exact fun _ => yields_ok granted
  · intro _
    apply (shrink_granted granted index count).bind
    rintro ⟨next,w⟩ shrunk
    exact yields_ok shrunk

theorem setCapacity_granted (granted : Granted h) (new_capacity : Nat) :
    Yields (setCapacity t h v new_capacity) fun result => Granted result.1 := by
  unfold setCapacity
  apply yields_ite
  · intro _
    apply yields_self.bind
    intro cap _
    exact yields_ok granted
  · intro _
    apply yields_self.bind
    intro size _
    apply (alloc_granted granted size).bind
    rintro ⟨sb,added⟩ allocated
    apply (do_copy_granted allocated sb 0 _ 0 v.mCount).bind
    intro copy filled
    apply (release_storage_granted filled).bind
    intro last released
    exact yields_ok released

theorem resize_granted (granted : Granted h) (size : Nat) :
    Yields (resize t h v size) fun result => Granted result.1 := by
  unfold resize
  apply yields_ite
  · intro _
    apply (insertAt_granted granted none v.mCount (size-v.mCount)).bind
    rintro ⟨next,w,status⟩ inserted
    cases status <;> exact yields_ok inserted
  · intro _
    apply yields_ite
    · intro _
      apply (removeItemsAt_granted granted size (v.mCount-size)).bind
      rintro ⟨next,w,status⟩ removed
      cases status <;> exact yields_ok removed
    · exact fun _ => yields_ok granted

theorem withoutStatus_granted {run : Run (Heap α × VectorImpl × Status)}
    (yields : Yields run fun result => Granted result.1) :
    Yields (withoutStatus run) fun result => Granted result.1 := by
  apply yields.bind
  rintro ⟨next,w,status⟩ granted
  exact yields_ok granted

theorem edit_granted (granted : Granted h) (e : Edit α) :
    Yields (edit t h v e) fun result => Granted result.1 := by
  cases e with
  | insertArrayAt array index => exact withoutStatus_granted (insertArrayAt_granted granted array index)
  | appendArray array => exact withoutStatus_granted (insertArrayAt_granted granted array v.mCount)
  | insertAt item index numItems =>
    exact withoutStatus_granted (insertAt_granted granted item index numItems)
  | replaceAt prototype index => exact withoutStatus_granted (replaceAt_granted granted prototype index)
  | removeItemsAt index count => exact withoutStatus_granted (removeItemsAt_granted granted index count)
  | setCapacity new_capacity => exact withoutStatus_granted (setCapacity_granted granted new_capacity)
  | resize size => exact withoutStatus_granted (resize_granted granted size)
  | clear => exact shrink_granted granted 0 v.mCount
  | finish_vector =>
    apply (release_storage_granted granted).bind
    intro next released
    exact yields_ok released

theorem copied_granted (granted : Granted h) : Yields (copied h v) fun result => Granted result.1 := by
  unfold copied
  split
  · exact yields_ok granted
  · rename_i sb _
    apply (acquire_granted granted sb).bind
    intro next acquired
    exact yields_ok acquired

theorem assigned_granted (granted : Granted h) (rhs : VectorImpl) :
    Yields (assigned t h v rhs) fun result => Granted result.1 := by
  unfold assigned
  apply (release_storage_granted granted).bind
  intro left released
  apply yields_ite
  · intro _
    split
    · exact yields_error
    · rename_i sb _
      apply (acquire_granted released sb).bind
      intro next acquired
      exact yields_ok acquired
  · exact fun _ => yields_ok released

theorem step_granted {w : World α} (granted : Granted w.heap) (op : Op α) :
    Yields (step t w op) fun next => Granted next.heap := by
  cases op with
  | construct => exact yields_ok granted
  | copy rhs =>
    simp only [step]
    split
    · exact yields_error
    · apply (copied_granted granted).bind
      rintro ⟨next,copy⟩ copied
      exact yields_ok copied
  | assign this rhs =>
    simp only [step]
    split
    · rename_i v other _ _
      apply yields_ite
      · exact fun _ => yields_ok granted
      · intro _
        apply (assigned_granted granted other).bind
        rintro ⟨next,changed⟩ assigned
        exact yields_ok assigned
    · exact yields_error
  | edit this e =>
    simp only [step]
    split
    · exact yields_error
    · apply (edit_granted granted e).bind
      rintro ⟨next,changed⟩ edited
      exact yields_ok edited

theorem run_granted {ops : List (Op α)} {w : World α} (ran : run (machine t) World.initial ops = some w) :
    Granted w.heap := by
  have start : Granted (World.initial : World α).heap := by
    intro sb b present
    cases present
  apply run_invariant (fun w : World α => Granted w.heap) ?_ start ran
  intro w op next granted moved
  exact (step_granted granted op).result (machine_step moved)

end Operations

def Room {α : Type} (t : ItemType α) (n : Nat) : Prop :=
  Allocatable (max kMinVectorCapacity (n+n/2+1)*t.mItemSize)

section Endings
variable {α : Type} {t : ItemType α} {others : Nat → Nat} {h : Heap α} {v : VectorImpl} {n m : Nat}

theorem Allocatable.le {size less : Nat} (accepted : Allocatable size) (below : less ≤ size) :
    Allocatable less := lt_of_le_of_lt below accepted

theorem Room.less (room : Room t n) (below : m ≤ n) : Room t m := by
  apply Allocatable.le room
  apply Nat.mul_le_mul_right
  omega

theorem Room.least (room : Room t n) : Allocatable (kMinVectorCapacity*t.mItemSize) :=
  Allocatable.le room (Nat.mul_le_mul_right _ (le_max_left _ _))

theorem Room.count (room : Room t n) : n+n/2+1 ≤ SIZE_MAX := by
  have once : n+n/2+1 ≤ max kMinVectorCapacity (n+n/2+1)*t.mItemSize :=
    (le_max_right _ _).trans (Nat.le_mul_of_pos_right _ t.positive)
  have accepted : max kMinVectorCapacity (n+n/2+1)*t.mItemSize < SIZE_MAX-sizeofSharedBuffer := room
  omega

theorem deref_finishes (h : Heap α) (sb : Nat) : Finishes (deref h sb) := by
  unfold deref
  split
  · exact finishes_fault
  · exact finishes_ok

theorem alloc_finishes {size : Nat} (h : Heap α) (accepted : Allocatable size) :
    Finishes (alloc t h size) := by
  unfold alloc Allocatable at *
  rw [if_neg (by omega)]
  exact finishes_ok

theorem release_finishes (h : Heap α) (sb : Nat) (eKeepStorage : Bool) :
    Finishes (release h sb eKeepStorage) := by
  apply (deref_finishes h sb).bind
  intro b _
  apply finishes_ite
  · intro _
    apply finishes_ite
    · exact fun _ => finishes_ok
    · exact fun _ => finishes_ok
  · exact fun _ => finishes_ok

theorem dealloc_finishes (h : Heap α) (sb : Nat) : Finishes (dealloc h sb) := by
  apply (deref_finishes h sb).bind
  intro b _
  apply finishes_ite
  · exact fun _ => finishes_ok
  · exact fun _ => finishes_ok

theorem readItems_finishes (h : Heap α) (sb start count : Nat) :
    Finishes (readItems t h sb start count) := by
  apply (deref_finishes h sb).bind
  intro b _
  apply finishes_ite
  · exact fun _ => finishes_ok
  · exact fun _ => finishes_fault

theorem writeItems_finishes (h : Heap α) (sb start : Nat) (values : List α) :
    Finishes (writeItems t h sb start values) := by
  apply (deref_finishes h sb).bind
  intro b _
  apply finishes_ite
  · exact fun _ => finishes_ok
  · exact fun _ => finishes_fault

theorem do_copy_finishes (h : Heap α) (dest destAt : Nat) (source : Option Nat) (sourceAt num : Nat) :
    Finishes (_do_copy t h dest destAt source sourceAt num) := by
  unfold _do_copy
  split
  · apply finishes_ite
    · exact fun _ => finishes_ok
    · exact fun _ => finishes_fault
  · rename_i sb
    apply (readItems_finishes h sb sourceAt num).bind
    intro values _
    exact writeItems_finishes h dest destAt values

theorem do_destroy_finishes (h : Heap α) (sb start num : Nat) :
    Finishes (_do_destroy t h sb start num) := by
  apply finishes_ite
  · exact fun _ => finishes_ok
  · exact fun _ => writeItems_finishes h sb start _

theorem do_move_forward_finishes (h : Heap α) (sb dest source num : Nat) :
    Finishes (_do_move_forward t h sb dest source num) := by
  apply (readItems_finishes h sb source _).bind
  intro span _
  exact writeItems_finishes h sb source _

theorem do_move_backward_finishes (h : Heap α) (sb dest source num : Nat) :
    Finishes (_do_move_backward t h sb dest source num) := by
  apply (readItems_finishes h sb dest _).bind
  intro span _
  exact writeItems_finishes h sb dest _

theorem splatOrConstruct_finishes (h : Heap α) (sb start : Nat) (item : Option α) (num : Nat) :
    Finishes (splatOrConstruct t h sb start item num) := by
  cases item with
  | some value => exact writeItems_finishes h sb start _
  | none =>
    apply finishes_ite
    · exact fun _ => finishes_ok
    · exact fun _ => writeItems_finishes h sb start _

theorem release_storage_finishes (h : Heap α) (v : VectorImpl) : Finishes (release_storage t h v) := by
  unfold release_storage
  split
  · exact finishes_ok
  · rename_i sb _
    apply (release_finishes h sb true).bind
    rintro ⟨prev,next⟩ _
    apply finishes_ite
    · intro _
      apply (do_destroy_finishes next sb 0 v.mCount).bind
      intro last _
      exact dealloc_finishes last sb
    · exact fun _ => finishes_ok

theorem capacity_finishes (h : Heap α) (v : VectorImpl) : Finishes (capacity t h v) := by
  unfold capacity
  split
  · exact finishes_ok
  · rename_i sb _
    apply (deref_finishes h sb).bind
    intro b _
    exact finishes_ok

theorem editArrayImpl_finishes (granted : Granted h) (v : VectorImpl) :
    Finishes (editArrayImpl t h v) := by
  unfold editArrayImpl
  split
  · exact finishes_ok
  · rename_i sb _
    apply (deref_finishes h sb).bind
    intro b found
    apply finishes_ite
    · exact fun _ => finishes_ok
    · intro _
      have accepted := granted sb b (deref_yields.result found)
      apply (alloc_finishes h accepted).bind
      rintro ⟨editable,added⟩ _
      apply (do_copy_finishes added editable 0 _ 0 v.mCount).bind
      intro copy _
      apply (release_storage_finishes copy v).bind
      intro last _
      exact finishes_ok

theorem copyUnlessNone_finishes (h : Heap α) (dest destAt : Nat) (source : Option Nat)
    (sourceAt num : Nat) : Finishes (copyUnlessNone t h dest destAt source sourceAt num) := by
  apply finishes_ite
  · exact fun _ => do_copy_finishes h dest destAt source sourceAt num
  · exact fun _ => finishes_ok

theorem copyAround_finishes {size : Nat} (h : Heap α) (v : VectorImpl) (accepted : Allocatable size)
    (place dest source num : Nat) : Finishes (copyAround t h v size place dest source num) := by
  apply (alloc_finishes h accepted).bind
  rintro ⟨sb,added⟩ _
  apply (copyUnlessNone_finishes added sb 0 _ 0 place).bind
  intro front _
  apply (copyUnlessNone_finishes front sb dest _ source num).bind
  intro back _
  apply (release_storage_finishes back v).bind
  intro last _
  exact finishes_ok

theorem resizeStorage_finishes {size : Nat} (h : Heap α) (v : VectorImpl) (accepted : Allocatable size)
    (cur_sb : Nat) : Finishes (resizeStorage t h v cur_sb size) := by
  have resized : Finishes (editResize t h cur_sb size) := by
    apply (deref_finishes h cur_sb).bind
    intro b _
    apply finishes_ite
    · intro _
      apply finishes_ite
      · exact fun _ => finishes_ok
      · intro _
        unfold Allocatable at accepted
        rw [if_neg (by omega)]
        exact finishes_ok
    · intro _
      apply (alloc_finishes h accepted).bind
      rintro ⟨copy,added⟩ _
      apply (release_finishes _ cur_sb false).bind
      rintro ⟨_,last⟩ _
      exact finishes_ok
  apply resized.bind
  rintro ⟨sb,next⟩ _
  exact finishes_ok

theorem growCapacity_finishes {new_size : Nat} (h : Heap α) (v : VectorImpl) (room : Room t new_size)
    (place amount : Nat) : Finishes (growCapacity t h v place amount new_size) := by
  have count := room.count
  have accepted : max kMinVectorCapacity (new_size+new_size/2+1)*t.mItemSize <
      SIZE_MAX-sizeofSharedBuffer := room
  have half : safe_add new_size (new_size/2) = .ok (new_size+new_size/2) := if_pos (by omega)
  have more : safe_add (new_size+new_size/2) 1 = .ok (new_size+new_size/2+1) := if_pos count
  have product : safe_mul (max kMinVectorCapacity (new_size+new_size/2+1)) t.mItemSize =
      .ok (max kMinVectorCapacity (new_size+new_size/2+1)*t.mItemSize) := if_pos (by omega)
  simp only [growCapacity,half,more,product,ok_bind]
  split
  · apply finishes_ite
    · exact fun _ => resizeStorage_finishes h v room _
    · exact fun _ => copyAround_finishes h v room place _ place _
  · exact copyAround_finishes h v room place _ place _

theorem growInPlace_finishes (granted : Granted h) (v : VectorImpl) (place amount : Nat) :
    Finishes (growInPlace t h v place amount) := by
  apply (editArrayImpl_finishes granted v).bind
  rintro ⟨next,w⟩ _
  simp only
  split
  · rename_i array _
    apply finishes_ite
    · intro _
      apply (do_move_forward_finishes next array (place+amount) place (w.mCount-place)).bind
      intro last _
      exact finishes_ok
    · exact fun _ => finishes_ok
  · exact finishes_ok

theorem grow_finishes (granted : Granted h) (v : VectorImpl) (place amount : Nat)
    (room : Room t (v.mCount+amount)) : Finishes (_grow t h v place amount) := by
  have count := room.count
  have sum : safe_add v.mCount amount = .ok (v.mCount+amount) := if_pos (by omega)
  simp only [_grow,sum,ok_bind]
  apply (capacity_finishes h v).bind
  intro cap _
  have stored : Finishes (growStorage t h v cap place amount (v.mCount+amount)) := by
    apply finishes_ite
    · exact fun _ => growCapacity_finishes h v room place amount
    · exact fun _ => growInPlace_finishes granted v place amount
  apply stored.bind
  rintro ⟨next,w⟩ _
  have located : Finishes (itemLocation t next {w with mCount := v.mCount+amount} place) := by
    apply (capacity_finishes next _).bind
    intro cap _
    apply finishes_ite
    · exact fun _ => finishes_ok
    · exact fun _ => finishes_ok
  apply located.bind
  intro location _
  exact finishes_ok

theorem shrinkCapacity_finishes (fit : Fit t others h v) (granted : Granted h) {sb : Nat}
    (storage : v.mStorage = some sb) (least : Allocatable (kMinVectorCapacity*t.mItemSize))
    (place amount : Nat) {new_size : Nat} (little : new_size < bytes h v/t.mItemSize/2) :
    Finishes (shrinkCapacity t h v sb place amount new_size) := by
  have accepted : Allocatable (max kMinVectorCapacity (new_size*2)*t.mItemSize%2^32) := by
    by_cases large : kMinVectorCapacity ≤ new_size*2
    · obtain ⟨b,found,_⟩ := fit.found storage
      have room : new_size*2*t.mItemSize ≤ b.mSize := by
        rw [← bytes_some storage found]
        exact (Nat.le_div_iff_mul_le t.positive).mp (by omega)
      rw [max_eq_right large]
      exact (granted sb b found).le ((Nat.mod_le _ _).trans room)
    · rw [max_eq_left (by omega)]
      exact least.le (Nat.mod_le _ _)
  apply finishes_ite
  · exact fun _ => resizeStorage_finishes h v accepted sb
  · exact fun _ => copyAround_finishes h v accepted place place _ _

theorem shrinkInPlace_finishes (granted : Granted h) (v : VectorImpl) (place amount new_size : Nat) :
    Finishes (shrinkInPlace t h v place amount new_size) := by
  apply (editArrayImpl_finishes granted v).bind
  rintro ⟨next,w⟩ _
  simp only
  split
  · rename_i array _
    apply (do_destroy_finishes next array place amount).bind
    intro cleared _
    apply finishes_ite
    · intro _
      apply (do_move_backward_finishes cleared array place (place+amount) (new_size-place)).bind
      intro last _
      exact finishes_ok
    · exact fun _ => finishes_ok
  · exact finishes_ok

theorem shrink_finishes (fit : Fit t others h v) (granted : Granted h) (place : Nat) {amount : Nat}
    (least : Roomy t h v (v.mCount-amount) → Allocatable (kMinVectorCapacity*t.mItemSize))
    (within : amount ≤ v.mCount) : Finishes (_shrink t h v place amount) := by
  unfold _shrink
  cases storage : v.mStorage with
  | none => exact finishes_ok
  | some sb =>
    have subtracted : safe_sub v.mCount amount = .ok (v.mCount-amount) := if_pos within
    simp only [subtracted,capacity_eq fit,ok_bind]
    have stored : Finishes (shrinkStorage t h v (bytes h v/t.mItemSize) sb place amount
        (v.mCount-amount)) := by
      apply finishes_ite
      · exact fun little => shrinkCapacity_finishes fit granted storage (least little) place amount little
      · exact fun _ => shrinkInPlace_finishes granted v place amount _
    apply stored.bind
    rintro ⟨next,w⟩ _
    exact finishes_ok

theorem removeItemsAt_finishes (fit : Fit t others h v) (granted : Granted h) (index : Nat) {count : Nat}
    (least : Roomy t h v (v.mCount-count) → Allocatable (kMinVectorCapacity*t.mItemSize))
    (within : count ≤ v.mCount) : Finishes (removeItemsAt t h v index count) := by
  apply finishes_ite
  · exact fun _ => finishes_ok
  · intro _
    apply (shrink_finishes fit granted index least within).bind
    rintro ⟨next,w⟩ _
    exact finishes_ok

theorem insertWith_finishes (granted : Granted h) (v : VectorImpl) (index amount : Nat)
    {fill : Heap α → Nat → Run (Heap α)} (fills : ∀ next sb, Finishes (fill next sb))
    (room : Room t (v.mCount+amount)) : Finishes (insertWith t h v index amount fill) := by
  apply finishes_ite
  · exact fun _ => finishes_ok
  · intro _
    apply (grow_finishes granted v index amount room).bind
    rintro ⟨next,w,location⟩ _
    cases location with
    | none => exact finishes_ok
    | some sb =>
      apply (fills next sb).bind
      intro last _
      exact finishes_ok

theorem replaceAt_finishes (granted : Granted h) (v : VectorImpl) (prototype : Option α) (index : Nat) :
    Finishes (replaceAt t h v prototype index) := by
  have located : Finishes (editItemLocation t h v index) := by
    apply (capacity_finishes h v).bind
    intro cap _
    apply finishes_ite
    · intro _
      apply (editArrayImpl_finishes granted v).bind
      rintro ⟨next,w⟩ _
      exact finishes_ok
    · exact fun _ => finishes_ok
  apply finishes_ite
  · exact fun _ => finishes_ok
  · intro _
    apply located.bind
    rintro ⟨next,w,location⟩ _
    cases location with
    | none => exact finishes_ok
    | some sb =>
      apply (do_destroy_finishes next sb index 1).bind
      intro cleared _
      apply (splatOrConstruct_finishes cleared sb index prototype 1).bind
      intro last _
      exact finishes_ok

end Endings

end SemcMsm7x30.Vectors

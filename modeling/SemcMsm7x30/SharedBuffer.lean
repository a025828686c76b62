import SemcMsm7x30.RawMemory

namespace SemcMsm7x30.Vectors
open RawMemory

def SIZE_MAX : Nat := 2^32-1

def sizeofSharedBuffer : Nat := 16

-- The item type of a Vector: its size and flags, what do_construct builds, and
-- what is found in a slot that holds no item.
structure ItemType (α : Type) where
  mItemSize : Nat
  positive : 0 < mItemSize
  HAS_TRIVIAL_CTOR : Bool
  HAS_TRIVIAL_DTOR : Bool
  HAS_TRIVIAL_COPY : Bool
  constructed : α
  garbage : Nat → Nat → α
  -- The moves are not part of the repository. Both see the items from one end of
  -- their two ranges to the other, which lie `gap` items apart; nothing is said of
  -- ranges that are the same.
  do_move_forward : (gap : Nat) → List α → List α
  do_move_backward : (gap : Nat) → List α → List α
  forward_length : ∀ gap span, (do_move_forward gap span).length = span.length
  backward_length : ∀ gap span, (do_move_backward gap span).length = span.length
  moves_forward : ∀ gap span, 0 < gap →
    (do_move_forward gap span).drop gap = span.take (span.length-gap)
  moves_backward : ∀ gap span, 0 < gap →
    (do_move_backward gap span).take (span.length-gap) = span.drop gap

structure SharedBuffer (α : Type) where
  mRefs : Int
  mSize : Nat
  data : Nat → α

-- malloc never returns an address twice here, so `freed` tells the blocks apart.
structure Heap (α : Type) where
  buffers : Nat → Option (SharedBuffer α)
  next : Nat
  freed : List Nat

def Heap.empty {α : Type} : Heap α := ⟨fun _ => none,0,[]⟩

section Functions
variable {α : Type} (t : ItemType α)

def Heap.put (h : Heap α) (sb : Nat) (b : SharedBuffer α) : Heap α :=
  {h with buffers := Function.update h.buffers sb (some b)}

def Heap.free (h : Heap α) (sb : Nat) : Heap α :=
  {h with buffers := Function.update h.buffers sb none,freed := h.freed ++ [sb]}

def Heap.added (h : Heap α) (b : SharedBuffer α) : Heap α :=
  {h with buffers := Function.update h.buffers h.next (some b),next := h.next+1}

def deref (h : Heap α) (sb : Nat) : Run (SharedBuffer α) :=
  match h.buffers sb with
  | none => .error .fault
  | some b => .ok b

def alloc (h : Heap α) (size : Nat) : Run (Nat × Heap α) :=
  -- Don't overflow if the combined size of the buffer / header is larger than size_max.
  if SIZE_MAX-sizeofSharedBuffer ≤ size then .error .fatal
  else .ok (h.next,h.added ⟨1,size,t.garbage h.next⟩)

def dealloc (h : Heap α) (released : Nat) : Run (Heap α) := do
  let b ← deref h released
  if b.mRefs ≠ 0 then pure h else pure (h.free released)

def SharedBuffer.onlyOwner (b : SharedBuffer α) : Prop := b.mRefs = 1

instance (b : SharedBuffer α) : Decidable b.onlyOwner := inferInstanceAs (Decidable (_ = _))

def acquire (h : Heap α) (sb : Nat) : Run (Heap α) := do
  let b ← deref h sb
  pure (h.put sb {b with mRefs := b.mRefs+1})

-- The value before, and with one owner left the count 0. One thread runs, so the
-- decrement finds 1 exactly where onlyOwner does.
def release (h : Heap α) (sb : Nat) (eKeepStorage : Bool) : Run (Int × Heap α) := do
  let b ← deref h sb
  if b.onlyOwner then
    if eKeepStorage then pure (1,h.put sb {b with mRefs := 0}) else pure (1,h.free sb)
  else pure (b.mRefs,h.put sb {b with mRefs := b.mRefs-1})

-- The items within the first `len` bytes; an item cut in two is none.
def keptData (len sb : Nat) (data : Nat → α) : Nat → α := fun i =>
  if (i+1)*t.mItemSize ≤ len then data i else t.garbage sb i

def editResize (h : Heap α) (sb newSize : Nat) : Run (Nat × Heap α) := do
  let b ← deref h sb
  if b.onlyOwner then
    if b.mSize = newSize then pure (sb,h)
    else if SIZE_MAX-sizeofSharedBuffer ≤ newSize then .error .fatal
    else pure (sb,h.put sb ⟨b.mRefs,newSize,keptData t (min newSize b.mSize) sb b.data⟩)
  else
    let (copy,h) ← alloc t h newSize
    let h := h.put copy ⟨1,newSize,keptData t (min newSize b.mSize) copy b.data⟩
    let (_,h) ← release h sb false
    pure (copy,h)

def readItems (h : Heap α) (sb start count : Nat) : Run (List α) := do
  let b ← deref h sb
  if (start+count)*t.mItemSize ≤ b.mSize then pure (slice b.data start count) else .error .fault

def writeItems (h : Heap α) (sb start : Nat) (values : List α) : Run (Heap α) := do
  let b ← deref h sb
  if (start+values.length)*t.mItemSize ≤ b.mSize then
    pure (h.put sb {b with data := blit b.data start values})
  else .error .fault

end Functions

section Counting
variable {α : Type} {t : ItemType α} {h next : Heap α} {refs : Nat → Nat} {sb : Nat}
  {b : SharedBuffer α}

structure Counted (h : Heap α) (refs : Nat → Nat) : Prop where
  live : ∀ sb b, h.buffers sb = some b → b.mRefs = refs sb ∧ 0 < refs sb
  dead : ∀ sb, h.buffers sb = none → refs sb = 0
  old : ∀ sb b, h.buffers sb = some b → sb < h.next
  once : h.freed.Nodup
  gone : ∀ sb, sb ∈ h.freed ↔ sb < h.next ∧ h.buffers sb = none

def plus (refs : Nat → Nat) (pointer : Option Nat) : Nat → Nat := fun sb =>
  refs sb+if pointer = some sb then 1 else 0

def Kept (refs : Nat → Nat) (h next : Heap α) : Prop :=
  ∀ sb b, 0 < refs sb → h.buffers sb = some b →
    ∃ later, next.buffers sb = some later ∧ later.mSize = b.mSize ∧ later.data = b.data

theorem kept_refl (refs : Nat → Nat) (h : Heap α) : Kept refs h h :=
  fun _ b _ found => ⟨b,found,rfl,rfl⟩

theorem Kept.trans {last : Heap α} (first : Kept refs h next) (second : Kept refs next last) :
    Kept refs h last := by
  intro sb b owned found
  obtain ⟨middle,present,size,data⟩ := first sb b owned found
  obtain ⟨later,there,size',data'⟩ := second sb middle owned present
  exact ⟨later,there,size'.trans size,data'.trans data⟩

theorem Kept.fewer {fewer : Nat → Nat} (kept : Kept refs h next) (less : ∀ sb, fewer sb ≤ refs sb) :
    Kept fewer h next :=
  fun sb b owned found => kept sb b (lt_of_lt_of_le owned (less sb)) found

@[simp] theorem plus_none (refs : Nat → Nat) : plus refs none = refs := by
  funext sb
  simp [plus]

@[simp] theorem plus_self (refs : Nat → Nat) (sb : Nat) : plus refs (some sb) sb = refs sb+1 := by
  simp [plus]

theorem plus_other {other : Nat} (different : other ≠ sb) : plus refs (some sb) other = refs other := by
  simp [plus,different.symm]

theorem le_plus (refs : Nat → Nat) (pointer : Option Nat) (sb : Nat) : refs sb ≤ plus refs pointer sb :=
  Nat.le_add_right _ _

@[simp] theorem put_get (h : Heap α) (sb : Nat) (b : SharedBuffer α) :
    (h.put sb b).buffers sb = some b := by
  simp [Heap.put]

theorem put_other {other : Nat} (different : other ≠ sb) :
    (h.put sb b).buffers other = h.buffers other := by
  simp [Heap.put,different]

@[simp] theorem put_put (h : Heap α) (sb : Nat) (first second : SharedBuffer α) :
    (h.put sb first).put sb second = h.put sb second := by
  simp [Heap.put]

@[simp] theorem added_put (h : Heap α) (first second : SharedBuffer α) :
    (h.added first).put h.next second = h.added second := by
  simp [Heap.put,Heap.added]

@[simp] theorem added_get (h : Heap α) (b : SharedBuffer α) :
    (h.added b).buffers h.next = some b := by
  simp [Heap.added]

theorem deref_some (found : h.buffers sb = some b) : deref h sb = .ok b := by
  simp [deref,found]

theorem Counted.alive (counted : Counted h refs) (owned : 0 < refs sb) :
    ∃ b, h.buffers sb = some b := by
  cases found : h.buffers sb with
  | some b => exact ⟨b,rfl⟩
  | none =>
    have := counted.dead sb found
    omega

theorem Counted.unowned_next (counted : Counted h refs) : refs h.next = 0 := by
  apply counted.dead
  cases found : h.buffers h.next with
  | none => rfl
  | some b => exact absurd (counted.old h.next b found) (lt_irrefl _)

theorem recount {owners : Nat → Nat} (counted : Counted h refs) (found : h.buffers sb = some b)
    {changed : SharedBuffer α} (owned : 0 < owners sb) (count : changed.mRefs = owners sb)
    (same : ∀ other, other ≠ sb → owners other = refs other) :
    Counted (h.put sb changed) owners := by
  constructor
  · intro other buffer present
    by_cases this : other = sb
    · subst this
      rw [put_get] at present
      cases present
      exact ⟨count,owned⟩
    · rw [put_other this] at present
      rw [same other this]
      exact counted.live other buffer present
  · intro other absent
    by_cases this : other = sb
    · subst this
      simp at absent
    · rw [put_other this] at absent
      rw [same other this]
      exact counted.dead other absent
  · intro other buffer present
    by_cases this : other = sb
    · subst this
      exact counted.old other b found
    · rw [put_other this] at present
      exact counted.old other buffer present
  · exact counted.once
  · intro other
    by_cases this : other = sb
    · subst this
      have live : other ∉ h.freed := by
        rw [counted.gone,found]
        simp
      simp [Heap.put,live]
    · rw [put_other this]
      exact counted.gone other

theorem put_counted (counted : Counted h refs) (found : h.buffers sb = some b)
    {changed : SharedBuffer α} (count : changed.mRefs = b.mRefs) :
    Counted (h.put sb changed) refs := by
  obtain ⟨exactly,owned⟩ := counted.live sb b found
  exact recount counted found owned (count.trans exactly) fun _ _ => rfl

theorem put_kept (unowned : refs sb = 0) : Kept refs h (h.put sb b) := by
  intro other buffer owned found
  have different : other ≠ sb := by
    intro same
    subst same
    omega
  exact ⟨buffer,(put_other different).trans found,rfl,rfl⟩

theorem added_other {other : Nat} (different : other ≠ h.next) :
    (h.added b).buffers other = h.buffers other := by
  simp [Heap.added,different]

theorem added_counted (counted : Counted h refs) (one : b.mRefs = 1) :
    Counted (h.added b) (plus refs (some h.next)) := by
  have fresh := counted.unowned_next
  constructor
  · intro other buffer present
    by_cases this : other = h.next
    · subst this
      rw [added_get] at present
      cases present
      simp [one,fresh]
    · rw [added_other this] at present
      rw [plus_other this]
      exact counted.live other buffer present
  · intro other absent
    by_cases this : other = h.next
    · subst this
      simp at absent
    · rw [added_other this] at absent
      rw [plus_other this]
      exact counted.dead other absent
  · intro other buffer present
    by_cases this : other = h.next
    · subst this
      exact Nat.lt_succ_self _
    · rw [added_other this] at present
      exact Nat.lt_succ_of_lt (counted.old other buffer present)
  · exact counted.once
  · intro other
    have before := counted.gone other
    by_cases this : other = h.next
    · subst this
      have unused : h.next ∉ h.freed := by
        rw [before]
        omega
      simp [Heap.added,unused]
    · have below : other < h.next+1 ↔ other < h.next := by omega
      rw [added_other this]
      simp only [Heap.added,below]
      exact before

theorem added_kept (counted : Counted h refs) : Kept refs h (h.added b) := by
  intro other buffer owned found
  have different : other ≠ h.next := (counted.old other buffer found).ne
  exact ⟨buffer,(added_other different).trans found,rfl,rfl⟩

theorem free_other {other : Nat} (different : other ≠ sb) :
    (h.free sb).buffers other = h.buffers other := by
  simp [Heap.free,different]

theorem free_counted (counted : Counted h (plus refs (some sb))) (last : refs sb = 0)
    (found : h.buffers sb = some b) : Counted (h.free sb) refs := by
  constructor
  · intro other buffer present
    by_cases this : other = sb
    · subst this
      simp [Heap.free] at present
    · rw [free_other this] at present
      have before := counted.live other buffer present
      rwa [plus_other this] at before
  · intro other absent
    by_cases this : other = sb
    · subst this
      exact last
    · rw [free_other this] at absent
      have before := counted.dead other absent
      rwa [plus_other this] at before
  · intro other buffer present
    by_cases this : other = sb
    · subst this
      simp [Heap.free] at present
    · rw [free_other this] at present
      exact counted.old other buffer present
  · have live : sb ∉ h.freed := by
      rw [counted.gone,found]
      simp
    exact List.nodup_append.mpr ⟨counted.once,List.nodup_singleton sb,by
      intro other member
      simp only [List.mem_singleton,forall_eq]
      intro same
      exact live (same ▸ member)⟩
  · intro other
    by_cases this : other = sb
    · subst this
      simpa [Heap.free] using counted.old other b found
    · rw [free_other this]
      simp only [Heap.free,List.mem_append,List.mem_singleton,this,or_false]
      exact counted.gone other

theorem free_kept (unowned : refs sb = 0) : Kept refs h (h.free sb) := by
  intro other buffer owned found
  have different : other ≠ sb := by
    intro same
    subst same
    omega
  exact ⟨buffer,(free_other different).trans found,rfl,rfl⟩

theorem put_same_kept {changed : SharedBuffer α} (found : h.buffers sb = some b)
    (size : changed.mSize = b.mSize) (data : changed.data = b.data) :
    Kept refs h (h.put sb changed) := by
  intro other buffer _ present
  by_cases this : other = sb
  · subst this
    cases found.symm.trans present
    exact ⟨changed,put_get h other changed,size,data⟩
  · exact ⟨buffer,(put_other this).trans present,rfl,rfl⟩

theorem acquire_safe (counted : Counted h refs) (owned : 0 < refs sb) :
    Safe (acquire h sb) fun next => Counted next (plus refs (some sb)) ∧ Kept refs h next := by
  obtain ⟨b,found⟩ := counted.alive owned
  obtain ⟨count,_⟩ := counted.live sb b found
  simp only [acquire,deref_some found]
  refine safe_ok ⟨recount counted found (by simp) (by simp [count]) ?_,
    put_same_kept found rfl rfl⟩
  intro other different
  exact plus_other different

theorem shared_owner (counted : Counted h (plus refs (some sb))) (found : h.buffers sb = some b) :
    b.mRefs = refs sb+1 := by
  obtain ⟨count,_⟩ := counted.live sb b found
  rw [plus_self] at count
  omega

theorem onlyOwner_iff (counted : Counted h (plus refs (some sb))) (found : h.buffers sb = some b) :
    b.onlyOwner ↔ refs sb = 0 := by
  have count := shared_owner counted found
  unfold SharedBuffer.onlyOwner
  omega

theorem leave_counted (counted : Counted h (plus refs (some sb))) (found : h.buffers sb = some b)
    (shared : ¬b.onlyOwner) : Counted (h.put sb {b with mRefs := b.mRefs-1}) refs := by
  have count := shared_owner counted found
  have others := (onlyOwner_iff counted found).not.mp shared
  apply recount counted found
  · omega
  · simp only
    omega
  · intro other different
    exact (plus_other different).symm

theorem release_safe (counted : Counted h (plus refs (some sb))) :
    Safe (release h sb false) fun result => Counted result.2 refs ∧ Kept refs h result.2 := by
  obtain ⟨b,found⟩ := counted.alive (by simp : 0 < plus refs (some sb) sb)
  simp only [release,deref_some found]
  apply safe_ite
  · intro only
    have last := (onlyOwner_iff counted found).mp only
    exact ⟨free_counted counted last found,free_kept last⟩
  · intro shared
    exact ⟨leave_counted counted found shared,put_same_kept found rfl rfl⟩

theorem alloc_safe (t : ItemType α) (h : Heap α) (size : Nat) :
    Safe (alloc t h size) fun result =>
      result = (h.next,h.added ⟨1,size,t.garbage h.next⟩) ∧ size < 2^32 := by
  apply safe_ite (fun _ => safe_fatal)
  intro fits
  unfold SIZE_MAX at fits
  exact ⟨rfl,by omega⟩

theorem plus_comm (refs : Nat → Nat) (first second : Option Nat) :
    plus (plus refs first) second = plus (plus refs second) first := by
  funext sb
  simp only [plus]
  omega

theorem slice_keptData (t : ItemType α) {len count : Nat} (sb : Nat) (data : Nat → α)
    (within : count*t.mItemSize ≤ len) : slice (keptData t len sb data) 0 count = slice data 0 count := by
  apply slice_congr
  intro i _ below
  have fits : (i+1)*t.mItemSize ≤ count*t.mItemSize := Nat.mul_le_mul_right _ (by omega)
  rw [keptData,if_pos (fits.trans within)]

structure Resized (t : ItemType α) (others : Nat → Nat) (b : SharedBuffer α) (newSize : Nat)
    (copy : Nat) (next : Heap α) : Prop where
  counted : Counted next (plus others (some copy))
  alone : others copy = 0
  small : newSize < 2^32
  data : ∃ later, next.buffers copy = some later ∧ later.mSize = newSize ∧
    ∀ count, count*t.mItemSize ≤ newSize → count*t.mItemSize ≤ b.mSize →
      slice later.data 0 count = slice b.data 0 count

theorem editResize_safe (t : ItemType α) (counted : Counted h (plus refs (some sb)))
    (found : h.buffers sb = some b) (small : b.mSize < 2^32) (newSize : Nat) :
    Safe (editResize t h sb newSize) fun result =>
      Resized t refs b newSize result.1 result.2 ∧ Kept refs h result.2 := by
  simp only [editResize,deref_some found]
  apply safe_ite
  · intro only
    have alone := (onlyOwner_iff counted found).mp only
    apply safe_ite
    · intro same
      exact ⟨⟨counted,alone,same ▸ small,b,found,same,fun _ _ _ => rfl⟩,kept_refl refs h⟩
    · intro _
      apply safe_ite (fun _ => safe_fatal)
      intro fits
      unfold SIZE_MAX at fits
      refine ⟨⟨put_counted counted found rfl,alone,by omega,_,put_get _ _ _,rfl,?_⟩,put_kept alone⟩
      intro count fits inside
      exact slice_keptData t sb b.data (le_min fits inside)
  · intro _
    apply Safe.bind (alloc_safe t h newSize)
    rintro result ⟨rfl,fits⟩
    simp only [added_put]
    have both : Counted (h.added ⟨1,newSize,keptData t (min newSize b.mSize) h.next b.data⟩)
        (plus (plus refs (some h.next)) (some sb)) := by
      rw [plus_comm]
      exact added_counted counted rfl
    apply Safe.bind (release_safe both)
    intro released left
    have unowned : refs h.next = 0 := by
      have := counted.unowned_next
      unfold plus at this
      omega
    obtain ⟨later,there,size,data⟩ := left.2 h.next _ (by simp) (added_get h _)
    refine safe_ok ⟨⟨left.1,unowned,fits,later,there,size,?_⟩,?_⟩
    · intro count fits inside
      rw [data]
      exact slice_keptData t h.next b.data (le_min fits inside)
    · apply Kept.trans ((added_kept counted).fewer (le_plus refs (some sb)))
      exact left.2.fewer (le_plus refs (some h.next))

end Counting

end SemcMsm7x30.Vectors

import SemcMsm7x30.Comparison
import SemcMsm7x30.VectorRanges

namespace SemcMsm7x30.Vectors
open RawMemory PartialMachine Comparison

def ssize_t (n : Nat) : Int := ((n : Int)+2^31)%2^32-2^31

def PTRDIFF_MAX : Nat := 2^31-1

-- malloc returns no block larger than that.
def Addressable {α : Type} (h : Heap α) : Prop :=
  ∀ sb b, h.buffers sb = some b → b.mSize ≤ PTRDIFF_MAX

section Code
variable {α : Type} (t : ItemType α) (cmp : α → α → Int)

def readItem (h : Heap α) (array : Option Nat) (index : Nat) : Run α :=
  match array with
  | none => .error .fault
  | some sb => do
    let b ← deref h sb
    if (index+1)*t.mItemSize ≤ b.mSize then pure (b.data index) else .error .fault

def shiftItem (h : Heap α) (sb curr : Nat) : Run (Heap α) := do
  let h ← _do_destroy t h sb (curr+1) 1
  _do_copy t h sb (curr+1) (some sb) curr 1

def shiftItems (h : Heap α) (sb : Nat) (temp : α) : Nat → Run (Heap α × Nat)
  | 0 => do
    let h ← shiftItem t h sb 0
    pure (h,0)
  | j+1 => do
    let h ← shiftItem t h sb (j+1)
    let curr ← readItem t h (some sb) j
    if 0 < cmp curr temp then shiftItems h sb temp j else pure (h,j+1)

def insertItem (h : Heap α) (sb i : Nat) : Run (Heap α) := do
  let temp ← readItem t h (some sb) i
  let (h,next) ← shiftItems t cmp h sb temp (i-1)
  let h ← _do_destroy t h sb next 1
  writeItems t h sb next [temp]

-- Where the array is still shared it is detached; `temp` is whether the pointer
-- is set, and malloc succeeds.
def detach (h : Heap α) (this : VectorImpl) (array : Option Nat) (temp : Bool) :
    Run (Heap α × VectorImpl × Option Nat) :=
  if temp then pure (h,this,array)
  else do
    let (h,this) ← editArrayImpl t h this
    pure (h,this,this.mStorage)

def sortFrom : Nat → Nat → Heap α → VectorImpl → Option Nat → Bool → Run (Heap α × VectorImpl × Status)
  | 0,_,h,this,_,_ => pure (h,this,.value 0)
  | left+1,i,h,this,array,temp => do
    let item ← readItem t h array i
    let curr ← readItem t h array (i-1)
    if 0 < cmp curr item then do
      let (h,this,array) ← detach t h this array temp
      match array with
      | none => pure (h,this,.NO_MEMORY)
      | some sb =>
        let h ← insertItem t cmp h sb i
        sortFrom left (i+1) h this array true
    else sortFrom left (i+1) h this array temp

def sort (h : Heap α) (this : VectorImpl) : Run (Heap α × VectorImpl × Status) :=
  let count := ssize_t this.mCount
  if 1 < count then sortFrom t cmp (count-1).toNat 1 h this this.mStorage false
  else pure (h,this,.value 0)

end Code

section Items
variable {α : Type} {t : ItemType α} {cmp : α → α → Int} {others : Nat → Nat} {h : Heap α} {v : VectorImpl}
  {sb : Nat}

theorem readItem_eq (fit : Fit t others h v) {index : Nat} (within : index < v.mCount) :
    ∃ value, (items h v)[index]? = some value ∧ readItem t h v.mStorage index = .ok value := by
  cases storage : v.mStorage with
  | none =>
    have empty := fit.empty storage
    omega
  | some sb =>
    obtain ⟨b,found,bounded⟩ := fit.found storage
    have inside : (index+1)*t.mItemSize ≤ b.mSize := (Nat.mul_le_mul_right _ within).trans bounded
    refine ⟨b.data index,?_,?_⟩
    · rw [items_some storage found]
      simp [slice,within]
    · simp only [readItem,deref_some found,ok_bind]
      exact if_pos inside

theorem readItem_finishes (h : Heap α) (array : Option Nat) (index : Nat) :
    Finishes (readItem t h array index) := by
  unfold readItem
  split
  · exact finishes_fault
  · rename_i sb
    apply (deref_finishes h sb).bind
    intro b _
    apply finishes_ite
    · exact fun _ => finishes_ok
    · exact fun _ => finishes_fault

theorem overwrite_safe (fit : Fit t others h v) (alone : Alone others v) (storage : v.mStorage = some sb)
    {index : Nat} (within : index < v.mCount) {write : Heap α → Run (Heap α)} {value : α}
    (writes : ∀ next left, Became t others h ((items h v).take index ++ [left] ++ (items h v).drop (index+1))
      next v → write next = writeItems t next sb index [value]) :
    Safe (_do_destroy t h sb index 1 >>= write) fun last =>
      Became t others h ((items h v).set index value) last v := by
  have length := fit.length
  have slot : index+1 ≤ v.mCount := within
  apply Safe.bind (destroy_became fit alone storage slot)
  rintro next ⟨left,one,destroyed⟩
  obtain ⟨junk,rfl⟩ := List.length_eq_one_iff.mp one
  rw [writes next junk destroyed]
  apply (write_became destroyed.fit destroyed.alone storage slot).mono
  intro last written
  rw [destroyed.items,List.length_singleton,splice_one _ _ _ (by omega)] at written
  exact written.after destroyed.kept

theorem shiftItem_safe (fit : Fit t others h v) (alone : Alone others v) (storage : v.mStorage = some sb)
    {curr : Nat} (within : curr+1 < v.mCount) {value : α} (here : (items h v)[curr]? = some value) :
    Safe (shiftItem t h sb curr) fun last =>
      Became t others h ((items h v).set (curr+1) value) last v := by
  apply overwrite_safe fit alone storage within
  intro next left destroyed
  obtain ⟨b,found,bounded⟩ := destroyed.fit.found storage
  have inside : (curr+1)*t.mItemSize ≤ b.mSize := (Nat.mul_le_mul_right _ (by omega)).trans bounded
  have same : b.data curr = value := by
    have now := congrArg (fun l => l[curr]?) (items_some storage found)
    have front : curr < ((items h v).take (curr+1)).length := by
      rw [List.length_take,fit.length]
      omega
    simp only [destroyed.items,List.append_assoc] at now
    rw [List.getElem?_append_left front,List.getElem?_take_of_lt (by omega),here] at now
    simpa [slice,show curr < v.mCount by omega] using now.symm
  simp only [_do_copy,readItems_eq found inside,ok_bind]
  rw [← same]
  rfl

-- The sorted items with a free slot among them, and the items still to come.
def holed (sorted : List α) (place : Nat) (hole : α) (rest : List α) : List α :=
  sorted.take place ++ hole :: (sorted.drop place ++ rest)

theorem holed_length (sorted : List α) {place : Nat} (hole : α) (rest : List α)
    (within : place ≤ sorted.length) :
    (holed sorted place hole rest).length = sorted.length+1+rest.length := by
  simp [holed]
  omega

theorem holed_set (sorted : List α) {place : Nat} (hole value : α) (rest : List α)
    (within : place ≤ sorted.length) :
    (holed sorted place hole rest).set place value = holed sorted place value rest := by
  have front : (sorted.take place).length = place := List.length_take_of_le within
  rw [holed,List.set_append_right _ _ front.le,front,Nat.sub_self,List.set_cons_zero]
  rfl

theorem holed_shift (sorted : List α) {place : Nat} {value : α} (hole : α) (rest : List α)
    (here : sorted[place]? = some value) :
    (holed sorted (place+1) hole rest)[place]? = some value ∧
      (holed sorted (place+1) hole rest).set (place+1) value = holed sorted place value rest := by
  obtain ⟨within,same⟩ := List.getElem?_eq_some_iff.mp here
  have split : sorted.take (place+1) = sorted.take place ++ [value] := by
    rw [List.take_add_one,here]
    rfl
  have rest' : sorted.drop place = value :: sorted.drop (place+1) := by
    rw [← same,List.getElem_cons_drop]
  constructor
  · have front : place < (sorted.take (place+1)).length := by
      rw [List.length_take]
      omega
    rw [holed,List.getElem?_append_left front,List.getElem?_take_of_lt (by omega),here]
  · rw [holed_set _ _ _ _ within,holed,holed,split,rest',List.append_assoc]
    rfl

theorem shiftItem_holed {sorted rest : List α} {curr : Nat} {hole value : α} (fit : Fit t others h v)
    (alone : Alone others v) (storage : v.mStorage = some sb)
    (held : items h v = holed sorted (curr+1) hole rest) (here : sorted[curr]? = some value) :
    Safe (shiftItem t h sb curr) fun next =>
      Became t others h (holed sorted curr value rest) next v := by
  have within := (List.getElem?_eq_some_iff.mp here).1
  have length := fit.length
  rw [held,holed_length _ _ _ (by omega)] at length
  obtain ⟨there,moved⟩ := holed_shift sorted hole rest here
  rw [← held] at there moved
  rw [← moved]
  exact shiftItem_safe fit alone storage (by omega) there

theorem shiftItem_finishes (h : Heap α) (sb curr : Nat) : Finishes (shiftItem t h sb curr) := by
  apply (do_destroy_finishes h sb (curr+1) 1).bind
  intro next _
  exact do_copy_finishes next sb (curr+1) (some sb) curr 1

theorem shiftItems_finishes (h : Heap α) (sb : Nat) (temp : α) (j : Nat) :
    Finishes (shiftItems t cmp h sb temp j) := by
  induction j generalizing h with
  | zero =>
    apply (shiftItem_finishes h sb 0).bind
    intro next _
    exact finishes_ok
  | succ j ih =>
    apply (shiftItem_finishes h sb (j+1)).bind
    intro next _
    apply (readItem_finishes next (some sb) j).bind
    intro curr _
    apply finishes_ite
    · exact fun _ => ih next
    · exact fun _ => finishes_ok

theorem shiftItems_safe {sorted rest : List α} {temp : α} {curr : Nat} {hole : α}
    (fit : Fit t others h v) (alone : Alone others v) (storage : v.mStorage = some sb)
    (held : items h v = holed sorted (curr+1) hole rest) (within : curr < sorted.length)
    (above : ∀ y ∈ sorted.drop curr, 0 < cmp y temp) :
    Safe (shiftItems t cmp h sb temp curr) fun result => result.2 ≤ curr ∧
      (∃ left, Became t others h (holed sorted result.2 left rest) result.1 v) ∧
      (∀ y ∈ sorted.drop result.2, 0 < cmp y temp) ∧
      (result.2 = 0 ∨ ∃ place last, result.2 = place+1 ∧ sorted[place]? = some last ∧
        cmp last temp ≤ 0) := by
  induction curr generalizing h hole with
  | zero =>
    apply Safe.bind (shiftItem_holed fit alone storage held (List.getElem?_eq_getElem within))
    intro next became
    exact ⟨le_rfl,⟨_,became⟩,above,.inl rfl⟩
  | succ j ih =>
    apply Safe.bind (shiftItem_holed fit alone storage held (List.getElem?_eq_getElem within))
    intro next became
    have front : sorted[j]? = some (sorted.get ⟨j,by omega⟩) := List.getElem?_eq_getElem (by omega)
    have inside : j < v.mCount := by
      rw [← became.fit.length,became.items,holed_length _ _ _ (by omega)]
      omega
    obtain ⟨value,there,read⟩ := readItem_eq became.fit inside
    rw [became.items,(holed_shift sorted _ rest front).1] at there
    have same : sorted.get ⟨j,by omega⟩ = value := Option.some.inj there
    rw [same] at front
    rw [storage] at read
    rw [read,ok_bind]
    apply safe_ite
    · intro larger
      have more : ∀ y ∈ sorted.drop j, 0 < cmp y temp := by
        intro y member
        rw [← List.getElem_cons_drop (by omega : j < sorted.length)] at member
        obtain rfl | later := List.mem_cons.mp member
        · rw [← same] at larger
          exact larger
        · exact above y later
      apply (ih became.fit became.items (by omega) more).mono
      rintro result ⟨least,⟨left,became'⟩,passed,stopped⟩
      exact ⟨by omega,⟨left,became'.after became.kept⟩,passed,stopped⟩
    · intro most
      exact ⟨le_rfl,⟨_,became⟩,above,.inr ⟨j,value,rfl,front,by omega⟩⟩

theorem insertItem_finishes (h : Heap α) (sb i : Nat) : Finishes (insertItem t cmp h sb i) := by
  apply (readItem_finishes h (some sb) i).bind
  intro temp _
  apply (shiftItems_finishes h sb temp (i-1)).bind
  rintro ⟨next,place⟩ _
  apply (do_destroy_finishes next sb place 1).bind
  intro cleared _
  exact writeItems_finishes cleared sb place [temp]

theorem shiftItem_granted (granted : Granted h) (sb curr : Nat) : Yields (shiftItem t h sb curr) Granted := by
  apply (do_destroy_granted granted sb (curr+1) 1).bind
  intro next destroyed
  exact do_copy_granted destroyed sb (curr+1) (some sb) curr 1

theorem shiftItems_granted (granted : Granted h) (sb : Nat) (temp : α) (j : Nat) :
    Yields (shiftItems t cmp h sb temp j) fun result => Granted result.1 := by
  induction j generalizing h with
  | zero =>
    apply (shiftItem_granted granted sb 0).bind
    intro next shifted
    exact yields_ok shifted
  | succ j ih =>
    apply (shiftItem_granted granted sb (j+1)).bind
    intro next shifted
    apply yields_self.bind
    intro curr _
    apply yields_ite
    · exact fun _ => ih shifted
    · exact fun _ => yields_ok shifted

theorem insertItem_granted (granted : Granted h) (sb i : Nat) : Yields (insertItem t cmp h sb i) Granted := by
  apply yields_self.bind
  intro temp _
  apply (shiftItems_granted granted sb temp (i-1)).bind
  rintro ⟨next,place⟩ shifted
  apply (do_destroy_granted shifted sb place 1).bind
  intro cleared destroyed
  exact writeItems_granted destroyed sb place [temp]

theorem insertItem_safe (order : TotalPreorder cmp) {before sorted rest : List α} {item last : α} {i : Nat}
    (fit : Fit t others h v) (alone : Alone others v) (storage : v.mStorage = some sb)
    (held : items h v = sorted ++ item :: rest) (count : sorted.length = i+1)
    (known : StableSort cmp before sorted) (front : sorted[i]? = some last) (larger : 0 < cmp last item) :
    Safe (insertItem t cmp h sb (i+1)) fun next => ∃ l, StableSort cmp (before ++ [item]) l ∧
      Became t others h (l ++ rest) next v := by
  have length := fit.length
  rw [held] at length
  simp only [List.length_append,List.length_cons] at length
  obtain ⟨value,there,read⟩ := readItem_eq fit (by omega : i+1 < v.mCount)
  rw [held,← count,List.getElem?_append_right le_rfl,Nat.sub_self,List.getElem?_cons_zero] at there
  cases there
  rw [storage] at read
  have whole : items h v = holed sorted (i+1) item rest := by
    rw [held,holed,← count,List.take_length,List.drop_length]
    rfl
  have single : sorted.drop i = [last] := by
    obtain ⟨within,same⟩ := List.getElem?_eq_some_iff.mp front
    rw [← List.getElem_cons_drop within,same,← count,List.drop_length]
  have above : ∀ y ∈ sorted.drop i, 0 < cmp y item := by
    rw [single]
    intro y member
    rw [List.mem_singleton.mp member]
    exact larger
  simp only [insertItem,read,ok_bind,Nat.add_sub_cancel]
  apply Safe.bind (shiftItems_safe fit alone storage whole (by omega) above)
  rintro ⟨next,place⟩ ⟨least,⟨left,became⟩,passed,stopped⟩
  simp only at least became passed stopped
  have below : ∀ y ∈ sorted.take place, cmp y item ≤ 0 := by
    obtain rfl | ⟨start,stop,rfl,there,most⟩ := stopped
    · intro y member
      cases member
    · exact below_of_last order known.ordered there most
  have inside : place < v.mCount := by omega
  apply (overwrite_safe became.fit became.alone storage inside fun _ _ _ => rfl).mono
  intro final written
  rw [became.items,holed_set _ _ _ _ (by omega)] at written
  refine ⟨sorted.take place ++ item :: sorted.drop place,insert_stable order known below passed,?_⟩
  have joined : holed sorted place item rest =
      sorted.take place ++ item :: sorted.drop place ++ rest := by
    rw [holed,List.append_assoc]
    rfl
  rw [← joined]
  exact written.after became.kept

end Items

structure Sorted {α : Type} (t : ItemType α) (cmp : α → α → Int) (others : Nat → Nat) (h : Heap α)
    (v : VectorImpl) (next : Heap α) (w : VectorImpl) : Prop where
  fit : Fit t others next w
  kept : Kept others h next
  sorted : StableSort cmp (items h v) (items next w)
  same : Ordered cmp (items h v) → next = h ∧ w = v

section Loops
variable {α : Type} {t : ItemType α} {cmp : α → α → Int} {others : Nat → Nat} {start h : Heap α}
  {begun v : VectorImpl}

structure Halfway (t : ItemType α) (cmp : α → α → Int) (others : Nat → Nat) (start : Heap α)
    (begun : VectorImpl) (i : Nat) (h : Heap α) (v : VectorImpl) (temp : Bool) : Prop where
  fit : Fit t others h v
  granted : Granted h
  kept : Kept others start h
  held : ∃ sorted, items h v = sorted ++ (items start begun).drop i ∧
    StableSort cmp ((items start begun).take i) sorted
  alone : temp = true → Alone others v ∧ ¬Ordered cmp (items start begun)
  untouched : temp = false → h = start ∧ v = begun

theorem detach_eq (fit : Fit t others h v) (granted : Granted h) {temp : Bool}
    (alone : temp = true → Alone others v) :
    ∃ next w, detach t h v v.mStorage temp = .ok (next,w,w.mStorage) ∧
      Became t others h (items h v) next w ∧ Granted next ∧ w.mCount = v.mCount := by
  cases temp with
  | true => exact ⟨h,v,rfl,⟨fit,kept_refl others h,alone rfl,rfl⟩,granted,rfl⟩
  | false =>
    obtain ⟨⟨next,w⟩,ran,became,count,_⟩ := (editArrayImpl_safe fit).done (editArrayImpl_finishes granted v)
    have granted' := (editArrayImpl_granted granted).result ran
    refine ⟨next,w,?_,became,granted',count⟩
    simp only [detach,ran,ok_bind]
    rfl

theorem not_ordered {l : List α} {i : Nat} {first second : α} (here : l[i]? = some first)
    (behind : l[i+1]? = some second) (larger : 0 < cmp first second) : ¬Ordered cmp l := by
  intro ordered
  obtain ⟨within,rfl⟩ := List.getElem?_eq_some_iff.mp here
  obtain ⟨within',rfl⟩ := List.getElem?_eq_some_iff.mp behind
  have most := List.pairwise_iff_getElem.mp ordered i (i+1) within within' (by omega)
  omega

theorem sortFrom_sorts (order : TotalPreorder cmp) {left i : Nat} {temp : Bool}
    (halfway : Halfway t cmp others start begun (i+1) h v temp)
    (length : (items start begun).length = i+1+left) :
    ∃ next w, sortFrom t cmp left (i+1) h v v.mStorage temp = .ok (next,w,.value 0) ∧
      Sorted t cmp others start begun next w := by
  induction left generalizing i h v temp with
  | zero =>
    obtain ⟨sorted,held,known⟩ := halfway.held
    rw [List.drop_of_length_le (by omega),List.append_nil] at held
    rw [List.take_of_length_le (by omega)] at known
    refine ⟨h,v,rfl,halfway.fit,halfway.kept,held ▸ known,?_⟩
    intro ordered
    cases temp with
    | false => exact halfway.untouched rfl
    | true => exact absurd ordered (halfway.alone rfl).2
  | succ left ih =>
    obtain ⟨sorted,held,known⟩ := halfway.held
    have count : sorted.length = i+1 := by
      rw [known.perm.length_eq,List.length_take]
      omega
    obtain ⟨item,next'⟩ : ∃ item, (items start begun)[i+1]? = some item :=
      ⟨_,List.getElem?_eq_getElem (by omega)⟩
    have more : (items start begun).take (i+1+1) = (items start begun).take (i+1) ++ [item] := by
      rw [List.take_add_one,next']
      rfl
    have rest : (items start begun).drop (i+1) = item :: (items start begun).drop (i+1+1) := by
      obtain ⟨within,same⟩ := List.getElem?_eq_some_iff.mp next'
      rw [← same,List.getElem_cons_drop]
    rw [rest] at held
    have total := halfway.fit.length
    rw [held] at total
    simp only [List.length_append,List.length_cons,List.length_drop] at total
    obtain ⟨_,there,read⟩ := readItem_eq halfway.fit (by omega : i+1 < v.mCount)
    rw [held,← count,List.getElem?_append_right le_rfl,Nat.sub_self,List.getElem?_cons_zero] at there
    cases there
    obtain ⟨last,here,read'⟩ := readItem_eq halfway.fit (by omega : i < v.mCount)
    have front := here
    rw [held,List.getElem?_append_left (by omega)] at front
    simp only [sortFrom,read,Nat.add_sub_cancel,read',ok_bind]
    by_cases larger : 0 < cmp last item
    · rw [if_pos larger]
      obtain ⟨detached,w,ran,became,granted,_⟩ := detach_eq halfway.fit halfway.granted
        fun set => (halfway.alone set).1
      have notOrdered : ¬Ordered cmp (items start begun) := by
        cases temp with
        | true => exact (halfway.alone rfl).2
        | false =>
          obtain ⟨rfl,rfl⟩ := halfway.untouched rfl
          exact not_ordered here next' larger
      cases storage : w.mStorage with
      | none =>
        have empty := became.fit.empty storage
        omega
      | some sb =>
        obtain ⟨final,inserted,l,stable,became'⟩ := (insertItem_safe order became.fit became.alone storage
          (became.items.trans held) count known front larger).done (insertItem_finishes detached sb (i+1))
        have granted' := (insertItem_granted granted sb (i+1)).result inserted
        simp only [ran,ok_bind,storage,inserted]
        rw [← storage]
        apply ih ?_ (by omega)
        refine ⟨became'.fit,granted',halfway.kept.trans (became.kept.trans became'.kept),
          ⟨l,became'.items,?_⟩,fun _ => ⟨became'.alone,notOrdered⟩,by simp⟩
        rw [more]
        exact stable
    · rw [if_neg larger]
      apply ih ?_ (by omega)
      refine ⟨halfway.fit,halfway.granted,halfway.kept,⟨sorted ++ [item],?_,?_⟩,halfway.alone,
        halfway.untouched⟩
      · rw [held,List.append_assoc]
        rfl
      · have all : sorted.take (i+1) = sorted := List.take_of_length_le count.le
        have none : sorted.drop (i+1) = [] := List.drop_eq_nil_of_le count.le
        have below := below_of_last order known.ordered front (by omega : cmp last item ≤ 0)
        have inserted := insert_stable order known below (by rw [none]; simp)
        rw [all,none] at inserted
        rw [more]
        exact inserted

end Loops

section Vectors
variable {α : Type} {t : ItemType α} {cmp : α → α → Int} {others : Nat → Nat} {h : Heap α} {v : VectorImpl}

theorem ssize_t_small {n : Nat} (small : n < 2^31) : ssize_t n = n := by
  unfold ssize_t
  omega

theorem Fit.addressable (fit : Fit t others h v) (limited : Addressable h) : v.mCount < 2^31 := by
  have once : v.mCount ≤ v.mCount*t.mItemSize := Nat.le_mul_of_pos_right _ t.positive
  cases storage : v.mStorage with
  | none =>
    have empty := fit.empty storage
    omega
  | some sb =>
    obtain ⟨b,found,bounded⟩ := fit.found storage
    have limit : b.mSize ≤ 2^31-1 := limited sb b found
    omega

theorem sort_eq (order : TotalPreorder cmp) (fit : Fit t others h v) (granted : Granted h)
    (limited : Addressable h) :
    ∃ next w, sort t cmp h v = .ok (next,w,.value 0) ∧ Sorted t cmp others h v next w := by
  have length := fit.length
  unfold sort
  rw [ssize_t_small (fit.addressable limited)]
  by_cases some : 1 < (v.mCount : Int)
  · rw [if_pos some]
    have begins : StableSort cmp ((items h v).take 1) ((items h v).take 1) := by
      apply stableSort_self
      obtain ⟨first,rest,whole⟩ := List.exists_cons_of_length_pos (by omega : 0 < (items h v).length)
      rw [whole,List.take_succ_cons,List.take_zero]
      exact List.pairwise_singleton _ first
    apply sortFrom_sorts order ⟨fit,granted,kept_refl others h,?_,by simp,fun _ => ⟨rfl,rfl⟩⟩ (by omega)
    exact ⟨(items h v).take 1,(List.take_append_drop 1 _).symm,begins⟩
  · rw [if_neg some]
    have ordered : Ordered cmp (items h v) := by
      apply List.pairwise_iff_getElem.mpr
      intro i j first second before
      omega
    exact ⟨h,v,rfl,fit,kept_refl others h,stableSort_self ordered,fun _ => ⟨rfl,rfl⟩⟩

end Vectors

theorem sort_stable {α : Type} (t : ItemType α) {cmp : α → α → Int} (order : TotalPreorder cmp)
    {ops : List (Op α)} {w : World α} (allowed : Obeys (machine t) Allowed World.initial ops)
    (ran : run (machine t) World.initial ops = some w) (limited : Addressable w.heap)
    {this : Nat} {v : VectorImpl} (found : w.vectors[this]? = some v) :
    ∃ next changed, sort t cmp w.heap v = .ok (next,changed,.value 0) ∧
      StableSort cmp (items w.heap v) (items next changed) ∧
      contents ⟨next,w.vectors.set this changed⟩ = (contents w).set this (items next changed) ∧
      (Ordered cmp (items w.heap v) → next = w.heap ∧ changed = v) ∧
      Sound t ⟨next,w.vectors.set this changed⟩ := by
  obtain ⟨sound,_⟩ := run_refines initial_sound allowed ran
  have granted := run_granted ran
  obtain ⟨heap,vectors⟩ := w
  obtain ⟨before,after,rfl,rfl⟩ := focus found
  obtain ⟨next,changed,sorted,result⟩ := sort_eq order sound.fit granted limited
  obtain ⟨sound',same⟩ := focus_sound sound result.fit result.kept
  simp only [set_focus]
  exact ⟨next,changed,sorted,result.sorted,same,result.same,sound'⟩

def byTens (a b : Nat) : Int := a/10-b/10

theorem byTens_order : TotalPreorder byTens := by
  constructor
  · intro a b
    unfold byTens
    omega
  · intro a b c
    unfold byTens
    omega

def unsorted : List (Op Nat) :=
  [.construct,.edit 0 (.appendArray [21,13,22,11,35,12]),.copy 0]

theorem unsorted_allowed : Obeys (machine words) Allowed World.initial unsorted :=
  obeys_step rfl trivial (obeys_step rfl ⟨_,rfl,trivial⟩ (obeys_step rfl (Nat.lt_succ_self 0) trivial))

def sortUnsorted : Option (Nat × Option Nat × Status × List (List Nat)) := do
  let w ← run (machine words) World.initial unsorted
  let v ← w.vectors[0]?
  let (next,changed,status) ← (sort words byTens w.heap v).toOption
  pure (w.heap.next,(w.heap.buffers 0).map (·.mSize),status,contents ⟨next,w.vectors.set 0 changed⟩)

theorem sortUnsorted_eq : sortUnsorted =
    some (1,some 40,.value 0,[[13,11,12,21,22,35],[21,13,22,11,35,12]]) := by decide +kernel

theorem sort_stable_copied :
    ∃ w v next changed, run (machine words) World.initial unsorted = some w ∧ w.vectors[0]? = some v ∧
      sort words byTens w.heap v = .ok (next,changed,.value 0) ∧
      StableSort byTens (items w.heap v) (items next changed) ∧
      contents ⟨next,w.vectors.set 0 changed⟩ = [[13,11,12,21,22,35],[21,13,22,11,35,12]] := by
  have computed := sortUnsorted_eq
  simp only [sortUnsorted,bind,pure,Option.bind_eq_some_iff] at computed
  obtain ⟨w,ran,v,found,⟨next,changed,status⟩,sorted,same⟩ := computed
  simp only [Option.some.injEq,Prod.mk.injEq] at same
  obtain ⟨one,size,_,left⟩ := same
  obtain ⟨sound,_⟩ := run_refines initial_sound unsorted_allowed ran
  have limited : Addressable w.heap := by
    intro sb b present
    have old := sound.counted.old sb b present
    obtain rfl : sb = 0 := by omega
    rw [present] at size
    have bytes : b.mSize = 40 := Option.some.inj size
    unfold PTRDIFF_MAX
    omega
  obtain ⟨next',changed',ran',stable,_⟩ :=
    sort_stable words byTens_order unsorted_allowed ran limited found
  rw [ran'] at sorted
  cases sorted
  exact ⟨w,v,_,_,ran,found,ran',stable,left⟩

end SemcMsm7x30.Vectors

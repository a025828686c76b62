import SemcMsm7x30.VectorSort

namespace SemcMsm7x30.Vectors.SortedVectorImpl
open RawMemory PartialMachine Comparison

section Code
variable {α : Type} (t : ItemType α) (cmp : α → α → Int)

-- The loop of _indexOrderOf: an index, none for NAME_NOT_FOUND, and the order.
def search (h : Heap α) (a : Option Nat) (item : α) : Nat → Int → Int → Run (Option Nat × Nat)
  | 0,_,_ => .error .fault
  | rounds+1,l,hi =>
    if l ≤ hi then do
      let mid := l+(hi-l)/2
      let curr ← readItem t h a mid.toNat
      let c := cmp curr item
      if c = 0 then pure (some mid.toNat,mid.toNat)
      else if c < 0 then search h a item rounds (mid+1) hi
      else search h a item rounds l (mid-1)
    else pure (none,l.toNat)

-- size()-1 is a size_t; the loop has at most size() rounds.
def _indexOrderOf (h : Heap α) (this : VectorImpl) (item : α) : Run (Option Nat × Nat) :=
  search t cmp h this.mStorage item (this.mCount+1) 0 (ssize_t ((this.mCount+(2^32-1))%2^32))

def indexOf (h : Heap α) (this : VectorImpl) (item : α) : Run (Option Nat) := do
  let (index,_) ← _indexOrderOf t cmp h this item
  pure index

def orderOf (h : Heap α) (this : VectorImpl) (item : α) : Run Nat := do
  let (_,order) ← _indexOrderOf t cmp h this item
  pure order

-- An item that lies in its own place already is written there again.
def add (h : Heap α) (this : VectorImpl) (item : α) : Run (Heap α × VectorImpl × Status) := do
  let (index,order) ← _indexOrderOf t cmp h this item
  match index with
  | none => insertAt t h this (some item) order 1
  | some index => replaceAt t h this (some item) index

def negative : Status → Bool
  | .value n => ssize_t n < 0
  | _ => true

def mergeFrom (buffer : Option Nat) : Nat → Nat → Heap α → VectorImpl →
    Run (Heap α × VectorImpl × Status)
  | 0,_,h,this => pure (h,this,.value 0)
  | left+1,i,h,this => do
    let item ← readItem t h buffer i
    let (h,this,err) ← add t cmp h this item
    if negative err then pure (h,this,err) else mergeFrom buffer left (i+1) h this

def merge (h : Heap α) (this vector : VectorImpl) : Run (Heap α × VectorImpl × Status) :=
  if vector.mCount = 0 then pure (h,this,.value 0)
  else mergeFrom t cmp vector.mStorage vector.mCount 0 h this

def remove (h : Heap α) (this : VectorImpl) (item : α) : Run (Heap α × VectorImpl × Option Nat) := do
  let i ← indexOf t cmp h this item
  match i with
  | none => pure (h,this,none)
  | some index => do
    let (h,this,_) ← removeItemsAt t h this index 1
    pure (h,this,some index)

end Code

section Answers
variable {α : Type} {t : ItemType α} {others : Nat → Nat} {h : Heap α} {v : VectorImpl}

theorem grow_count (h : Heap α) (v : VectorImpl) (place amount : Nat) :
    Yields (_grow t h v place amount) fun result => result.2.1.mCount = v.mCount+amount := by
  unfold _grow
  apply yields_self.bind
  intro new_size sum
  have same := (safe_add_safe v.mCount amount).result sum
  apply yields_self.bind
  intro cap _
  apply yields_self.bind
  rintro ⟨next,w⟩ _
  apply yields_self.bind
  intro location _
  exact yields_ok same

theorem insertWith_count (h : Heap α) (v : VectorImpl) {index amount : Nat}
    {fill : Heap α → Nat → Run (Heap α)} (within : index ≤ v.mCount) :
    Yields (insertWith t h v index amount fill) fun result => result.2.1.mCount = v.mCount+amount := by
  unfold insertWith
  rw [if_neg (by omega)]
  apply (grow_count h v index amount).bind
  rintro ⟨next,w,location⟩ grown
  cases location with
  | none => exact yields_ok grown
  | some sb =>
    apply yields_self.bind
    intro last _
    exact yields_ok grown

theorem insertWith_value (fit : Fit t others h v) {index amount : Nat}
    {fill : Heap α → Nat → Run (Heap α)} (within : index ≤ v.mCount) (some : 0 < amount) :
    Yields (insertWith t h v index amount fill) fun result => result.2.2 = .value index := by
  unfold insertWith
  rw [if_neg (by omega)]
  apply yields_self.bind
  rintro ⟨next,w,location⟩ grown
  obtain ⟨_,_,⟨_,zero⟩ | ⟨sb,present,_⟩⟩ := (grow_safe fit amount within).result grown
  · omega
  · simp only at present
    subst present
    apply yields_self.bind
    intro last _
    exact yields_ok rfl

theorem replaceAt_value (fit : Fit t others h v) (prototype : Option α) {index : Nat}
    (within : index < v.mCount) :
    Yields (replaceAt t h v prototype index) fun result =>
      result.2.2 = .value index ∧ result.2.1.mCount = v.mCount := by
  unfold replaceAt
  rw [if_neg (by omega)]
  apply yields_self.bind
  rintro ⟨next,w,location⟩ edited
  obtain ⟨_,count,sb,present,_⟩ := (editItemLocation_safe fit within).result edited
  simp only at present count
  subst present
  apply yields_self.bind
  intro cleared _
  apply yields_self.bind
  intro last _
  exact yields_ok ⟨rfl,count⟩

end Answers

def Located {α : Type} (cmp : α → α → Int) (x : α) (l : List α) : Option Nat → Nat → Prop
  | none,order => Split cmp x l (l.take order) [] (l.drop order)
  | some i,order => order = i ∧ ∃ y, l[i]? = some y ∧ Split cmp x l (l.take i) [y] (l.drop (i+1))

structure Searched {α : Type} (cmp : α → α → Int) (h : Heap α) (v : VectorImpl) (x : α)
    (index : Option Nat) (place : Nat) : Prop where
  inside : ∀ i, index = some i → i < v.mCount
  within : place ≤ v.mCount
  located : Strict cmp (items h v) → v.mCount < 2^31 → Located cmp x (items h v) index place

section Search
variable {α : Type} {t : ItemType α} {cmp : α → α → Int} {others : Nat → Nat} {h : Heap α} {v : VectorImpl}

-- The binary search, by induction on its rounds: the items in front of `lo` are
-- smaller and those behind `hi` larger. It stays inside for any bounds.
theorem search_eq (order : TotalPreorder cmp) (fit : Fit t others h v) (x : α) {rounds lo : Nat} {hi : Int}
    (low : lo ≤ v.mCount) (high : hi < v.mCount) (some' : 0 < rounds) (enough : hi+1-lo < rounds) :
    ∃ index place, search t cmp h v.mStorage x rounds lo hi = .ok (index,place) ∧
      (∀ i, index = some i → i < v.mCount) ∧ place ≤ v.mCount ∧
      (Strict cmp (items h v) → (lo : Int) ≤ hi+1 → (∀ y ∈ (items h v).take lo, cmp y x < 0) →
        (∀ y ∈ (items h v).drop (hi+1).toNat, 0 < cmp y x) → Located cmp x (items h v) index place) := by
  induction rounds generalizing lo hi with
  | zero => omega
  | succ rounds ih =>
    unfold search
    by_cases more : (lo : Int) ≤ hi
    · rw [if_pos more]
      obtain ⟨mid,middle⟩ : ∃ mid : Nat, (lo : Int)+(hi-lo)/2 = mid :=
        ⟨((lo : Int)+(hi-lo)/2).toNat,by omega⟩
      obtain ⟨curr,there,read⟩ := readItem_eq fit (by omega : mid < v.mCount)
      simp only [middle,Int.toNat_natCast,read,ok_bind]
      obtain less | same | larger := lt_trichotomy (cmp curr x) 0
      · rw [if_neg less.ne,if_pos less]
        obtain ⟨index,place,found,inside,within,located⟩ :=
          ih (by omega : mid+1 ≤ v.mCount) high (by omega) (by omega)
        refine ⟨index,place,by exact_mod_cast found,inside,within,?_⟩
        intro strict ordered below above
        exact located strict (by omega) (strict.smaller order there less) above
      · rw [if_pos same]
        refine ⟨some mid,mid,rfl,?_,by omega,?_⟩
        · rintro _ ⟨⟩
          omega
        · intro strict _ _ _
          exact ⟨rfl,curr,there,strict.found order there same⟩
      · rw [if_neg larger.ne',if_neg (by omega)]
        obtain ⟨index,place,found,inside,within,located⟩ :=
          ih low (by omega : (mid : Int)-1 < v.mCount) (by omega) (by omega)
        refine ⟨index,place,found,inside,within,?_⟩
        intro strict ordered below above
        apply located strict (by omega) below
        rw [Int.sub_add_cancel,Int.toNat_natCast]
        exact strict.larger order there larger
    · rw [if_neg more]
      refine ⟨none,lo,by rw [Int.toNat_natCast]; rfl,by simp,low,?_⟩
      intro strict ordered below above
      obtain rfl : hi = (lo : Int)-1 := by omega
      rw [Int.sub_add_cancel,Int.toNat_natCast] at above
      refine ⟨by rw [List.nil_append,List.take_append_drop],below,by simp,above⟩

theorem ssize_t_last {n : Nat} (small : n < 2^31) : ssize_t ((n+(2^32-1))%2^32) = n-1 := by
  unfold ssize_t
  omega

theorem indexOrderOf_eq (order : TotalPreorder cmp) (fit : Fit t others h v) (x : α) :
    ∃ index place, _indexOrderOf t cmp h v x = .ok (index,place) ∧ Searched cmp h v x index place := by
  have count := fit.small_count
  have high : ssize_t ((v.mCount+(2^32-1))%2^32) < v.mCount := by
    unfold ssize_t
    omega
  obtain ⟨index,place,found,inside,within,located⟩ := search_eq order fit x (Nat.zero_le v.mCount) high
    v.mCount.succ_pos (by omega)
  refine ⟨index,place,found,inside,within,?_⟩
  intro strict small
  have last := ssize_t_last small
  apply located strict (by omega) (by simp)
  rw [last,Int.sub_add_cancel,Int.toNat_natCast,← fit.length,List.drop_length]
  simp

theorem Located.place {x : α} {l : List α} {index : Option Nat} {place : Nat}
    (located : Located cmp x l index place) (within : place ≤ l.length) :
    place = l.countP (cmp · x < 0) := by
  have front : (l.take place).length = place := List.length_take_of_le within
  cases index with
  | none => rw [Split.count_smaller located,front]
  | some i =>
    obtain ⟨rfl,y,there,split⟩ := located
    rw [split.count_smaller,front]

theorem Located.index {x : α} {l : List α} {index : Option Nat} {place : Nat}
    (located : Located cmp x l index place) :
    (index.isSome ↔ ∃ y ∈ l, cmp y x = 0) ∧ ∀ i, index = some i → ∃ y, l[i]? = some y ∧ cmp y x = 0 := by
  cases index with
  | none =>
    refine ⟨⟨by simp,?_⟩,by simp⟩
    rintro ⟨y,member,same⟩
    cases Split.mem_equal located member same
  | some i =>
    obtain ⟨rfl,y,there,split⟩ := located
    have same := split.equal y (List.mem_singleton_self y)
    refine ⟨⟨fun _ => ⟨y,List.mem_of_getElem? there,same⟩,fun _ => rfl⟩,?_⟩
    rintro _ ⟨⟩
    exact ⟨y,there,same⟩

end Search

attribute [local irreducible] ssize_t _indexOrderOf

structure Added {α : Type} (t : ItemType α) (cmp : α → α → Int) (others : Nat → Nat) (h : Heap α)
    (v : VectorImpl) (x : α) (next : Heap α) (w : VectorImpl) (status : Status) : Prop where
  fit : Fit t others next w
  kept : Kept others h next
  least : v.mCount ≤ w.mCount
  most : w.mCount ≤ v.mCount+1
  value : ∃ n, status = .value n ∧ n ≤ v.mCount
  adds : Strict cmp (items h v) → v.mCount < 2^31 → items next w = addTo cmp (items h v) x

section Operations
variable {α : Type} {t : ItemType α} {cmp : α → α → Int} {others : Nat → Nat} {h : Heap α} {v : VectorImpl}

theorem add_safe (order : TotalPreorder cmp) (fit : Fit t others h v) (x : α) :
    Safe (add t cmp h v x) fun result => Added t cmp others h v x result.1 result.2.1 result.2.2 := by
  have length := fit.length
  obtain ⟨index,place,found,searched⟩ := indexOrderOf_eq order fit x
  simp only [add,found,ok_bind]
  cases index with
  | none =>
    apply (((insertAt_safe fit (some x) place 1).also (insertWith_count h v searched.within)).also
      (insertWith_value fit searched.within Nat.one_pos)).mono
    rintro ⟨next,w,status⟩ ⟨⟨⟨fit',kept,edited⟩,one⟩,answer⟩
    have within := searched.within
    simp only at one answer
    refine ⟨fit',kept,one ▸ Nat.le_succ v.mCount,one.le,⟨place,answer,searched.within⟩,?_⟩
    intro strict small
    have edited := edited fun none => absurd none Nat.one_ne_zero
    rw [ListEdit,if_pos (by omega)] at edited
    obtain ⟨values,made,same⟩ := edited
    obtain rfl : values = [x] := made
    rw [Split.addTo_eq (searched.located strict small)]
    rw [same,List.append_assoc]
    rfl
  | some i =>
    have below := searched.inside i rfl
    apply ((replaceAt_safe fit (some x) i).also (replaceAt_value fit (some x) below)).mono
    rintro ⟨next,w,status⟩ ⟨⟨fit',kept,edited⟩,answer,one⟩
    simp only at one answer
    refine ⟨fit',kept,one.ge,one.le.trans (Nat.le_succ v.mCount),⟨i,answer,below.le⟩,?_⟩
    intro strict small
    rw [ListEdit,if_pos (by omega)] at edited
    obtain ⟨value,made,same⟩ := edited
    obtain rfl : value = x := List.singleton_inj.mp made
    obtain ⟨_,y,there,split⟩ := searched.located strict small
    rw [split.addTo_eq]
    rw [same,List.set_eq_take_append_cons_drop,if_pos (by omega)]

theorem remove_safe (order : TotalPreorder cmp) (fit : Fit t others h v) (strict : Strict cmp (items h v))
    (small : v.mCount < 2^31) (x : α) :
    Safe (remove t cmp h v x) fun result =>
      Fit t others result.1 result.2.1 ∧ Kept others h result.1 ∧
        items result.1 result.2.1 = removeFrom cmp (items h v) x ∧
        indexOf t cmp h v x = .ok result.2.2 := by
  obtain ⟨index,place,found,searched⟩ := indexOrderOf_eq order fit x
  have index' : indexOf t cmp h v x = .ok index := by
    simp only [indexOf,found,ok_bind]
    rfl
  simp only [remove,index',ok_bind]
  cases index with
  | none =>
    have split : Split cmp x (items h v) _ [] _ := searched.located strict small
    refine ⟨fit,kept_refl others h,?_,rfl⟩
    rw [split.removeFrom_eq,List.take_append_drop]
  | some i =>
    have below := searched.inside i rfl
    apply Safe.bind (removeItemsAt_safe fit (by omega : i+1 ≤ v.mCount))
    rintro ⟨next,w,status⟩ ⟨fit',kept,removed⟩
    obtain ⟨_,y,there,split⟩ := searched.located strict small
    refine ⟨fit',kept,?_,rfl⟩
    rw [split.removeFrom_eq]
    exact removed fun none => absurd none Nat.one_ne_zero

theorem negative_value {n : Nat} (small : n < 2^31) : negative (.value n) = false := by
  have same := ssize_t_small small
  show decide (ssize_t n < 0) = false
  apply decide_eq_false
  omega

theorem readItem_view {source : VectorImpl} (bounded : source.mCount*t.mItemSize ≤ bytes h source)
    {i : Nat} (within : i < source.mCount) :
    ∃ value, (items h source)[i]? = some value ∧ readItem t h source.mStorage i = .ok value := by
  have wide : (i+1)*t.mItemSize ≤ bytes h source := (Nat.mul_le_mul_right _ within).trans bounded
  have positive : 0 < (i+1)*t.mItemSize := Nat.mul_pos i.succ_pos t.positive
  cases storage : source.mStorage with
  | none =>
    simp only [bytes,storage,Option.bind_none,Option.map_none,Option.getD_none] at wide
    omega
  | some sb =>
    cases found : h.buffers sb with
    | none =>
      simp only [bytes,storage,Option.bind_some,found,Option.map_none,Option.getD_none] at wide
      omega
    | some b =>
      rw [bytes_some storage found] at wide
      refine ⟨b.data i,?_,?_⟩
      · rw [items_some storage found]
        simp [slice,within]
      · simp only [readItem,deref_some found,ok_bind]
        exact if_pos wide

end Operations

structure Merged {α : Type} (t : ItemType α) (cmp : α → α → Int) (others : Nat → Nat) (h : Heap α)
    (v : VectorImpl) (added : List α) (next : Heap α) (w : VectorImpl) (status : Status) : Prop where
  fit : Fit t others next w
  kept : Kept others h next
  least : v.mCount ≤ w.mCount
  merges : Strict cmp (items h v) → w.mCount < 2^31 →
    status = .value 0 ∧ items next w = merged cmp (items h v) added

section Merging
variable {α : Type} {t : ItemType α} {cmp : α → α → Int} {others : Nat → Nat} {h : Heap α}
  {v source : VectorImpl}

theorem mergeFrom_safe (order : TotalPreorder cmp) (fit : Fit t others h v)
    (owned : ∀ sb, source.mStorage = some sb → 0 < others sb)
    (bounded : source.mCount*t.mItemSize ≤ bytes h source) {left i : Nat}
    (total : i+left = (items h source).length) (count : source.mCount = (items h source).length) :
    Safe (mergeFrom t cmp source.mStorage left i h v) fun result =>
      Merged t cmp others h v ((items h source).drop i) result.1 result.2.1 result.2.2 := by
  induction left generalizing i h v with
  | zero =>
    refine ⟨fit,kept_refl others h,le_rfl,fun _ _ => ⟨rfl,?_⟩⟩
    rw [List.drop_eq_nil_of_le (by omega)]
    rfl
  | succ left ih =>
    obtain ⟨item,there,read⟩ := readItem_view bounded (by omega : i < source.mCount)
    have rest : (items h source).drop i = item :: (items h source).drop (i+1) := by
      obtain ⟨within,same⟩ := List.getElem?_eq_some_iff.mp there
      rw [← same,List.getElem_cons_drop]
    rw [mergeFrom,read,ok_bind]
    apply Safe.bind (add_safe order fit item)
    rintro ⟨next,w,err⟩ added
    obtain ⟨n,answer,small⟩ := added.value
    obtain ⟨same,wide⟩ := added.kept.view fit.counted owned
    simp only at answer same wide added
    apply safe_ite
    · intro failed
      refine ⟨added.fit,added.kept,added.least,?_⟩
      intro _ inside
      have least := added.least
      simp only at inside
      rw [answer,negative_value (by omega)] at failed
      cases failed
    · intro _
      have again := ih (i := i+1) added.fit (by rwa [wide]) (by rw [same]; omega) (by rw [same]; exact count)
      apply again.mono
      rintro result merged'
      have least := added.least
      have more := merged'.least
      refine ⟨merged'.fit,added.kept.trans merged'.kept,by omega,?_⟩
      intro strict inside
      have adds := added.adds strict (by omega)
      have strict' : Strict cmp (items next w) := by
        rw [adds]
        exact addTo_strict order strict item
      obtain ⟨done,held⟩ := merged'.merges strict' inside
      refine ⟨done,?_⟩
      rw [held,same,adds,rest]
      rfl

theorem editItemLocation_alone (fit : Fit t others h v) (alone : Alone others v) {index : Nat}
    (within : index < v.mCount) : editItemLocation t h v index = .ok (h,v,v.mStorage) := by
  have room : index < bytes h v/t.mItemSize :=
    lt_of_lt_of_le within ((Nat.le_div_iff_mul_le t.positive).mpr fit.bounded)
  have edited : editArrayImpl t h v = .ok (h,v) := by
    unfold editArrayImpl
    cases storage : v.mStorage with
    | none => rfl
    | some sb =>
      obtain ⟨b,found,_⟩ := fit.found storage
      have counted := fit.counted
      rw [storage] at counted
      have only := (onlyOwner_iff counted found).mpr (alone sb storage)
      simp only [deref_some found,ok_bind,if_pos only]
      rfl
  simp only [editItemLocation,capacity_eq fit,ok_bind,if_pos room,edited]
  rfl

theorem replaceAt_alone (fit : Fit t others h v) (alone : Alone others v) (prototype : Option α)
    {index : Nat} (within : index < v.mCount) :
    Yields (replaceAt t h v prototype index) fun result => result.2.1 = v := by
  unfold replaceAt
  rw [if_neg (by omega),editItemLocation_alone fit alone within,ok_bind]
  simp only
  split
  · exact yields_ok rfl
  · apply yields_self.bind
    intro cleared _
    apply yields_self.bind
    intro last _
    exact yields_ok rfl

-- The vector's own items, while nobody shares them, are put where they are.
theorem mergeFrom_self (order : TotalPreorder cmp) (fit : Fit t others h v) (alone : Alone others v)
    (strict : Strict cmp (items h v)) (small : v.mCount < 2^31) {left i : Nat} (total : i+left = v.mCount) :
    Safe (mergeFrom t cmp v.mStorage left i h v) fun result =>
      Fit t others result.1 result.2.1 ∧ Kept others h result.1 ∧ result.2.1 = v ∧
        result.2.2 = .value 0 ∧ items result.1 v = items h v := by
  induction left generalizing i h with
  | zero => exact ⟨fit,kept_refl others h,rfl,rfl,rfl⟩
  | succ left ih =>
    obtain ⟨item,there,read⟩ := readItem_eq fit (by omega : i < v.mCount)
    have member := List.mem_of_getElem? there
    rw [mergeFrom,read,ok_bind]
    have own : Yields (add t cmp h v item) fun result => result.2.1 = v := by
      obtain ⟨index,place,found,searched⟩ := indexOrderOf_eq order fit item
      have located := searched.located strict small
      have some' := located.index.1.mpr ⟨item,member,order.self item⟩
      obtain ⟨j,rfl⟩ := Option.isSome_iff_exists.mp some'
      simp only [add,found,ok_bind]
      exact replaceAt_alone fit alone (some item) (searched.inside j rfl)
    apply Safe.bind ((add_safe order fit item).also own)
    rintro ⟨next,w,err⟩ ⟨added,same⟩
    obtain ⟨n,answer,below⟩ := added.value
    simp only at answer same
    subst same
    have held := added.adds strict small
    rw [addTo_known order strict member] at held
    simp only at held
    have good : negative err ≠ true := by
      rw [answer,negative_value (by omega)]
      exact Bool.false_ne_true
    show Safe (if negative err = true then _ else mergeFrom t cmp w.mStorage left (i+1) next w) _
    rw [if_neg good]
    apply (ih added.fit (by rwa [held]) (by omega)).mono
    rintro result ⟨fit',kept,same,done,left⟩
    exact ⟨fit',added.kept.trans kept,same,done,left.trans held⟩

theorem merge_safe (order : TotalPreorder cmp) (fit : Fit t others h v)
    (owned : ∀ sb, source.mStorage = some sb → 0 < others sb)
    (bounded : source.mCount*t.mItemSize ≤ bytes h source) (count : source.mCount = (items h source).length) :
    Safe (merge t cmp h v source) fun result =>
      Merged t cmp others h v (items h source) result.1 result.2.1 result.2.2 := by
  unfold merge
  apply safe_ite
  · intro empty
    refine ⟨fit,kept_refl others h,le_rfl,fun _ _ => ⟨rfl,?_⟩⟩
    rw [List.eq_nil_of_length_eq_zero (count.symm.trans empty)]
    rfl
  · intro _
    have whole := mergeFrom_safe order fit owned bounded (by omega : 0+source.mCount = _) count
    rwa [List.drop_zero] at whole

theorem merge_self (order : TotalPreorder cmp) (fit : Fit t others h v) (strict : Strict cmp (items h v))
    (small : v.mCount < 2^31) :
    Safe (merge t cmp h v v) fun result =>
      Merged t cmp others h v (items h v) result.1 result.2.1 result.2.2 := by
  by_cases alone : Alone others v
  · unfold merge
    apply safe_ite
    · intro empty
      refine ⟨fit,kept_refl others h,le_rfl,fun _ _ => ⟨rfl,?_⟩⟩
      rw [merged_known order strict fun x member => member]
    · intro _
      apply (mergeFrom_self order fit alone strict small (Nat.zero_add v.mCount)).mono
      rintro ⟨next,w,status⟩ ⟨fit',kept,same,done,left⟩
      simp only at same done left
      subst same
      refine ⟨fit',kept,le_rfl,fun _ _ => ⟨done,?_⟩⟩
      rw [merged_known order strict fun x member => member]
      exact left
  · apply merge_safe order fit ?_ fit.bounded fit.length.symm
    intro sb storage
    by_contra unowned
    apply alone
    intro other same
    cases storage.symm.trans same
    omega

end Merging

end SemcMsm7x30.Vectors.SortedVectorImpl

import SemcMsm7x30.OrderedSet

namespace SemcMsm7x30.Vectors.SortedVectorImpl
open RawMemory PartialMachine Comparison

section Code
variable {α : Type} (t : ItemType α) (cmp : α → α → Int)

-- What do_compare is given a pointer to: behind NULL, and in a slot that holds
-- no item, there is nothing to compare.
def comparedItem (h : Heap α) (v : VectorImpl) (index : Nat) : Run α :=
  if index < v.mCount then readItem t h v.mStorage index else .error .fault

-- The pointer and the size of the other vector are taken before this one grows.
def insertVectorAt (h : Heap α) (this vector : VectorImpl) (index : Nat) :
    Run (Heap α × VectorImpl × Status) :=
  insertWith t h this index vector.mCount fun h sb =>
    _do_copy t h sb index vector.mStorage 0 vector.mCount

def appendVector (h : Heap α) (this vector : VectorImpl) : Run (Heap α × VectorImpl × Status) :=
  insertVectorAt t h this vector this.mCount

def mergeSorted (h : Heap α) (this vector : VectorImpl) : Run (Heap α × VectorImpl × Status) :=
  if vector.mCount = 0 then pure (h,this,.value 0)
  else do
    let last ← comparedItem t h vector ((vector.mCount+(2^32-1))%2^32)
    let first ← comparedItem t h this 0
    if cmp last first ≤ 0 then insertVectorAt t h this vector 0
    else do
      let first ← comparedItem t h vector 0
      let last ← comparedItem t h this ((this.mCount+(2^32-1))%2^32)
      if 0 ≤ cmp first last then appendVector t h this vector
      else merge t cmp h this vector

end Code

attribute [local irreducible] ssize_t _indexOrderOf

def Grantable {α : Type} (t : ItemType α) (n : Nat) : Prop :=
  max kMinVectorCapacity (n+n/2+1)*t.mItemSize+sizeofSharedBuffer ≤ PTRDIFF_MAX

section Slow
variable {α : Type} {t : ItemType α} {cmp : α → α → Int} {others : Nat → Nat} {h : Heap α}
  {v source : VectorImpl} {n : Nat}

theorem Grantable.room (grantable : Grantable t n) : Room t n := by
  unfold Grantable PTRDIFF_MAX at grantable
  unfold Room Allocatable SIZE_MAX
  omega

theorem Grantable.small (grantable : Grantable t n) : n < 2^31 := by
  have once : n+n/2+1 ≤ max kMinVectorCapacity (n+n/2+1)*t.mItemSize :=
    (le_max_right _ _).trans (Nat.le_mul_of_pos_right _ t.positive)
  unfold Grantable PTRDIFF_MAX at grantable
  omega

theorem editArrayImpl_count (h : Heap α) (v : VectorImpl) :
    Yields (editArrayImpl t h v) fun result => result.2.mCount = v.mCount := by
  unfold editArrayImpl
  split
  · exact yields_ok rfl
  · apply yields_self.bind
    intro b _
    apply yields_ite
    · exact fun _ => yields_ok rfl
    · intro _
      apply yields_self.bind
      rintro ⟨editable,added⟩ _
      apply yields_self.bind
      intro copy _
      apply yields_self.bind
      intro last _
      exact yields_ok rfl

theorem replaceAt_count (h : Heap α) (v : VectorImpl) (prototype : Option α) (index : Nat) :
    Yields (replaceAt t h v prototype index) fun result => result.2.1.mCount = v.mCount := by
  have edited : Yields (editItemLocation t h v index) fun result => result.2.1.mCount = v.mCount := by
    apply yields_self.bind
    intro cap _
    apply yields_ite
    · intro _
      apply (editArrayImpl_count h v).bind
      rintro ⟨next,w⟩ count
      exact yields_ok count
    · exact fun _ => yields_ok rfl
  apply yields_ite
  · exact fun _ => yields_ok rfl
  · intro _
    apply edited.bind
    rintro ⟨next,w,location⟩ count
    cases location with
    | none => exact yields_ok count
    | some sb =>
      apply yields_self.bind
      intro cleared _
      apply yields_self.bind
      intro last _
      exact yields_ok count

theorem add_most (h : Heap α) (v : VectorImpl) (x : α) :
    Yields (add t cmp h v x) fun result => result.2.1.mCount ≤ v.mCount+1 := by
  apply yields_self.bind
  rintro ⟨index,place⟩ _
  cases index with
  | some i =>
    apply (replaceAt_count h v (some x) i).mono
    intro result count
    omega
  | none =>
    by_cases within : place ≤ v.mCount
    · apply (insertWith_count h v within).mono
      intro result count
      omega
    · have outside : insertAt t h v (some x) place 1 = .ok (h,v,.BAD_INDEX) := if_pos (by omega)
      show Yields (insertAt t h v (some x) place 1) _
      rw [outside]
      exact Nat.le_succ v.mCount

theorem mergeFrom_finishes (granted : Granted h) (buffer : Option Nat) {left i : Nat}
    (room : Room t (v.mCount+left)) : Finishes (mergeFrom t cmp buffer left i h v) := by
  induction left generalizing i h v with
  | zero => exact finishes_ok
  | succ left ih =>
    apply (readItem_finishes h buffer i).bind
    intro item _
    apply (add_finishes granted item (room.less (by omega))).bind
    rintro ⟨next,w,err⟩ ran
    have granted' := (add_granted granted item).result ran
    have most := (add_most h v item).result ran
    simp only at most granted'
    apply finishes_ite
    · exact fun _ => finishes_ok
    · exact fun _ => ih granted' (room.less (by omega))

theorem mergeFrom_most (buffer : Option Nat) {left i : Nat} :
    Yields (mergeFrom t cmp buffer left i h v) fun result => result.2.1.mCount ≤ v.mCount+left := by
  induction left generalizing i h v with
  | zero => exact yields_ok le_rfl
  | succ left ih =>
    apply yields_self.bind
    intro item _
    apply (add_most h v item).bind
    rintro ⟨next,w,err⟩ most
    simp only at most
    apply yields_ite
    · intro _
      apply yields_ok
      simp only
      omega
    · intro _
      apply ih.mono
      intro result more
      omega

theorem slow_merge (order : TotalPreorder cmp) (fit : Fit t others h v) (granted : Granted h)
    (strict : Strict cmp (items h v)) (length : (items h source).length = source.mCount)
    (bounded : source.mCount*t.mItemSize ≤ bytes h source)
    (owned : source = v ∨ ∀ sb, source.mStorage = some sb → 0 < others sb)
    (grantable : Grantable t (v.mCount+source.mCount)) :
    ∃ next w, merge t cmp h v source = .ok (next,w,.value 0) ∧
      items next w = merged cmp (items h v) (items h source) := by
  have small := grantable.small
  have merges : Safe (merge t cmp h v source) fun result =>
      Merged t cmp others h v (items h source) result.1 result.2.1 result.2.2 := by
    obtain rfl | owned := owned
    · exact merge_self order fit strict (by omega)
    · exact merge_safe order fit owned bounded length.symm
  have most : Yields (merge t cmp h v source) fun result => result.2.1.mCount ≤ v.mCount+source.mCount := by
    apply yields_ite
    · exact fun _ => yields_ok (Nat.le_add_right _ _)
    · exact fun _ => mergeFrom_most source.mStorage
  have finishes : Finishes (merge t cmp h v source) := by
    apply finishes_ite
    · exact fun _ => finishes_ok
    · exact fun _ => mergeFrom_finishes granted source.mStorage grantable.room
  obtain ⟨⟨next,w,status⟩,ran,merged',few⟩ := (merges.also most).done finishes
  obtain ⟨done,held⟩ := merged'.merges strict (lt_of_le_of_lt few small)
  simp only at done held
  exact ⟨next,w,by rw [ran,done],held⟩

end Slow

section Fast
variable {α : Type} {t : ItemType α} {cmp : α → α → Int} {others : Nat → Nat} {h : Heap α}
  {v source : VectorImpl} {n : Nat}

theorem comparedItem_eq (bounded : source.mCount*t.mItemSize ≤ bytes h source) {i : Nat}
    (within : i < source.mCount) :
    ∃ value, (items h source)[i]? = some value ∧ comparedItem t h source i = .ok value := by
  obtain ⟨value,there,read⟩ := readItem_view bounded within
  refine ⟨value,there,?_⟩
  unfold comparedItem
  rw [if_pos within,read]

theorem comparedEnds (bounded : source.mCount*t.mItemSize ≤ bytes h source)
    (length : (items h source).length = source.mCount) (small : source.mCount < 2^31)
    (some' : 0 < source.mCount) :
    ∃ first last, (items h source).head? = some first ∧ (items h source).getLast? = some last ∧
      comparedItem t h source 0 = .ok first ∧
      comparedItem t h source ((source.mCount+(2^32-1))%2^32) = .ok last := by
  have behind : (source.mCount+(2^32-1))%2^32 = source.mCount-1 := by omega
  obtain ⟨first,there,read⟩ := comparedItem_eq bounded some'
  obtain ⟨last,there',read'⟩ := comparedItem_eq bounded (by omega : source.mCount-1 < source.mCount)
  refine ⟨first,last,?_,?_,read,by rw [behind]; exact read'⟩
  · rw [List.head?_eq_getElem?]
    exact there
  · rw [List.getLast?_eq_getElem?,length]
    exact there'

theorem insertVectorAt_safe (fit : Fit t others h v)
    (owned : ∀ sb, source.mStorage = some sb → 0 < others sb)
    (bounded : source.mCount*t.mItemSize ≤ bytes h source)
    (length : (items h source).length = source.mCount) {index : Nat} (within : index ≤ v.mCount)
    (some' : 0 < source.mCount) :
    Safe (insertVectorAt t h v source index) fun result =>
      items result.1 result.2.1 =
        (items h v).take index ++ items h source ++ (items h v).drop index := by
  have inserted : Safe (insertVectorAt t h v source index) fun result =>
      Fit t others result.1 result.2.1 ∧ Kept others h result.1 ∧
        if index ≤ (items h v).length then ∃ values, values = items h source ∧
          items result.1 result.2.1 =
            (items h v).take index ++ values ++ lifted t source.mCount ((items h v).drop index)
        else items result.1 result.2.1 = items h v := by
    apply insertWith_safe fit
    · intro none
      omega
    · intro next w sb kept fit' alone storage inside
      obtain ⟨same,wide⟩ := kept.view fit.counted owned
      cases from' : source.mStorage with
      | none =>
        have none : bytes h source = 0 := by simp [bytes,from']
        have positive := Nat.mul_pos some' t.positive
        omega
      | some sb' =>
        obtain ⟨b,found⟩ := fit.counted.alive
          (lt_of_lt_of_le (owned sb' from') (le_plus others v.mStorage sb'))
        obtain ⟨later,there,size,data⟩ := kept sb' b (owned sb' from') found
        rw [bytes_some from' found,← size] at bounded
        have held : slice later.data 0 source.mCount = items h source := by
          rw [data,items_some from' found]
        have whole : (0+source.mCount)*t.mItemSize ≤ later.mSize := by rwa [Nat.zero_add]
        have read := readItems_eq there whole
        simp only [_do_copy,read,held,ok_bind]
        have slots : index+(items h source).length ≤ w.mCount := by rwa [length]
        have written := write_became fit' alone storage slots
        rw [length] at written
        exact written.mono fun last became => ⟨_,rfl,became⟩
  apply inserted.mono
  rintro result ⟨_,_,edited⟩
  rw [if_pos (by rwa [fit.length]),lifted_some some'] at edited
  obtain ⟨values,rfl,same⟩ := edited
  exact same

theorem insertVectorAt_finishes (granted : Granted h) (v source : VectorImpl) (index : Nat)
    (room : Room t (v.mCount+source.mCount)) : Finishes (insertVectorAt t h v source index) :=
  insertWith_finishes granted v index source.mCount
    (fun next sb => do_copy_finishes next sb index source.mStorage 0 source.mCount) room

end Fast

def MergesAlike {α : Type} (t : ItemType α) (cmp : α → α → Int) (h : Heap α) (v other : VectorImpl) :
    Prop :=
  ∃ next changed n last slow, mergeSorted t cmp h v other = .ok (next,changed,.value n) ∧ n < 2^31 ∧
    merge t cmp h v other = .ok (last,slow,.value 0) ∧ items next changed = items last slow ∧
    items last slow = merged cmp (items h v) (items h other)

-- Nothing is merged, or there is an item to compare with at each end and none of
-- its class at the nearest end of the other vector.
def EndsApart {α : Type} (cmp : α → α → Int) (a b : List α) : Prop :=
  b = [] ∨ ∃ first last first' last', a.head? = some first ∧ a.getLast? = some last ∧
    b.head? = some first' ∧ b.getLast? = some last' ∧ cmp last' first ≠ 0 ∧ cmp first' last ≠ 0

section Ends
variable {α : Type} {cmp : α → α → Int} {a : List α} {x y first last : α}

theorem Strict.from_first (order : TotalPreorder cmp) (strict : Strict cmp a) (begins : a.head? = some first)
    (member : y ∈ a) : cmp first y ≤ 0 := by
  obtain ⟨rest,rfl⟩ := List.head?_eq_some_iff.mp begins
  obtain rfl | later := List.mem_cons.mp member
  · exact (order.self y).le
  · exact ((List.pairwise_cons.mp strict).1 y later).le

theorem Strict.to_last (order : TotalPreorder cmp) (strict : Strict cmp a) (ends : a.getLast? = some last)
    (member : y ∈ a) : cmp y last ≤ 0 := by
  obtain ⟨front,rfl⟩ := List.getLast?_eq_some_iff.mp ends
  obtain former | latter := List.mem_append.mp member
  · exact ((List.pairwise_append.mp strict).2.2 y former last (List.mem_singleton_self last)).le
  · rw [List.mem_singleton.mp latter]
    exact (order.self last).le

end Ends

section Agreement
variable {α : Type} {t : ItemType α} {cmp : α → α → Int} {others : Nat → Nat} {h : Heap α}
  {v source : VectorImpl}

theorem items_length (h : Heap α) (v : VectorImpl) : items h v = [] ∨ (items h v).length = v.mCount := by
  unfold items
  cases v.mStorage.bind h.buffers with
  | none => exact .inl rfl
  | some b => exact .inr (slice_length _ _ _)

-- A vector spliced in whole is too much where an item of it replaces another.
theorem tie_differs (order : TotalPreorder cmp) (length : (items h v).length = v.mCount)
    (length' : (items h source).length = source.mCount) {index : Nat} (within : index ≤ v.mCount)
    {x y : α} (member : x ∈ items h source) (there : y ∈ items h v) (same : cmp y x = 0)
    (fast : mergeSorted t cmp h v source = insertVectorAt t h v source index) :
    ¬MergesAlike t cmp h v source := by
  rintro ⟨next,changed,n,last,slow,ran,_,_,alike,left⟩
  rw [fast] at ran
  have count : changed.mCount = v.mCount+source.mCount := (insertWith_count h v within).result ran
  have fewer := merged_tie order member there same
  have some' : merged cmp (items h v) (items h source) ≠ [] :=
    merged_ne_nil (List.ne_nil_of_mem there) (items h source)
  rw [← left,← alike] at fewer some'
  obtain none | whole := items_length next changed
  · exact some' none
  · omega

-- Spliced in where all of it belongs, it is what the slow merge makes of it.
theorem splice_alike (fit : Fit t others h v) (granted : Granted h)
    (length : (items h source).length = source.mCount)
    (bounded : source.mCount*t.mItemSize ≤ bytes h source)
    (owned : ∀ sb, source.mStorage = some sb → 0 < others sb)
    (grantable : Grantable t (v.mCount+source.mCount)) (some' : 0 < source.mCount) {index : Nat}
    (within : index ≤ v.mCount)
    (fast : mergeSorted t cmp h v source = insertVectorAt t h v source index)
    (slow : ∃ next w, merge t cmp h v source = .ok (next,w,.value 0) ∧
      items next w = merged cmp (items h v) (items h source))
    (place : merged cmp (items h v) (items h source) =
      (items h v).take index ++ items h source ++ (items h v).drop index) :
    MergesAlike t cmp h v source := by
  have small := grantable.small
  obtain ⟨last,w,merges,left⟩ := slow
  obtain ⟨⟨next,changed,status⟩,ran,spliced,answer⟩ :=
    ((insertVectorAt_safe fit owned bounded length within some').also (insertWith_value fit within some')).done
      (insertVectorAt_finishes granted v source index grantable.room)
  simp only at spliced answer
  refine ⟨next,changed,index,last,w,?_,by omega,merges,?_,left⟩
  · rw [fast,ran,answer]
  · rw [spliced,left,place]

theorem merges_alike_iff (order : TotalPreorder cmp) (fit : Fit t others h v) (granted : Granted h)
    (strict : Strict cmp (items h v)) (strict' : Strict cmp (items h source))
    (length : (items h source).length = source.mCount)
    (bounded : source.mCount*t.mItemSize ≤ bytes h source)
    (owned : source = v ∨ ∀ sb, source.mStorage = some sb → 0 < others sb)
    (grantable : Grantable t (v.mCount+source.mCount)) :
    MergesAlike t cmp h v source ↔ EndsApart cmp (items h v) (items h source) := by
  have small := grantable.small
  have slow := slow_merge order fit granted strict length bounded owned grantable
  obtain empty | some' := Nat.eq_zero_or_pos source.mCount
  · have nothing : items h source = [] := List.eq_nil_of_length_eq_zero (length.trans empty)
    obtain ⟨next,w,merges,left⟩ := slow
    have fast : mergeSorted t cmp h v source = .ok (h,v,.value 0) := if_pos empty
    have same : merge t cmp h v source = .ok (h,v,.value 0) := if_pos empty
    refine ⟨fun _ => .inl nothing,fun _ => ⟨h,v,0,h,v,fast,by omega,same,rfl,?_⟩⟩
    rw [nothing]
    rfl
  obtain ⟨first',last',begins',ends',readFirst',readLast'⟩ := comparedEnds bounded length (by omega) some'
  have full : items h source ≠ [] := List.ne_nil_of_mem (List.mem_of_getLast? ends')
  obtain none | more := Nat.eq_zero_or_pos v.mCount
  · -- the first item of an empty vector is compared
    have fast : mergeSorted t cmp h v source = .error .fault := by
      have missing : comparedItem t h v 0 = .error .fault := if_neg (by omega)
      unfold mergeSorted
      rw [if_neg (by omega),readLast',ok_bind,missing]
      rfl
    constructor
    · rintro ⟨next,changed,n,last,w,ran,_⟩
      rw [fast] at ran
      cases ran
    · rintro (nothing | ⟨first,_,_,_,begins,_⟩)
      · exact absurd nothing full
      · rw [List.eq_nil_of_length_eq_zero (fit.length.trans none)] at begins
        cases begins
  obtain ⟨first,last,begins,ends,readFirst,readLast⟩ := comparedEnds fit.bounded fit.length (by omega) more
  have known : EndsApart cmp (items h v) (items h source) ↔ cmp last' first ≠ 0 ∧ cmp first' last ≠ 0 := by
    constructor
    · rintro (nothing | ⟨_,_,_,_,p,q,r,s,apart⟩)
      · exact absurd nothing full
      · cases begins.symm.trans p
        cases ends.symm.trans q
        cases begins'.symm.trans r
        cases ends'.symm.trans s
        exact apart
    · exact fun apart => .inr ⟨first,last,first',last',begins,ends,begins',ends',apart⟩
  rw [known]
  have firstMember := List.mem_of_head? begins
  have lastMember := List.mem_of_getLast? ends
  have firstMember' := List.mem_of_head? begins'
  have lastMember' := List.mem_of_getLast? ends'
  by_cases below : cmp last' first ≤ 0
  · have fast : mergeSorted t cmp h v source = insertVectorAt t h v source 0 := by
      unfold mergeSorted
      rw [if_neg (by omega),readLast',ok_bind,readFirst,ok_bind]
      exact if_pos below
    obtain tie | less := below.eq_or_lt
    · have differs := tie_differs order fit.length length (Nat.zero_le _) lastMember' firstMember
        (order.zero_symm.mp tie) fast
      exact ⟨fun alike => absurd alike differs,fun apart => absurd tie apart.1⟩
    · have least : cmp first' last < 0 := by
        have one := Strict.from_first order strict' begins' lastMember'
        have two := Strict.from_first order strict begins lastMember
        exact order.lt_le (order.le_lt one less) two
      refine ⟨fun _ => ⟨less.ne,least.ne⟩,fun _ => ?_⟩
      have owned : ∀ sb, source.mStorage = some sb → 0 < others sb := by
        obtain rfl | owned := owned
        · have most := Strict.from_first order strict begins lastMember'
          have back := (order.flip first last').mpr less
          omega
        · exact owned
      apply splice_alike fit granted length bounded owned grantable some' (Nat.zero_le _) fast slow
      have larger : ∀ x ∈ items h source, ∀ y ∈ items h v, 0 < cmp y x := by
        intro x member y there
        have one := Strict.to_last order strict' ends' member
        have two := Strict.from_first order strict begins there
        exact (order.flip y x).mpr (order.lt_le (order.le_lt one less) two)
      have placed : merged cmp ([] ++ items h v) (items h source) = [] ++ items h source ++ items h v :=
        merged_between strict' (by simp) larger
      simpa using placed
  · by_cases above : 0 ≤ cmp first' last
    · have fast : mergeSorted t cmp h v source = insertVectorAt t h v source v.mCount := by
        unfold mergeSorted
        rw [if_neg (by omega),readLast',ok_bind,readFirst,ok_bind,if_neg below,readFirst',ok_bind,
          readLast,ok_bind]
        exact if_pos above
      obtain tie | larger := above.eq_or_lt
      · have differs := tie_differs order fit.length length le_rfl firstMember' lastMember
          (order.zero_symm.mp tie.symm) fast
        exact ⟨fun alike => absurd alike differs,fun apart => absurd tie.symm apart.2⟩
      · refine ⟨fun _ => ⟨by omega,by omega⟩,fun _ => ?_⟩
        have owned : ∀ sb, source.mStorage = some sb → 0 < others sb := by
          obtain rfl | owned := owned
          · have most := Strict.from_first order strict begins' lastMember
            omega
          · exact owned
        apply splice_alike fit granted length bounded owned grantable some' le_rfl fast slow
        have behind := (order.flip first' last).mp larger
        have smaller : ∀ x ∈ items h source, ∀ y ∈ items h v, cmp y x < 0 := by
          intro x member y there
          have one := Strict.to_last order strict ends there
          have two := Strict.from_first order strict' begins' member
          exact order.lt_le (order.le_lt one behind) two
        have placed : merged cmp (items h v ++ []) (items h source) = items h v ++ items h source ++ [] :=
          merged_between strict' smaller (by simp)
        rw [← fit.length,List.take_length,List.drop_length]
        simpa using placed
    · have fast : mergeSorted t cmp h v source = merge t cmp h v source := by
        unfold mergeSorted
        rw [if_neg (by omega),readLast',ok_bind,readFirst,ok_bind,if_neg below,readFirst',ok_bind,
          readLast,ok_bind]
        exact if_neg above
      obtain ⟨next,w,merges,left⟩ := slow
      refine ⟨fun _ => ⟨by omega,by omega⟩,fun _ => ?_⟩
      exact ⟨next,w,0,next,w,fast.trans merges,by omega,merges,rfl,left⟩

end Agreement

section Reachable
variable {α : Type}

theorem fast_merge_agrees_iff (t : ItemType α) {cmp : α → α → Int} (order : TotalPreorder cmp)
    {ops : List (Op α)} {w : World α} (allowed : Obeys (Vectors.machine t) Allowed World.initial ops)
    (ran : run (Vectors.machine t) World.initial ops = some w) {this rhs : Nat} {v other : VectorImpl}
    (found : w.vectors[this]? = some v) (source : w.vectors[rhs]? = some other)
    (strict : Strict cmp (items w.heap v)) (strict' : Strict cmp (items w.heap other))
    (grantable : Grantable t (v.mCount+other.mCount)) :
    MergesAlike t cmp w.heap v other ↔ EndsApart cmp (items w.heap v) (items w.heap other) := by
  obtain ⟨granted,_,fit'⟩ := reached_fit allowed ran (List.mem_of_getElem? source)
  obtain ⟨sound,_⟩ := run_refines initial_sound allowed ran
  obtain ⟨heap,vectors⟩ := w
  obtain ⟨before,after,rfl,rfl⟩ := focus found
  apply merges_alike_iff order sound.fit granted strict strict' fit'.length fit'.bounded ?_ grantable
  by_cases same : before.length = rhs
  · subst same
    exact .inl (Option.some.inj (source.symm.trans found))
  · exact .inr fun sb storage => owners_positive (mem_others source same) storage

end Reachable

section Checks
variable {α : Type} {t : ItemType α}

def allowedRun (t : ItemType α) : World α → List (Op α) → Bool
  | _,[] => true
  | w,op :: rest => decide (Allowed w op) && (Vectors.machine t w op).all (allowedRun t · rest)

theorem allowedRun_obeys {ops : List (Op α)} {w : World α} (checked : allowedRun t w ops = true) :
    Obeys (Vectors.machine t) Allowed w ops := by
  induction ops generalizing w with
  | nil => trivial
  | cons op rest ih =>
    obtain ⟨allowed,later⟩ := (Bool.and_eq_true _ _).mp checked
    refine ⟨of_decide_eq_true allowed,fun next moved => ?_⟩
    rw [moved] at later
    exact ih later

def outcome : Run (Heap α × VectorImpl × Status) → Stop ⊕ (Status × List α)
  | .ok (h,v,status) => .inr (status,items h v)
  | .error stop => .inl stop

theorem outcome_ok {result : Run (Heap α × VectorImpl × Status)} {status : Status} {l : List α}
    (same : outcome result = .inr (status,l)) :
    ∃ h v, result = .ok (h,v,status) ∧ items h v = l := by
  cases result with
  | error stop => cases same
  | ok value =>
    obtain ⟨h,v,s⟩ := value
    cases same
    exact ⟨h,v,rfl,rfl⟩

theorem outcome_error {result : Run (Heap α × VectorImpl × Status)} {stop : Stop}
    (same : outcome result = .inl stop) : result = .error stop := by
  cases result with
  | error other =>
    cases same
    rfl
  | ok value => cases same

end Checks

def pair (a b : List Nat) : List (Op Nat) :=
  [.construct,.edit 0 (.appendArray a),.construct,.edit 1 (.appendArray b)]

structure MergedPair where
  checked : Bool
  left : List (List Nat)
  count : Nat
  fast : Stop ⊕ (Status × List Nat)
  slow : Stop ⊕ (Status × List Nat)
  deriving DecidableEq

def mergePair (a b : List Nat) : Option MergedPair := do
  let w ← run (Vectors.machine words) World.initial (pair a b)
  let v ← w.vectors[0]?
  let other ← w.vectors[1]?
  pure ⟨allowedRun words World.initial (pair a b),contents w,v.mCount+other.mCount,
    outcome (mergeSorted words byTens w.heap v other),outcome (merge words byTens w.heap v other)⟩

theorem mergePair_some {a b : List Nat} {both : MergedPair} (computed : mergePair a b = some both) :
    ∃ w v other, run (Vectors.machine words) World.initial (pair a b) = some w ∧ w.vectors[0]? = some v ∧
      w.vectors[1]? = some other ∧ allowedRun words World.initial (pair a b) = both.checked ∧
      contents w = both.left ∧ v.mCount+other.mCount = both.count ∧
      outcome (mergeSorted words byTens w.heap v other) = both.fast ∧
      outcome (merge words byTens w.heap v other) = both.slow := by
  simp only [mergePair,bind,pure,Option.bind_eq_some_iff,Option.some.injEq] at computed
  obtain ⟨w,ran,v,found,other,source,rfl⟩ := computed
  exact ⟨w,v,other,ran,found,source,rfl,rfl,rfl,rfl,rfl⟩

theorem mergePair_overlapping : mergePair [21,31] [12,33] =
    some ⟨true,[[21,31],[12,33]],4,.inr (.value 0,[12,21,33]),.inr (.value 0,[12,21,33])⟩ := by
  decide +kernel

theorem fast_merge_agrees_iff_overlapping :
    ∃ w v other, run (Vectors.machine words) World.initial (pair [21,31] [12,33]) = some w ∧
      w.vectors[0]? = some v ∧ w.vectors[1]? = some other ∧ contents w = [[21,31],[12,33]] ∧
      MergesAlike words byTens w.heap v other := by
  obtain ⟨w,v,other,ran,found,source,checked,left,count,_⟩ := mergePair_some mergePair_overlapping
  have first : items w.heap v = [21,31] := by
    have got := contents_get found
    rw [left] at got
    exact (Option.some.inj got).symm
  have second : items w.heap other = [12,33] := by
    have got := contents_get source
    rw [left] at got
    exact (Option.some.inj got).symm
  have strict : Strict byTens (items w.heap v) := by
    rw [first]
    unfold Strict
    decide
  have strict' : Strict byTens (items w.heap other) := by
    rw [second]
    unfold Strict
    decide
  have grantable : Grantable words (v.mCount+other.mCount) := by
    rw [count]
    unfold Grantable
    decide
  refine ⟨w,v,other,ran,found,source,left,?_⟩
  apply (fast_merge_agrees_iff words byTens_order (allowedRun_obeys checked) ran found source strict strict'
    grantable).mpr
  rw [first,second]
  exact .inr ⟨21,31,12,33,rfl,rfl,rfl,rfl,by decide,by decide⟩

theorem mergePair_empty : mergePair [] [12] =
    some ⟨true,[[],[12]],1,.inl .fault,.inr (.value 0,[12])⟩ := by
  decide +kernel

theorem mergePair_tie : mergePair [21,31] [12,22] =
    some ⟨true,[[21,31],[12,22]],4,.inr (.value 0,[12,22,21,31]),.inr (.value 0,[12,22,31])⟩ := by
  decide +kernel

-- An item that is not there is compared, and two items of one class are left.
theorem fast_merge_differs :
    (∃ w v other, run (Vectors.machine words) World.initial (pair [] [12]) = some w ∧
      w.vectors[0]? = some v ∧ w.vectors[1]? = some other ∧ contents w = [[],[12]] ∧
      mergeSorted words byTens w.heap v other = .error .fault ∧ ¬MergesAlike words byTens w.heap v other) ∧
    ∃ w v other next changed, run (Vectors.machine words) World.initial (pair [21,31] [12,22]) = some w ∧
      w.vectors[0]? = some v ∧ w.vectors[1]? = some other ∧ contents w = [[21,31],[12,22]] ∧
      mergeSorted words byTens w.heap v other = .ok (next,changed,.value 0) ∧
      items next changed = [12,22,21,31] ∧ ¬MergesAlike words byTens w.heap v other := by
  constructor
  · obtain ⟨w,v,other,ran,found,source,_,left,_,fast,_⟩ := mergePair_some mergePair_empty
    have faulted := outcome_error fast
    refine ⟨w,v,other,ran,found,source,left,faulted,?_⟩
    rintro ⟨_,_,_,_,_,answered,_⟩
    rw [faulted] at answered
    cases answered
  · obtain ⟨w,v,other,ran,found,source,_,left,_,fast,slow⟩ := mergePair_some mergePair_tie
    obtain ⟨next,changed,spliced,both⟩ := outcome_ok fast
    obtain ⟨last,merged',merges,once⟩ := outcome_ok slow
    refine ⟨w,v,other,next,changed,ran,found,source,left,spliced,both,?_⟩
    rintro ⟨_,_,_,_,_,answered,_,answered',alike,_⟩
    rw [spliced] at answered
    rw [merges] at answered'
    cases answered
    cases answered'
    rw [both,once] at alike
    cases alike

end SemcMsm7x30.Vectors.SortedVectorImpl

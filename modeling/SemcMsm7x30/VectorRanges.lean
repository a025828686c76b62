import SemcMsm7x30.Allocations

namespace SemcMsm7x30.Vectors
open RawMemory PartialMachine

section Ranges
variable {α : Type} {t : ItemType α} {others : Nat → Nat} {h : Heap α} {v : VectorImpl} {index count : Nat}

def PassesCheck (v : VectorImpl) (index count : Nat) : Prop := ¬v.mCount < (index+count)%2^32

-- What the check is for. Items that fit are removed, unless the program ends
-- where the smallest storage there is cannot be allocated.
structure RangeChecked (t : ItemType α) (h : Heap α) (v : VectorImpl) (index count : Nat) : Prop where
  rejects : v.mCount < index+count → removeItemsAt t h v index count = .ok (h,v,.BAD_VALUE)
  removes : index+count ≤ v.mCount →
    Safe (removeItemsAt t h v index count) (fun result => result.2.2 = .value index ∧
      items result.1 result.2.1 = (items h v).take index ++ (items h v).drop (index+count)) ∧
    (Allocatable (kMinVectorCapacity*t.mItemSize) →
      ∃ next changed, removeItemsAt t h v index count = .ok (next,changed,.value index))
  inside : PassesCheck v index count → index+count ≤ v.mCount

theorem Fit.small_count (fit : Fit t others h v) : v.mCount < 2^32 := by
  have once : v.mCount ≤ v.mCount*t.mItemSize := Nat.le_mul_of_pos_right _ t.positive
  exact lt_of_le_of_lt (once.trans fit.bounded) fit.small

theorem removeItemsAt_value (fit : Fit t others h v) (within : index+count ≤ v.mCount) :
    Safe (removeItemsAt t h v index count) fun result => result.2.2 = .value index ∧
      items result.1 result.2.1 =
        (items h v).take index ++ remaining t h v count ((items h v).drop (index+count)) := by
  unfold removeItemsAt
  have sum : (index+count)%2^32 ≤ v.mCount := (Nat.mod_le _ _).trans within
  rw [if_neg (by omega)]
  apply Safe.bind (shrink_safe fit within)
  rintro ⟨next,changed⟩ shrunk
  exact ⟨rfl,shrunk.2.2⟩

theorem checked_moves (fit : Fit t others h v) (granted : Granted h)
    (checked : RangeChecked t h v index count) : Edit.Moves t h v (.removeItemsAt index count) := by
  rintro rfl tight
  by_cases within : index ≤ v.mCount
  · have none : v.mCount-0 = v.mCount := Nat.sub_zero v.mCount
    obtain ⟨result,ran,_,left⟩ := (removeItemsAt_value fit within).done
      (removeItemsAt_finishes fit granted index (fun roomy => absurd (none ▸ roomy) tight)
        v.mCount.zero_le)
    obtain ⟨_,same⟩ := (checked.removes within).1.result ran
    rw [left] at same
    have kept := List.append_cancel_left same
    rwa [remaining,none,if_neg tight] at kept
  · have none : (items h v).drop index = [] := List.drop_eq_nil_of_le (by rw [fit.length]; omega)
    rw [none]
    exact List.eq_nil_of_length_eq_zero (t.backward_length 0 [])

theorem range_checked_iff (fit : Fit t others h v) (granted : Granted h) (first : index < 2^32)
    (second : count < 2^32) :
    RangeChecked t h v index count ↔
      (index+count < 2^32 ∨ v.mCount < index+count-2^32) ∧
        Edit.Moves t h v (.removeItemsAt index count) := by
  have size := fit.small_count
  constructor
  · intro checked
    refine ⟨?_,checked_moves fit granted checked⟩
    by_contra wraps
    have inside := checked.inside (by unfold PassesCheck; omega)
    omega
  · rintro ⟨fits,moves⟩
    refine ⟨?_,?_,?_⟩
    · intro outside
      exact if_pos (by omega)
    · intro within
      have removed := removeItemsAt_value fit within
      rw [remaining_same moves] at removed
      refine ⟨removed,fun least => ?_⟩
      obtain ⟨⟨next,changed,status⟩,ran,same,_⟩ := removed.done
        (removeItemsAt_finishes fit granted index (fun _ => least) (by omega))
      simp only at same
      exact ⟨next,changed,by rw [ran,same]⟩
    · unfold PassesCheck
      omega

end Ranges

section Reachable
variable {α : Type}

theorem reached_fit {t : ItemType α} {ops : List (Op α)} {w : World α}
    (allowed : Obeys (machine t) Allowed World.initial ops)
    (ran : run (machine t) World.initial ops = some w) {v : VectorImpl} (member : v ∈ w.vectors) :
    Granted w.heap ∧ ∃ others, Fit t others w.heap v := by
  refine ⟨run_granted ran,?_⟩
  obtain ⟨this,found⟩ := List.mem_iff_getElem?.mp member
  obtain ⟨sound,_⟩ := run_refines initial_sound allowed ran
  obtain ⟨heap,vectors⟩ := w
  obtain ⟨before,after,rfl,_⟩ := focus found
  exact ⟨_,sound.fit⟩

theorem ranges_checked_iff (t : ItemType α) {ops : List (Op α)} {w : World α}
    (allowed : Obeys (machine t) Allowed World.initial ops)
    (ran : run (machine t) World.initial ops = some w) {v : VectorImpl} (member : v ∈ w.vectors)
    {index count : Nat} (first : index < 2^32) (second : count < 2^32) :
    RangeChecked t w.heap v index count ↔
      (index+count < 2^32 ∨ v.mCount < index+count-2^32) ∧
        Edit.Moves t w.heap v (.removeItemsAt index count) := by
  obtain ⟨granted,others,fit⟩ := reached_fit allowed ran member
  exact range_checked_iff fit granted first second

end Reachable

def threeItems : List (Op Nat) := [.construct,.edit 0 (.appendArray [1,2,3])]

theorem threeItems_allowed : Obeys (machine words) Allowed World.initial threeItems :=
  obeys_step rfl trivial (obeys_step rfl ⟨_,rfl,trivial⟩ trivial)

theorem ranges_checked_iff_two :
    ∃ w v next changed, run (machine words) World.initial threeItems = some w ∧ v ∈ w.vectors ∧
      RangeChecked words w.heap v 1 2 ∧
      removeItemsAt words w.heap v 1 2 = .ok (next,changed,.value 1) ∧ items next changed = [1] := by
  refine ⟨_,_,_,_,rfl,List.mem_singleton_self _,?_,rfl,rfl⟩
  exact (ranges_checked_iff words threeItems_allowed rfl (List.mem_singleton_self _) (by omega)
    (by omega)).mpr ⟨.inl (by omega),fun none => by cases none⟩

-- 1 + (2^32 - 1) is 0 in 32 bits: nothing is wrong with it for an empty vector. And
-- (2^32 - 1) + 2 is 1, so that _shrink copies items from far behind three of them.
-- None of the three removed, all of them are moved onto themselves and destroyed.
theorem wrapped_range_accepted :
    (∃ w v, run (machine words) World.initial [.construct] = some w ∧ v ∈ w.vectors ∧
      removeItemsAt words w.heap v 1 (2^32-1) = .ok (w.heap,v,.value 1) ∧
      ¬RangeChecked words w.heap v 1 (2^32-1)) ∧
    ∃ w v, run (machine words) World.initial threeItems = some w ∧ v ∈ w.vectors ∧
      removeItemsAt words w.heap v (2^32-1) 2 = .error .fault ∧
      ∃ next changed, removeItemsAt words w.heap v 0 0 = .ok (next,changed,.value 0) ∧
        items next changed = [0xdead,0xdead,0xdead] ∧ ¬RangeChecked words w.heap v 0 0 := by
  refine ⟨⟨_,_,rfl,List.mem_singleton_self _,rfl,?_⟩,_,_,rfl,List.mem_singleton_self _,rfl,_,_,rfl,
    rfl,?_⟩
  · intro checked
    have inside := checked.inside (by unfold PassesCheck; decide)
    exact absurd inside (by decide)
  · intro checked
    have removed := (checked.removes (Nat.zero_le _)).1.result rfl
    exact absurd removed.2 (by decide)

end SemcMsm7x30.Vectors

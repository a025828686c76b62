import Mathlib

namespace WalkedRemoval
variable {α : Type}

-- An in-place list that is walked by position while the body of the walk takes
-- elements out by value.
def remove [DecidableEq α] (xs : List α) (x : α) : Option (List α) :=
  if x ∈ xs then some (xs.erase x) else none

def walk [DecidableEq α] (drops : α → Bool) : Nat → Nat → List α → Option (List α)
  | fuel,i,xs =>
    match xs[i]? with
    | none => some xs
    | some x =>
      match fuel with
      | 0 => none
      | fuel+1 =>
        if drops x then do
          let xs ← remove xs x
          walk drops fuel (i+1) xs
        else walk drops fuel (i+1) xs

def taken (drops : α → Bool) : List α → Nat
  | [] => 0
  | [x] => if drops x then 1 else 0
  | x::next::rest => if drops x then taken drops rest+1 else taken drops (next::rest)

theorem taken_drop {drops : α → Bool} {x : α} (dropped : drops x = true) (rest : List α) :
    taken drops (x::rest) = taken drops rest.tail+1 := by
  cases rest with
  | nil => simp [taken,dropped]
  | cons next rest => simp [taken,dropped]

theorem taken_keep {drops : α → Bool} {x : α} (kept : drops x = false) (rest : List α) :
    taken drops (x::rest) = taken drops rest := by
  cases rest with
  | nil => simp [taken,kept]
  | cons next rest => simp [taken,kept]

section
variable [DecidableEq α]

-- Whether the value stands before the position or at it, the rest starts one
-- element further than the removed one.
theorem erase_behind {xs rest : List α} {x : α} {i : Nat} (at_i : xs.drop i = x::rest) :
    (xs.erase x).drop (i+1) = rest.tail := by
  have inside : i < xs.length := by
    have nonempty := congrArg List.length at_i
    simp only [List.length_drop,List.length_cons] at nonempty
    omega
  have split : xs = xs.take i ++ x::rest := by rw [←at_i,List.take_append_drop]
  have length : (xs.take i).length = i := List.length_take_of_le (by omega)
  have rest_eq : rest.tail = rest.drop 1 := List.drop_one.symm
  generalize xs.take i = done at split length
  subst split
  by_cases earlier : x ∈ done
  · have shorter := List.length_erase_of_mem earlier
    have positive := List.length_pos_of_mem earlier
    rw [List.erase_append_left _ earlier,List.drop_append,List.drop_eq_nil_of_le (by omega),
      List.nil_append,rest_eq,show i+1-(done.erase x).length = 2 by omega,List.drop_succ_cons]
  · rw [List.erase_append_right _ earlier,List.erase_cons_head,List.drop_append,
      List.drop_eq_nil_of_le (by omega),List.nil_append,rest_eq,show i+1-done.length = 1 by omega]

theorem filter_erase {keeps : α → Bool} {x : α} (out : keeps x = false) (xs : List α) :
    (xs.erase x).filter keeps = xs.filter keeps := by
  induction xs with
  | nil => rfl
  | cons y xs ih =>
    by_cases same : y = x
    · subst same
      rw [List.erase_cons_head,List.filter_cons_of_neg (by simp [out])]
    · rw [List.erase_cons_tail (by simpa using same)]
      simp only [List.filter_cons,ih]

-- The state of the walk: what is behind the position is a tail of the first
-- list, everything kept is still there, and the removals are counted.
theorem walk_from (drops : α → Bool) (fuel i : Nat) (xs : List α) (enough : xs.length ≤ fuel+i) :
    ∃ after, walk drops fuel i xs = some after ∧
      after.filter (fun x => !drops x) = xs.filter (fun x => !drops x) ∧
      after.countP drops+taken drops (xs.drop i) = xs.countP drops := by
  induction fuel generalizing i xs with
  | zero =>
    have ended : xs.drop i = [] := List.drop_eq_nil_of_le (by omega)
    have past : xs[i]? = none := List.getElem?_eq_none (by omega)
    refine ⟨xs,by rw [walk,past],rfl,?_⟩
    rw [ended,taken,Nat.add_zero]
  | succ fuel ih =>
    cases found : xs[i]? with
    | none =>
      have ended : xs.drop i = [] := List.drop_eq_nil_of_le (List.getElem?_eq_none_iff.mp found)
      refine ⟨xs,by rw [walk,found],rfl,?_⟩
      rw [ended,taken,Nat.add_zero]
    | some x =>
      obtain ⟨inside,at_i⟩ := List.getElem?_eq_some_iff.mp found
      have rest : xs.drop i = x::xs.drop (i+1) := by rw [List.drop_eq_getElem_cons inside,at_i]
      have member : x ∈ xs := at_i ▸ List.getElem_mem inside
      cases dropped : drops x with
      | false =>
        obtain ⟨after,ran,kept,counted⟩ := ih (i+1) xs (by omega)
        refine ⟨after,by rw [walk,found]; simpa [dropped] using ran,kept,?_⟩
        rw [rest,taken_keep dropped]
        exact counted
      | true =>
        have shorter := List.length_erase_of_mem member
        obtain ⟨after,ran,kept,counted⟩ := ih (i+1) (xs.erase x) (by omega)
        have fewer : (xs.erase x).countP drops+1 = xs.countP drops := by
          rw [(List.perm_cons_erase member).countP_eq,List.countP_cons_of_pos dropped]
        refine ⟨after,by rw [walk,found]; simpa [dropped,remove,member] using ran,?_,?_⟩
        · rw [kept,filter_erase (by simp [dropped])]
        · rw [rest,taken_drop dropped,←erase_behind rest]
          omega

-- Every match is taken out exactly when no two of them are neighbours.
theorem taken_all_iff (drops : α → Bool) (xs : List α) :
    taken drops xs = xs.countP drops ↔ xs.IsChain fun x next => ¬(drops x ∧ drops next) := by
  have bounded : ∀ xs : List α,taken drops xs ≤ xs.countP drops := by
    intro xs
    obtain ⟨after,-,-,counted⟩ := walk_from drops xs.length 0 xs (by omega)
    rw [List.drop_zero] at counted
    omega
  fun_induction taken drops xs with
  | case1 => simp
  | case2 x dropped => simp [dropped]
  | case3 x kept => simp [kept]
  | case4 x next rest dropped ih =>
    have smaller := bounded rest
    rw [List.isChain_cons_cons]
    cases neighbour : drops next with
    | true =>
      rw [List.countP_cons_of_pos dropped,List.countP_cons_of_pos neighbour]
      simp only [dropped,and_self,not_true_eq_false,false_and,iff_false]
      omega
    | false =>
      rw [List.countP_cons_of_pos dropped,List.countP_cons_of_neg (by simp [neighbour]),
        Nat.add_right_cancel_iff,List.isChain_cons]
      refine ih.trans ?_
      simp [neighbour]
  | case5 x next rest kept ih =>
    rw [List.isChain_cons_cons,List.countP_cons_of_neg kept]
    refine ih.trans ?_
    simp [kept]

theorem walk_filters_iff (drops : α → Bool) (xs : List α) :
    ∃ after, walk drops xs.length 0 xs = some after ∧
      (after = xs.filter (fun x => !drops x) ↔
        xs.IsChain fun x next => ¬(drops x ∧ drops next)) := by
  obtain ⟨after,ran,kept,counted⟩ := walk_from drops xs.length 0 xs (by omega)
  refine ⟨after,ran,?_⟩
  rw [←taken_all_iff]
  rw [List.drop_zero] at counted
  constructor
  · intro filtered
    have none_left : after.countP drops = 0 := by
      rw [filtered,List.countP_eq_zero]
      intro x member
      simpa using List.of_mem_filter member
    omega
  · intro all
    have none_left : after.countP drops = 0 := by omega
    rw [←kept,List.filter_eq_self.mpr]
    intro x member
    simpa using List.countP_eq_zero.mp none_left x member

end

end WalkedRemoval

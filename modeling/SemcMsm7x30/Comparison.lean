import Mathlib

-- Lists under a comparison function as C has it: negative, zero or positive.
namespace Comparison
variable {α : Type*} {cmp : α → α → Int}

structure TotalPreorder (cmp : α → α → Int) : Prop where
  flip : ∀ a b, 0 < cmp a b ↔ cmp b a < 0
  trans : ∀ a b c, cmp a b ≤ 0 → cmp b c ≤ 0 → cmp a c ≤ 0

namespace TotalPreorder

theorem self (order : TotalPreorder cmp) (a : α) : cmp a a = 0 := by
  have both := order.flip a a
  omega

theorem zero_symm (order : TotalPreorder cmp) {a b : α} : cmp a b = 0 ↔ cmp b a = 0 := by
  have first := order.flip a b
  have second := order.flip b a
  omega

theorem lt_le (order : TotalPreorder cmp) {a b c : α} (less : cmp a b < 0) (most : cmp b c ≤ 0) :
    cmp a c < 0 := by
  have back := order.flip c a
  have swapped := order.flip b a
  by_contra above
  have cycle := order.trans b c a most (by omega)
  omega

theorem le_lt (order : TotalPreorder cmp) {a b c : α} (most : cmp a b ≤ 0) (less : cmp b c < 0) :
    cmp a c < 0 := by
  have back := order.flip c a
  have swapped := order.flip c b
  by_contra above
  have cycle := order.trans c a b (by omega) most
  omega

theorem zero_trans (order : TotalPreorder cmp) {a b c : α} (first : cmp a b = 0) (second : cmp b c = 0) :
    cmp a c = 0 := by
  have forth := order.trans a b c first.le second.le
  have back := order.trans c b a (order.zero_symm.mp second).le (order.zero_symm.mp first).le
  have flipped := order.flip c a
  omega

end TotalPreorder

section Sorting

def Ordered (cmp : α → α → Int) (l : List α) : Prop := l.Pairwise fun a b => cmp a b ≤ 0

-- The items of each class are the same ones in the same order.
structure StableSort (cmp : α → α → Int) (before after : List α) : Prop where
  perm : after.Perm before
  ordered : Ordered cmp after
  stable : ∀ x, after.filter (cmp · x = 0) = before.filter (cmp · x = 0)

theorem stableSort_self {l : List α} (ordered : Ordered cmp l) : StableSort cmp l l :=
  ⟨List.Perm.refl l,ordered,fun _ => rfl⟩

theorem insert_ordered (order : TotalPreorder cmp) {l : List α} (ordered : Ordered cmp l) {x : α}
    {place : Nat} (below : ∀ y ∈ l.take place, cmp y x ≤ 0) (above : ∀ y ∈ l.drop place, 0 < cmp y x) :
    Ordered cmp (l.take place ++ x :: l.drop place) := by
  rw [← List.take_append_drop place l] at ordered
  obtain ⟨front,back,across⟩ := List.pairwise_append.mp ordered
  apply List.pairwise_append.mpr
  refine ⟨front,List.pairwise_cons.mpr ⟨?_,back⟩,?_⟩
  · intro y member
    have larger := (order.flip y x).mp (above y member)
    omega
  · intro a former b latter
    obtain rfl | member := List.mem_cons.mp latter
    · exact below a former
    · exact across a former b member

theorem insert_stable (order : TotalPreorder cmp) {before l : List α} (sorted : StableSort cmp before l)
    {x : α} {place : Nat} (below : ∀ y ∈ l.take place, cmp y x ≤ 0)
    (above : ∀ y ∈ l.drop place, 0 < cmp y x) :
    StableSort cmp (before ++ [x]) (l.take place ++ x :: l.drop place) := by
  have whole := List.take_append_drop place l
  refine ⟨?_,insert_ordered order sorted.ordered below above,?_⟩
  · have moved : (l.take place ++ x :: l.drop place).Perm (l ++ [x]) := by
      apply List.perm_middle.trans
      rw [whole]
      exact (List.perm_append_singleton x l).symm
    exact moved.trans (sorted.perm.append_right [x])
  · intro z
    have old := sorted.stable z
    rw [← whole,List.filter_append] at old
    rw [List.filter_append,List.filter_append,← old,List.append_assoc]
    congr 1
    by_cases same : cmp x z = 0
    · -- nothing behind the place is in the class of x
      have none : (l.drop place).filter (cmp · z = 0) = [] := by
        apply List.filter_eq_nil_iff.mpr
        intro y member
        have larger := (order.flip y x).mp (above y member)
        have apart := order.lt_le (b := y) (c := z) larger
        have back := order.zero_symm (a := y) (b := z)
        have swapped := order.flip x z
        simp only [decide_eq_true_eq]
        intro equal
        have less := apart (by omega)
        omega
      rw [List.filter_cons_of_pos (by simpa using same),none]
      simp [same]
    · rw [List.filter_cons_of_neg (by simpa using same)]
      simp [same]

theorem below_of_last (order : TotalPreorder cmp) {l : List α} (ordered : Ordered cmp l) {x last : α}
    {place : Nat} (found : l[place]? = some last) (most : cmp last x ≤ 0) :
    ∀ y ∈ l.take (place+1), cmp y x ≤ 0 := by
  have split : l.take (place+1) = l.take place ++ [last] := by
    rw [List.take_add_one,found]
    rfl
  have front : Ordered cmp (l.take (place+1)) := ordered.sublist (List.take_sublist _ l)
  rw [split] at front ⊢
  intro y member
  obtain former | latter := List.mem_append.mp member
  · exact order.trans y last x ((List.pairwise_append.mp front).2.2 y former last (List.mem_singleton_self _)) most
  · rw [List.mem_singleton.mp latter]
    exact most

end Sorting

section Sets

def Strict (cmp : α → α → Int) (l : List α) : Prop := l.Pairwise fun a b => cmp a b < 0

def addTo (cmp : α → α → Int) (l : List α) (x : α) : List α :=
  l.filter (cmp · x < 0) ++ x :: l.filter (0 < cmp · x)

def removeFrom (cmp : α → α → Int) (l : List α) (x : α) : List α := l.filter (cmp · x ≠ 0)

structure Split (cmp : α → α → Int) (x : α) (l front middle back : List α) : Prop where
  whole : l = front ++ (middle ++ back)
  smaller : ∀ y ∈ front, cmp y x < 0
  equal : ∀ y ∈ middle, cmp y x = 0
  larger : ∀ y ∈ back, 0 < cmp y x

variable {x : α} {l front middle back : List α}

theorem Split.filter_smaller (split : Split cmp x l front middle back) :
    l.filter (cmp · x < 0) = front := by
  have first : front.filter (cmp · x < 0) = front :=
    List.filter_eq_self.mpr fun y member => by simpa using split.smaller y member
  have second : middle.filter (cmp · x < 0) = [] :=
    List.filter_eq_nil_iff.mpr fun y member => by simp [split.equal y member]
  have third : back.filter (cmp · x < 0) = [] :=
    List.filter_eq_nil_iff.mpr fun y member => by
      have larger := split.larger y member
      simp only [decide_eq_true_eq]
      omega
  rw [split.whole,List.filter_append,List.filter_append,first,second,third,List.append_nil,
    List.append_nil]

theorem Split.filter_larger (split : Split cmp x l front middle back) :
    l.filter (0 < cmp · x) = back := by
  have first : front.filter (0 < cmp · x) = [] :=
    List.filter_eq_nil_iff.mpr fun y member => by
      have smaller := split.smaller y member
      simp only [decide_eq_true_eq]
      omega
  have second : middle.filter (0 < cmp · x) = [] :=
    List.filter_eq_nil_iff.mpr fun y member => by simp [split.equal y member]
  have third : back.filter (0 < cmp · x) = back :=
    List.filter_eq_self.mpr fun y member => by simpa using split.larger y member
  rw [split.whole,List.filter_append,List.filter_append,first,second,third]
  rfl

theorem Split.addTo_eq (split : Split cmp x l front middle back) : addTo cmp l x = front ++ x :: back := by
  rw [addTo,split.filter_smaller,split.filter_larger]

theorem Split.removeFrom_eq (split : Split cmp x l front middle back) :
    removeFrom cmp l x = front ++ back := by
  have first : front.filter (cmp · x ≠ 0) = front :=
    List.filter_eq_self.mpr fun y member => by simpa using (split.smaller y member).ne
  have second : middle.filter (cmp · x ≠ 0) = [] :=
    List.filter_eq_nil_iff.mpr fun y member => by simp [split.equal y member]
  have third : back.filter (cmp · x ≠ 0) = back :=
    List.filter_eq_self.mpr fun y member => by simpa using (split.larger y member).ne'
  rw [removeFrom,split.whole,List.filter_append,List.filter_append,first,second,third]
  rfl

theorem Split.count_smaller (split : Split cmp x l front middle back) :
    l.countP (cmp · x < 0) = front.length := by
  rw [List.countP_eq_length_filter,split.filter_smaller]

theorem Split.mem_equal (split : Split cmp x l front middle back) {y : α} (member : y ∈ l)
    (same : cmp y x = 0) : y ∈ middle := by
  rw [split.whole] at member
  obtain former | member := List.mem_append.mp member
  · have smaller := split.smaller y former
    omega
  · obtain found | latter := List.mem_append.mp member
    · exact found
    · have larger := split.larger y latter
      omega

theorem addTo_strict (order : TotalPreorder cmp) (strict : Strict cmp l) (x : α) :
    Strict cmp (addTo cmp l x) := by
  have below {y : α} (member : y ∈ l.filter (cmp · x < 0)) : cmp y x < 0 := by
    simpa using (List.mem_filter.mp member).2
  have above {y : α} (member : y ∈ l.filter (0 < cmp · x)) : cmp x y < 0 := by
    rw [← order.flip]
    simpa using (List.mem_filter.mp member).2
  apply List.pairwise_append.mpr
  refine ⟨List.Pairwise.filter _ strict,List.pairwise_cons.mpr ⟨fun y => above,List.Pairwise.filter _ strict⟩,?_⟩
  intro a former b latter
  obtain rfl | member := List.mem_cons.mp latter
  · exact below former
  · exact order.lt_le (below former) (above member).le

theorem class_filter (order : TotalPreorder cmp) (l : List α) {x y : α} (other : cmp x y ≠ 0) :
    (l.filter (cmp · x < 0)).filter (cmp · y = 0) ++ (l.filter (0 < cmp · x)).filter (cmp · y = 0) =
      l.filter (cmp · y = 0) := by
  have apart {z : α} (same : cmp z y = 0) : (cmp z x < 0 ↔ cmp y x < 0) ∧ (0 < cmp z x ↔ 0 < cmp y x) := by
    have back := order.zero_symm.mp same
    have unequal : cmp y x ≠ 0 := fun equal => other (order.zero_symm.mp equal)
    have first := order.le_lt (c := x) same.le
    have second := order.le_lt (c := x) back.le
    have unequal' : cmp z x ≠ 0 := fun equal => unequal (order.zero_trans back equal)
    omega
  simp only [List.filter_filter]
  obtain below | above := lt_or_gt_of_ne fun equal : cmp y x = 0 => other (order.zero_symm.mp equal)
  · have none : l.filter (fun z => decide (cmp z y = 0) && decide (0 < cmp z x)) = [] := by
      apply List.filter_eq_nil_iff.mpr
      intro z _ both
      simp only [Bool.and_eq_true,decide_eq_true_eq] at both
      have larger := (apart both.1).2.mp both.2
      omega
    rw [none,List.append_nil]
    apply List.filter_congr
    intro z _
    rw [Bool.eq_iff_iff,Bool.and_eq_true,decide_eq_true_eq,decide_eq_true_eq]
    exact ⟨fun both => both.1,fun same => ⟨same,(apart same).1.mpr below⟩⟩
  · have none : l.filter (fun z => decide (cmp z y = 0) && decide (cmp z x < 0)) = [] := by
      apply List.filter_eq_nil_iff.mpr
      intro z _ both
      simp only [Bool.and_eq_true,decide_eq_true_eq] at both
      have smaller := (apart both.1).1.mp both.2
      omega
    rw [none,List.nil_append]
    apply List.filter_congr
    intro z _
    rw [Bool.eq_iff_iff,Bool.and_eq_true,decide_eq_true_eq,decide_eq_true_eq]
    exact ⟨fun both => both.1,fun same => ⟨same,(apart same).2.mpr above⟩⟩

theorem addTo_class (order : TotalPreorder cmp) (l : List α) (x y : α) :
    (addTo cmp l x).filter (cmp · y = 0) = if cmp x y = 0 then [x] else l.filter (cmp · y = 0) := by
  rw [addTo,List.filter_append]
  by_cases same : cmp x y = 0
  · have back := order.zero_symm.mp same
    have front : (l.filter (cmp · x < 0)).filter (cmp · y = 0) = [] := by
      apply List.filter_eq_nil_iff.mpr
      intro z member
      have smaller : cmp z x < 0 := by simpa using (List.mem_filter.mp member).2
      have less := order.lt_le smaller same.le
      simpa using less.ne
    have rest : (l.filter (0 < cmp · x)).filter (cmp · y = 0) = [] := by
      apply List.filter_eq_nil_iff.mpr
      intro z member
      have larger : 0 < cmp z x := by simpa using (List.mem_filter.mp member).2
      have less := order.le_lt back.le ((order.flip z x).mp larger)
      simpa using ((order.flip z y).mpr less).ne'
    rw [if_pos same,List.filter_cons_of_pos (by simpa using same),front,rest,List.nil_append]
  · rw [if_neg same,List.filter_cons_of_neg (by simpa using same),class_filter order l same]

theorem removeFrom_strict (strict : Strict cmp l) (x : α) : Strict cmp (removeFrom cmp l x) :=
  List.Pairwise.filter _ strict

theorem removeFrom_class (order : TotalPreorder cmp) (l : List α) (x y : α) :
    (removeFrom cmp l x).filter (cmp · y = 0) = if cmp x y = 0 then [] else l.filter (cmp · y = 0) := by
  have classes {z : α} (same : cmp z y = 0) : cmp z x = 0 ↔ cmp x y = 0 :=
    ⟨fun equal => order.zero_trans (order.zero_symm.mp equal) same,
      fun equal => order.zero_trans same (order.zero_symm.mp equal)⟩
  rw [removeFrom,List.filter_filter]
  by_cases same : cmp x y = 0
  · rw [if_pos same]
    apply List.filter_eq_nil_iff.mpr
    intro z _ both
    simp only [Bool.and_eq_true,decide_eq_true_eq] at both
    exact both.2 ((classes both.1).mpr same)
  · rw [if_neg same]
    apply List.filter_congr
    intro z _
    rw [Bool.eq_iff_iff,Bool.and_eq_true,decide_eq_true_eq,decide_eq_true_eq]
    exact ⟨fun both => both.1,fun equal => ⟨equal,(classes equal).not.mpr same⟩⟩

end Sets

section Searching
variable {l : List α} {x y : α} {i : Nat}

theorem cut_at (found : l[i]? = some y) : l = l.take i ++ ([y] ++ l.drop (i+1)) := by
  obtain ⟨within,same⟩ := List.getElem?_eq_some_iff.mp found
  rw [← same,List.singleton_append,List.getElem_cons_drop,List.take_append_drop]

theorem Strict.before (strict : Strict cmp l) (found : l[i]? = some y) :
    ∀ z ∈ l.take i, cmp z y < 0 := by
  intro z former
  rw [cut_at found] at strict
  exact (List.pairwise_append.mp strict).2.2 z former y (List.mem_cons_self ..)

theorem Strict.behind (strict : Strict cmp l) (found : l[i]? = some y) :
    ∀ z ∈ l.drop (i+1), cmp y z < 0 := by
  intro z latter
  rw [cut_at found] at strict
  exact (List.pairwise_cons.mp (List.pairwise_append.mp strict).2.1).1 z latter

theorem Strict.smaller (order : TotalPreorder cmp) (strict : Strict cmp l) (found : l[i]? = some y)
    (less : cmp y x < 0) : ∀ z ∈ l.take (i+1), cmp z x < 0 := by
  intro z member
  rw [List.take_add_one,found] at member
  obtain former | latter := List.mem_append.mp member
  · exact order.lt_le (strict.before found z former) less.le
  · rw [List.mem_singleton.mp latter]
    exact less

theorem Strict.larger (order : TotalPreorder cmp) (strict : Strict cmp l) (found : l[i]? = some y)
    (more : 0 < cmp y x) : ∀ z ∈ l.drop i, 0 < cmp z x := by
  intro z member
  obtain ⟨within,same⟩ := List.getElem?_eq_some_iff.mp found
  rw [← List.getElem_cons_drop within,same] at member
  obtain rfl | latter := List.mem_cons.mp member
  · exact more
  · apply (order.flip z x).mpr
    exact order.lt_le ((order.flip y x).mp more) (strict.behind found z latter).le

theorem Strict.found (order : TotalPreorder cmp) (strict : Strict cmp l) (found : l[i]? = some y)
    (same : cmp y x = 0) : Split cmp x l (l.take i) [y] (l.drop (i+1)) := by
  refine ⟨cut_at found,?_,?_,?_⟩
  · intro z former
    exact order.lt_le (strict.before found z former) same.le
  · intro z member
    rw [List.mem_singleton.mp member]
    exact same
  · intro z latter
    apply (order.flip z x).mpr
    exact order.le_lt (order.zero_symm.mp same).le (strict.behind found z latter)

end Searching

section Merging
variable {l front back : List α}

def merged (cmp : α → α → Int) (l added : List α) : List α := added.foldl (addTo cmp) l

theorem merged_strict (order : TotalPreorder cmp) (strict : Strict cmp l) (added : List α) :
    Strict cmp (merged cmp l added) := by
  induction added generalizing l with
  | nil => exact strict
  | cons x rest ih => exact ih (addTo_strict order strict x)

theorem addTo_known (order : TotalPreorder cmp) (strict : Strict cmp l) {x : α} (known : x ∈ l) :
    addTo cmp l x = l := by
  obtain ⟨i,found⟩ := List.mem_iff_getElem?.mp known
  rw [(strict.found order found (order.self x)).addTo_eq]
  exact (cut_at found).symm

theorem merged_known (order : TotalPreorder cmp) (strict : Strict cmp l) {added : List α}
    (known : ∀ x ∈ added, x ∈ l) : merged cmp l added = l := by
  induction added with
  | nil => rfl
  | cons x rest ih =>
    have first := addTo_known order strict (known x (List.mem_cons_self ..))
    rw [merged,List.foldl_cons,first]
    exact ih fun y member => known y (List.mem_cons_of_mem x member)

theorem merged_between {added : List α} (strict : Strict cmp added)
    (below : ∀ x ∈ added, ∀ y ∈ front, cmp y x < 0) (above : ∀ x ∈ added, ∀ y ∈ back, 0 < cmp y x) :
    merged cmp (front ++ back) added = front ++ added ++ back := by
  induction added generalizing front with
  | nil => rw [List.append_nil]; rfl
  | cons x rest ih =>
    obtain ⟨first,strict'⟩ := List.pairwise_cons.mp strict
    have split : Split cmp x (front ++ back) front [] back :=
      ⟨rfl,below x (List.mem_cons_self ..),by simp,above x (List.mem_cons_self ..)⟩
    have more : ∀ z ∈ rest, ∀ y ∈ front ++ [x], cmp y z < 0 := by
      intro z later y member
      obtain former | latter := List.mem_append.mp member
      · exact below z (List.mem_cons_of_mem x later) y former
      · rw [List.mem_singleton.mp latter]
        exact first z later
    have added' := ih strict' more fun z later => above z (List.mem_cons_of_mem x later)
    rw [merged,List.foldl_cons,split.addTo_eq,List.append_cons front x back]
    rw [merged] at added'
    rw [added',← List.append_cons]

theorem addTo_length (cmp : α → α → Int) (l : List α) (x : α) :
    (addTo cmp l x).length+(l.filter (cmp · x = 0)).length = l.length+1 := by
  induction l with
  | nil => rfl
  | cons y rest ih =>
    simp only [addTo,List.length_append,List.length_cons] at ih ⊢
    obtain less | same | more := lt_trichotomy (cmp y x) 0
    · have apart : ¬0 < cmp y x := by omega
      simp only [less,less.ne,apart,List.filter_cons,decide_true,decide_false,if_true,
        List.length_cons,Bool.false_eq_true,if_false]
      omega
    · simp only [same,lt_irrefl,List.filter_cons,decide_true,decide_false,if_true,
        List.length_cons,Bool.false_eq_true,if_false]
      omega
    · have apart : ¬cmp y x < 0 := by omega
      simp only [more,more.ne',apart,List.filter_cons,decide_true,decide_false,if_true,
        List.length_cons,Bool.false_eq_true,if_false]
      omega

theorem merged_length (cmp : α → α → Int) (l added : List α) : (merged cmp l added).length ≤ l.length+added.length := by
  induction added generalizing l with
  | nil => exact le_rfl
  | cons x rest ih =>
    have one := addTo_length cmp l x
    have others : (merged cmp (addTo cmp l x) rest).length ≤ (addTo cmp l x).length+rest.length := ih _
    rw [merged,List.foldl_cons,List.length_cons]
    rw [merged] at others
    omega

theorem merged_ne_nil {l : List α} (some' : l ≠ []) (added : List α) : merged cmp l added ≠ [] := by
  induction added generalizing l with
  | nil => exact some'
  | cons x rest ih =>
    apply ih
    simp [addTo]

theorem merged_tie (order : TotalPreorder cmp) {added : List α} {x y : α} (member : x ∈ added)
    (there : y ∈ l) (same : cmp y x = 0) : (merged cmp l added).length < l.length+added.length := by
  induction added generalizing l y with
  | nil => cases member
  | cons z rest ih =>
    have one := addTo_length cmp l z
    rw [merged,List.foldl_cons,List.length_cons]
    obtain rfl | later := List.mem_cons.mp member
    · have class' : 0 < (l.filter (cmp · x = 0)).length :=
        List.length_pos_of_mem (List.mem_filter.mpr ⟨there,by simpa using same⟩)
      have others := merged_length cmp (addTo cmp l x) rest
      rw [merged] at others
      omega
    · have nonempty : (addTo cmp l z).filter (cmp · x = 0) ≠ [] := by
        rw [addTo_class order]
        split
        · exact List.cons_ne_nil z []
        · exact List.ne_nil_of_mem (List.mem_filter.mpr ⟨there,by simpa using same⟩)
      obtain ⟨y',found⟩ := List.exists_mem_of_ne_nil _ nonempty
      obtain ⟨there',same'⟩ := List.mem_filter.mp found
      have others := ih later there' (by simpa using same')
      rw [merged] at others
      omega

end Merging

end Comparison

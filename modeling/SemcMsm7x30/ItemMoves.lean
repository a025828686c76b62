import Mathlib.Data.List.Basic

namespace SemcMsm7x30.Vectors

-- The moves of a class without a trivial destructor. An item is copied to its new
-- place and destroyed at the old one, where `dead` is left.
section Moves
variable {α : Type} (dead : α)

def relocated (span : List α) (d s : Nat) : List α :=
  match span[s]? with
  | some item => (span.set d item).set s dead
  | none => span

def moveItemsForward (gap : Nat) : Nat → List α → List α
  | 0,span => span
  | num+1,span => moveItemsForward gap num (relocated dead span (num+gap) num)

def moveItemsBackward (gap : Nat) : Nat → List α → List α
  | 0,span => span
  | num+1,span => relocated dead (moveItemsBackward gap num span) num (num+gap)

def move_forward_type (gap : Nat) (span : List α) : List α :=
  moveItemsForward dead gap (span.length-gap) span

def move_backward_type (gap : Nat) (span : List α) : List α :=
  moveItemsBackward dead gap (span.length-gap) span

variable {dead} {gap num : Nat} {span : List α}

@[simp] theorem relocated_length (span : List α) (d s : Nat) :
    (relocated dead span d s).length = span.length := by
  unfold relocated
  split <;> simp

theorem relocated_other {d s i : Nat} (dest : i ≠ d) (source : i ≠ s) :
    (relocated dead span d s)[i]? = span[i]? := by
  unfold relocated
  split
  · rw [List.getElem?_set_ne source.symm,List.getElem?_set_ne dest.symm]
  · rfl

theorem relocated_dest {d s : Nat} (apart : d ≠ s) (below : d < span.length) (within : s < span.length) :
    (relocated dead span d s)[d]? = span[s]? := by
  simp only [relocated,List.getElem?_eq_getElem within]
  rw [List.getElem?_set_ne apart.symm,List.getElem?_set_self below]

theorem move_forward_length (dead : α) (gap : Nat) (span : List α) :
    (move_forward_type dead gap span).length = span.length := by
  have moved (num : Nat) (span : List α) : (moveItemsForward dead gap num span).length = span.length := by
    induction num generalizing span with
    | zero => rfl
    | succ num ih => rw [moveItemsForward,ih,relocated_length]
  exact moved _ span

theorem moveItemsBackward_length (dead : α) (gap num : Nat) (span : List α) :
    (moveItemsBackward dead gap num span).length = span.length := by
  induction num with
  | zero => rfl
  | succ num ih => rw [moveItemsBackward,relocated_length,ih]

theorem move_backward_length (dead : α) (gap : Nat) (span : List α) :
    (move_backward_type dead gap span).length = span.length :=
  moveItemsBackward_length dead gap _ span

theorem moveItemsForward_get (apart : 0 < gap) (room : num+gap ≤ span.length) :
    (∀ i, num+gap ≤ i → (moveItemsForward dead gap num span)[i]? = span[i]?) ∧
    ∀ i, i < num → (moveItemsForward dead gap num span)[i+gap]? = span[i]? := by
  induction num generalizing span with
  | zero => exact ⟨fun _ _ => rfl,fun i below => absurd below (Nat.not_lt_zero i)⟩
  | succ num ih =>
    have smaller : num+gap ≤ (relocated dead span (num+gap) num).length := by
      rw [relocated_length]
      omega
    obtain ⟨above,moved⟩ := ih smaller
    constructor
    · intro i outside
      rw [moveItemsForward,above i (by omega),relocated_other (by omega) (by omega)]
    · intro i below
      rw [moveItemsForward]
      by_cases last : i = num
      · rw [last,above _ (Nat.le_refl _),relocated_dest (by omega) (by omega) (by omega)]
      · rw [moved i (by omega),relocated_other (by omega) (by omega)]

theorem move_forward_shifts (dead : α) (gap : Nat) (span : List α) (apart : 0 < gap) :
    (move_forward_type dead gap span).drop gap = span.take (span.length-gap) := by
  apply List.ext_getElem?
  intro i
  rw [List.getElem?_drop,List.getElem?_take,Nat.add_comm]
  have length := move_forward_length dead gap span
  split
  · rename_i below
    exact (moveItemsForward_get apart (by omega)).2 i below
  · exact List.getElem?_eq_none (by omega)

theorem moveItemsBackward_get (apart : 0 < gap) (room : num+gap ≤ span.length) :
    (∀ i, num+gap ≤ i → (moveItemsBackward dead gap num span)[i]? = span[i]?) ∧
    ∀ i, i < num → (moveItemsBackward dead gap num span)[i]? = span[i+gap]? := by
  induction num with
  | zero => exact ⟨fun _ _ => rfl,fun i below => absurd below (Nat.not_lt_zero i)⟩
  | succ num ih =>
    obtain ⟨above,moved⟩ := ih (by omega)
    have length := moveItemsBackward_length dead gap num span
    constructor
    · intro i outside
      rw [moveItemsBackward,relocated_other (by omega) (by omega),above i (by omega)]
    · intro i below
      rw [moveItemsBackward]
      by_cases last : i = num
      · rw [last,relocated_dest (by omega) (by omega) (by omega),above _ (Nat.le_refl _)]
      · rw [relocated_other last (by omega),moved i (by omega)]

theorem move_backward_shifts (dead : α) (gap : Nat) (span : List α) (apart : 0 < gap) :
    (move_backward_type dead gap span).take (span.length-gap) = span.drop gap := by
  apply List.ext_getElem?
  intro i
  rw [List.getElem?_drop,List.getElem?_take,Nat.add_comm]
  split
  · rename_i below
    exact (moveItemsBackward_get apart (by omega)).2 i below
  · exact (List.getElem?_eq_none (by omega)).symm

end Moves

end SemcMsm7x30.Vectors

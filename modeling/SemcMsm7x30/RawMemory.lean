import Mathlib

namespace RawMemory

-- Why a computation on raw memory ends early: an explicit abort of the program,
-- or an access outside what it may touch.
inductive Stop where
  | fatal
  | fault
  deriving DecidableEq, Repr

abbrev Run (α : Type) := Except Stop α

def Safe {α : Type} (run : Run α) (post : α → Prop) : Prop :=
  match run with
  | .ok value => post value
  | .error .fatal => True
  | .error .fault => False

section Rules
variable {α β : Type} {run : Run α} {post : α → Prop}

@[simp] theorem ok_bind (value : α) (next : α → Run β) : ((.ok value : Run α) >>= next) = next value :=
  rfl

theorem safe_ok {value : α} (holds : post value) : Safe (.ok value) post := holds

theorem safe_fatal : Safe (.error .fatal) post := trivial

theorem Safe.mono {weaker : α → Prop} (safe : Safe run post) (implies : ∀ value, post value → weaker value) :
    Safe run weaker := by
  cases run with
  | ok value => exact implies value safe
  | error stop => cases stop <;> exact safe

theorem Safe.bind {next : α → Run β} {final : β → Prop} (first : Safe run post)
    (rest : ∀ value, post value → Safe (next value) final) : Safe (run >>= next) final := by
  cases run with
  | ok value => exact rest value first
  | error stop => cases stop <;> exact first

theorem Safe.result {value : α} (safe : Safe run post) (ran : run = .ok value) : post value := by
  subst ran
  exact safe

theorem Safe.no_fault (safe : Safe run post) : run ≠ .error .fault := by
  intro faulted
  subst faulted
  exact safe

theorem safe_ite {c : Prop} [Decidable c] {yes no : Run α} (first : c → Safe yes post)
    (second : ¬c → Safe no post) : Safe (if c then yes else no) post := by
  split
  · rename_i holds
    exact first holds
  · rename_i fails
    exact second fails

def Yields (run : Run α) (post : α → Prop) : Prop :=
  match run with
  | .ok value => post value
  | .error _ => True

def Finishes (run : Run α) : Prop := run ≠ .error .fatal

theorem yields_ok {value : α} (holds : post value) : Yields (.ok value) post := holds

theorem yields_error {stop : Stop} : Yields (.error stop) post := trivial

theorem yields_self : Yields run fun value => run = .ok value := by
  cases run with
  | ok value => rfl
  | error stop => trivial

theorem Yields.result {value : α} (yields : Yields run post) (ran : run = .ok value) : post value := by
  subst ran
  exact yields

theorem Yields.mono {weaker : α → Prop} (yields : Yields run post)
    (implies : ∀ value, post value → weaker value) : Yields run weaker := by
  cases run with
  | ok value => exact implies value yields
  | error stop => trivial

theorem Yields.bind {next : α → Run β} {final : β → Prop} (first : Yields run post)
    (rest : ∀ value, post value → Yields (next value) final) : Yields (run >>= next) final := by
  cases run with
  | ok value => exact rest value first
  | error stop => trivial

theorem yields_ite {c : Prop} [Decidable c] {yes no : Run α} (first : c → Yields yes post)
    (second : ¬c → Yields no post) : Yields (if c then yes else no) post := by
  split
  · rename_i holds
    exact first holds
  · rename_i fails
    exact second fails

theorem finishes_ok {value : α} : Finishes (.ok value) := by
  rintro ⟨⟩

theorem finishes_fault : Finishes (.error .fault : Run α) := by
  rintro ⟨⟩

theorem Finishes.bind {next : α → Run β} (first : Finishes run)
    (rest : ∀ value, run = .ok value → Finishes (next value)) : Finishes (run >>= next) := by
  cases run with
  | ok value => exact rest value rfl
  | error stop =>
    cases stop with
    | fatal => exact absurd rfl first
    | fault => exact finishes_fault

theorem finishes_ite {c : Prop} [Decidable c] {yes no : Run α} (first : c → Finishes yes)
    (second : ¬c → Finishes no) : Finishes (if c then yes else no) := by
  split
  · rename_i holds
    exact first holds
  · rename_i fails
    exact second fails

theorem Safe.also {other : α → Prop} (safe : Safe run post) (yields : Yields run other) :
    Safe run fun value => post value ∧ other value := by
  cases run with
  | ok value => exact ⟨safe,yields⟩
  | error stop => cases stop <;> exact safe

theorem Safe.done (safe : Safe run post) (finishes : Finishes run) :
    ∃ value, run = .ok value ∧ post value := by
  cases run with
  | ok value => exact ⟨value,rfl,safe⟩
  | error stop =>
    cases stop with
    | fatal => exact absurd rfl finishes
    | fault => exact absurd safe id

end Rules

section Slots
variable {α : Type}

def slice (slots : Nat → α) (start count : Nat) : List α :=
  (List.range count).map fun i => slots (start+i)

def blit (slots : Nat → α) (start : Nat) (values : List α) : Nat → α := fun i =>
  if start ≤ i then (values[i-start]?).getD (slots i) else slots i

@[simp] theorem slice_length (slots : Nat → α) (start count : Nat) :
    (slice slots start count).length = count := by
  simp [slice]

@[simp] theorem slice_zero (slots : Nat → α) (start : Nat) : slice slots start 0 = [] := rfl

theorem slice_congr {first second : Nat → α} {start count : Nat}
    (same : ∀ i, start ≤ i → i < start+count → first i = second i) :
    slice first start count = slice second start count := by
  apply List.map_congr_left
  intro i member
  have within := List.mem_range.mp member
  exact same (start+i) (by omega) (by omega)

theorem slice_append (slots : Nat → α) (start first second : Nat) :
    slice slots start (first+second) = slice slots start first ++ slice slots (start+first) second := by
  simp only [slice,List.range_add,List.map_append,List.map_map]
  congr 1
  apply List.map_congr_left
  intro i _
  simp [Nat.add_assoc]

theorem take_slice (slots : Nat → α) {start count first : Nat} (within : first ≤ count) :
    (slice slots start count).take first = slice slots start first := by
  obtain ⟨rest,rfl⟩ := Nat.exists_eq_add_of_le within
  rw [slice_append]
  exact List.take_left' (slice_length slots start first)

theorem drop_slice (slots : Nat → α) {start count first : Nat} (within : first ≤ count) :
    (slice slots start count).drop first = slice slots (start+first) (count-first) := by
  obtain ⟨rest,rfl⟩ := Nat.exists_eq_add_of_le within
  rw [slice_append,Nat.add_sub_cancel_left]
  exact List.drop_left' (slice_length slots start first)

@[simp] theorem blit_nil (slots : Nat → α) (start : Nat) : blit slots start [] = slots := by
  funext i
  simp [blit]

theorem slice_blit_same (slots : Nat → α) (start : Nat) (values : List α) :
    slice (blit slots start values) start values.length = values := by
  apply List.ext_getElem
  · simp
  · intro i _ within
    simp [slice,blit,within]

theorem slice_blit_before (slots : Nat → α) {start count place : Nat} (values : List α)
    (before : start+count ≤ place) : slice (blit slots place values) start count = slice slots start count := by
  apply slice_congr
  intro i _ below
  rw [blit,if_neg (by omega)]

theorem slice_blit_after (slots : Nat → α) {start count place : Nat} {values : List α}
    (after : place+values.length ≤ start) :
    slice (blit slots place values) start count = slice slots start count := by
  apply slice_congr
  intro i above _
  have outside : values[i-place]? = none := List.getElem?_eq_none (by omega)
  rw [blit,if_pos (by omega),outside,Option.getD_none]

theorem slice_blit_end (slots : Nat → α) (place : Nat) (values : List α) :
    slice (blit slots place values) 0 (place+values.length) = slice slots 0 place ++ values := by
  rw [slice_append,Nat.zero_add,slice_blit_same,slice_blit_before _ _ (by omega)]

theorem slice_blit_inside (slots : Nat → α) {place count : Nat} {values : List α}
    (within : place+values.length ≤ count) :
    slice (blit slots place values) 0 count =
      (slice slots 0 count).take place ++ values ++
        (slice slots 0 count).drop (place+values.length) := by
  obtain ⟨rest,rfl⟩ := Nat.exists_eq_add_of_le within
  have behind : slice (blit slots place values) (place+values.length) rest =
      slice slots (place+values.length) rest := slice_blit_after slots le_rfl
  rw [take_slice _ (by omega),drop_slice _ (by omega),slice_append,Nat.zero_add,slice_blit_end,
    behind,Nat.add_sub_cancel_left]

theorem slice_gap (slots : Nat → α) {front : List α} (back : List α) {dest : Nat}
    (apart : front.length ≤ dest) :
    slice (blit (blit slots 0 front) dest back) 0 (dest+back.length) =
      front ++ slice slots front.length (dest-front.length) ++ back := by
  obtain ⟨gap,rfl⟩ := Nat.exists_eq_add_of_le apart
  have behind : slice (blit slots 0 front) front.length gap = slice slots front.length gap :=
    slice_blit_after slots (Nat.zero_add front.length).le
  rw [slice_blit_end,slice_append,slice_blit_same,Nat.zero_add,behind,Nat.add_sub_cancel_left]

theorem slice_blit_front (slots : Nat → α) (place : Nat) {values : List α} {count : Nat}
    (within : count ≤ values.length) :
    slice (blit slots place values) 0 (place+count) = slice slots 0 place ++ values.take count := by
  rw [← take_slice _ (by omega : place+count ≤ place+values.length),slice_blit_end,
    List.take_append,slice_length,Nat.add_sub_cancel_left,
    List.take_of_length_le (by rw [slice_length]; omega)]

end Slots

end RawMemory

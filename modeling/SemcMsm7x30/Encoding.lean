import Mathlib

namespace Encoding

structure Trace (A : Type) where
  payload : List UInt8
  accesses : List (A × Nat)

-- A failure keeps what was written and read before it.
abbrev Encoder (A : Type) := ExceptT Int (StateM (Trace A))

section Operations
variable {A α : Type}

def write (bytes : List UInt8) : Encoder A Unit :=
  fun t => (.ok (),{t with payload := t.payload ++ bytes})

def element (array : A) (items : Nat → α) (i : Nat) : Encoder A α :=
  fun t => (.ok (items i),{t with accesses := t.accesses ++ [(array,i)]})

def fail (ret : Int) : Encoder A α := fun t => (.error ret,t)

def forEach : Nat → (Nat → Encoder A Unit) → Encoder A Unit
  | 0,_ => pure ()
  | n+1,body => do
    forEach n body
    body n

def elements (array : A) (items : Nat → α) : Nat → Encoder A (List α)
  | 0 => pure []
  | n+1 => do
    let first ← elements array items n
    let last ← element array items n
    pure (first ++ [last])

def result (x : Encoder A Unit) : Except Int Unit × Trace A := x ⟨[],[]⟩

def marshalled (x : Encoder A Unit) : List UInt8 × Int :=
  ((result x).2.payload,
    match (result x).1 with
    | .ok _ => 0
    | .error ret => ret)

def accesses (x : Encoder A Unit) : List (A × Nat) := (result x).2.accesses

end Operations

section Exact
variable {A α β : Type}

theorem bind_ok {x : Encoder A α} {f : α → Encoder A β} {t next : Trace A} {value : α}
    (first : x t = (.ok value,next)) : (x >>= f) t = f value next := by
  simp only [bind,ExceptT.bind,ExceptT.mk,StateT.bind,first]
  rfl

theorem bind_error {x : Encoder A α} {f : α → Encoder A β} {t next : Trace A} {ret : Int}
    (first : x t = (.error ret,next)) : (x >>= f) t = (.error ret,next) := by
  simp only [bind,ExceptT.bind,ExceptT.mk,StateT.bind,first]
  rfl

def Does (x : Encoder A α) (value : α) (bytes : List UInt8) (reads : List (A × Nat)) : Prop :=
  ∀ t, x t = (.ok value,⟨t.payload ++ bytes,t.accesses ++ reads⟩)

theorem does_pure (value : α) : Does (pure value : Encoder A α) value [] [] := by
  intro t
  simp [pure,ExceptT.pure,ExceptT.mk,StateT.pure]

theorem does_write (bytes : List UInt8) : Does (write bytes : Encoder A Unit) () bytes [] := by
  intro t
  simp [write]

theorem does_element (array : A) (items : Nat → α) (i : Nat) :
    Does (element array items i) (items i) [] [(array,i)] := by
  intro t
  simp [element]

theorem does_bind {x : Encoder A α} {f : α → Encoder A β} {value : α} {last : β}
    {bytes tail : List UInt8} {reads more : List (A × Nat)} (first : Does x value bytes reads)
    (rest : Does (f value) last tail more) : Does (x >>= f) last (bytes ++ tail) (reads ++ more) := by
  intro t
  rw [bind_ok (first t),rest,List.append_assoc,List.append_assoc]

theorem does_next {x : Encoder A α} {f : α → Encoder A β} {value : α} {last : β}
    {bytes tail : List UInt8} {more : List (A × Nat)} (first : Does x value bytes [])
    (rest : Does (f value) last tail more) : Does (x >>= f) last (bytes ++ tail) more :=
  does_bind first rest

theorem does_read {f : α → Encoder A β} {last : β} {bytes : List UInt8} {more : List (A × Nat)}
    (array : A) (items : Nat → α) (i : Nat) (rest : Does (f (items i)) last bytes more) :
    Does (element array items i >>= f) last bytes ((array,i) :: more) :=
  does_bind (does_element array items i) rest

theorem does_forEach {n : Nat} {body : Nat → Encoder A Unit} {bytes : Nat → List UInt8}
    {reads : Nat → List (A × Nat)} (each : ∀ i < n, Does (body i) () (bytes i) (reads i)) :
    Does (forEach n body) () ((List.range n).flatMap bytes) ((List.range n).flatMap reads) := by
  induction n with
  | zero => exact does_pure ()
  | succ n ih =>
    have first := ih fun i below => each i (Nat.lt_succ_of_lt below)
    rw [List.range_succ,List.flatMap_append,List.flatMap_append,List.flatMap_singleton,
      List.flatMap_singleton]
    exact does_bind first (each n (Nat.lt_succ_self n))

theorem does_loop (array : A) (items : Nat → α) (each : α → List UInt8) (n : Nat) :
    Does (forEach n fun i => do
        let item ← element array items i
        write (each item)) ()
      (((List.range n).map items).flatMap each) ((List.range n).map fun i => (array,i)) := by
  have one : ∀ i < n, Does (do
      let item ← element array items i
      write (each item)) () (each (items i)) [(array,i)] :=
    fun i _ => does_read array items i (does_write _)
  have all := does_forEach one
  rwa [← List.flatMap_map,← List.map_eq_flatMap] at all

theorem Does.marshalled {x : Encoder A Unit} {bytes : List UInt8} {reads : List (A × Nat)}
    (does : Does x () bytes reads) : marshalled x = (bytes,0) ∧ accesses x = reads := by
  have ran : result x = (.ok (),⟨bytes,reads⟩) := does ⟨[],[]⟩
  unfold Encoding.marshalled Encoding.accesses
  rw [ran]
  exact ⟨rfl,rfl⟩

end Exact

section Bounds
variable {A α β : Type} (size : A → Nat)

def Within (t : Trace A) : Prop := ∀ access ∈ t.accesses, access.2 < size access.1

-- Whatever it writes and wherever it stops, the encoder reads within the arrays.
def Inside (x : Encoder A α) : Prop := ∀ t, Within size t → Within size (x t).2

variable {size}

theorem inside_pure (value : α) : Inside size (pure value : Encoder A α) := fun _ within => within

theorem inside_write (bytes : List UInt8) : Inside size (write bytes : Encoder A Unit) :=
  fun _ within => within

theorem inside_fail (ret : Int) : Inside size (fail ret : Encoder A α) := fun _ within => within

theorem inside_element {array : A} {items : Nat → α} {i : Nat} (below : i < size array) :
    Inside size (element array items i) := by
  intro t within access member
  rcases List.mem_append.mp member with earlier | last
  · exact within access earlier
  · cases List.mem_singleton.mp last
    exact below

theorem inside_bind {x : Encoder A α} {f : α → Encoder A β} (first : Inside size x)
    (rest : ∀ value, Inside size (f value)) : Inside size (x >>= f) := by
  intro t within
  have after := first t within
  cases ran : x t with
  | mk outcome next =>
    rw [ran] at after
    cases outcome with
    | ok value =>
      rw [bind_ok ran]
      exact rest value next after
    | error ret =>
      rw [bind_error ran]
      exact after

theorem inside_seq {x : Encoder A α} {y : Encoder A β} (first : Inside size x)
    (second : Inside size y) : Inside size (x >>= fun _ => y) :=
  inside_bind first fun _ => second

theorem inside_ite {c : Prop} [Decidable c] {x y : Encoder A α} (yes : c → Inside size x)
    (no : ¬ c → Inside size y) : Inside size (if c then x else y) := by
  by_cases holds : c
  · rw [if_pos holds]
    exact yes holds
  · rw [if_neg holds]
    exact no holds

theorem inside_forEach {n : Nat} {body : Nat → Encoder A Unit}
    (each : ∀ i < n, Inside size (body i)) : Inside size (forEach n body) := by
  induction n with
  | zero => exact inside_pure ()
  | succ n ih =>
    apply inside_bind (ih fun i below => each i (Nat.lt_succ_of_lt below))
    exact fun _ => each n (Nat.lt_succ_self n)

theorem inside_elements {array : A} {items : Nat → α} {n : Nat} (fits : n ≤ size array) :
    Inside size (elements array items n) := by
  induction n with
  | zero => exact inside_pure []
  | succ n ih =>
    apply inside_bind (ih (Nat.le_of_succ_le fits))
    intro first
    apply inside_bind (inside_element fits)
    exact fun last => inside_pure _

theorem Inside.accesses {x : Encoder A Unit} (inside : Inside size x) :
    ∀ access ∈ accesses x, access.2 < size access.1 :=
  inside ⟨[],[]⟩ fun _ none => nomatch none

end Bounds

end Encoding

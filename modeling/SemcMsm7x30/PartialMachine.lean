import Mathlib

namespace PartialMachine
variable {State Action : Type*}

def run (step : State → Action → Option State) : State → List Action → Option State
  | s,[] => some s
  | s,action :: rest => (step s action).bind (run step · rest)

@[simp] theorem run_nil (step : State → Action → Option State) (s : State) :
    run step s [] = some s := rfl

theorem run_cons {step : State → Action → Option State} {s next : State} {action : Action}
    {rest : List Action} (ran : run step s (action :: rest) = some next) :
    ∃ middle, step s action = some middle ∧ run step middle rest = some next :=
  Option.bind_eq_some_iff.mp ran

theorem run_append {step : State → Action → Option State} {s : State} {front back : List Action} :
    run step s (front ++ back) = (run step s front).bind (run step · back) := by
  induction front generalizing s with
  | nil => rfl
  | cons action rest ih =>
    simp only [List.cons_append,run]
    cases step s action with
    | none => rfl
    | some middle => exact ih

theorem run_total {f : State → Action → State} {s : State} {actions : List Action} :
    run (fun s action => some (f s action)) s actions = some (actions.foldl f s) := by
  induction actions generalizing s with
  | nil => rfl
  | cons action rest ih => exact ih

-- The induction over whole runs, stated once: what every enabled step keeps
-- holds in every state a run reaches.
theorem run_invariant {step : State → Action → Option State} (holds : State → Prop)
    (preserved : ∀ s action next, holds s → step s action = some next → holds next)
    {s next : State} {actions : List Action}
    (start : holds s) (ran : run step s actions = some next) : holds next := by
  induction actions generalizing s with
  | nil => cases ran; exact start
  | cons action rest ih =>
    obtain ⟨middle,moved,tail⟩ := run_cons ran
    exact ih (preserved s action middle start moved) tail

def Obeys (step : State → Action → Option State) (condition : State → Action → Prop) :
    State → List Action → Prop
  | _,[] => True
  | s,action :: rest =>
    condition s action ∧ ∀ next, step s action = some next → Obeys step condition next rest

theorem obeys_step {step : State → Action → Option State} {condition : State → Action → Prop}
    {s next : State} {action : Action} {rest : List Action} (moved : step s action = some next)
    (meets : condition s action) (obeyed : Obeys step condition next rest) :
    Obeys step condition s (action :: rest) := by
  refine ⟨meets,fun other also => ?_⟩
  cases moved.symm.trans also
  exact obeyed

theorem obeys_total {f : State → Action → State} {condition : State → Action → Prop} {s : State}
    {action : Action} {rest : List Action} :
    Obeys (fun s action => some (f s action)) condition s (action :: rest) ↔
      condition s action ∧ Obeys (fun s action => some (f s action)) condition (f s action) rest := by
  simp [Obeys]

theorem obeys_invariant {step : State → Action → Option State}
    {condition : State → Action → Prop} (holds : State → Prop)
    (preserved : ∀ s action next, holds s → condition s action →
      step s action = some next → holds next)
    {s next : State} {actions : List Action} (start : holds s)
    (obeyed : Obeys step condition s actions) (ran : run step s actions = some next) :
    holds next := by
  induction actions generalizing s with
  | nil => cases ran; exact start
  | cons action rest ih =>
    obtain ⟨middle,moved,tail⟩ := run_cons ran
    exact ih (preserved s action middle start obeyed.1 moved) (obeyed.2 middle moved) tail

theorem obeys_history {step : State → Action → Option State} {condition : State → Action → Prop}
    (holds : List Action → State → Prop)
    (preserved : ∀ front s action next, holds front s → condition s action →
      step s action = some next → holds (front ++ [action]) next)
    {front : List Action} {s next : State} {actions : List Action} (start : holds front s)
    (obeyed : Obeys step condition s actions) (ran : run step s actions = some next) :
    holds (front ++ actions) next := by
  induction actions generalizing s front with
  | nil =>
    cases ran
    rw [List.append_nil]
    exact start
  | cons action rest ih =>
    obtain ⟨middle,moved,tail⟩ := run_cons ran
    have later := ih (preserved front s action middle start obeyed.1 moved) (obeyed.2 middle moved) tail
    rw [List.append_assoc] at later
    exact later

theorem obeys_completes {step : State → Action → Option State} {condition : State → Action → Prop}
    (holds : List Action → State → Prop)
    (each : ∀ front s action, holds front s → condition s action →
      ∃ next, step s action = some next ∧ holds (front ++ [action]) next)
    {front : List Action} {s : State} {actions : List Action} (start : holds front s)
    (obeyed : Obeys step condition s actions) :
    ∃ next, run step s actions = some next ∧ holds (front ++ actions) next := by
  induction actions generalizing s front with
  | nil => exact ⟨s,rfl,by rw [List.append_nil]; exact start⟩
  | cons action rest ih =>
    obtain ⟨middle,moved,kept⟩ := each front s action start obeyed.1
    obtain ⟨next,ran,later⟩ := ih kept (obeyed.2 middle moved)
    rw [List.append_assoc] at later
    exact ⟨next,by simp only [run,moved,Option.bind_some,ran],later⟩

theorem obeys_append {step : State → Action → Option State} {condition : State → Action → Prop}
    {s middle : State} {front back : List Action} (first : Obeys step condition s front)
    (ran : run step s front = some middle) (second : Obeys step condition middle back) :
    Obeys step condition s (front ++ back) := by
  induction front generalizing s with
  | nil =>
    cases ran
    exact second
  | cons action rest ih =>
    obtain ⟨next,moved,tail⟩ := run_cons ran
    exact obeys_step moved first.1 (ih (first.2 next moved) tail)

theorem obeys_replicate {step : State → Action → Option State} {condition : State → Action → Prop}
    {action : Action} (holds : Nat → State → Prop) {bound : Nat}
    (each : ∀ k s, k < bound → holds k s → condition s action ∧
      ∃ next, step s action = some next ∧ holds (k+1) next)
    {k n : Nat} {s : State} (start : holds k s) (within : k+n ≤ bound) :
    Obeys step condition s (List.replicate n action) ∧
      ∃ next, run step s (List.replicate n action) = some next ∧ holds (k+n) next := by
  induction n generalizing k s with
  | zero => exact ⟨trivial,s,rfl,start⟩
  | succ n ih =>
    obtain ⟨meets,next,moved,kept⟩ := each k s (by omega) start
    obtain ⟨obeyed,last,ran,reached⟩ := ih kept (by omega)
    refine ⟨obeys_step moved meets obeyed,last,?_,?_⟩
    · rw [List.replicate_succ,run,moved]
      exact ran
    · rw [← Nat.add_assoc,Nat.add_right_comm]
      exact reached

theorem obeys_front {step : State → Action → Option State} {condition : State → Action → Prop}
    {s : State} {front back : List Action} (obeyed : Obeys step condition s (front ++ back)) :
    Obeys step condition s front := by
  induction front generalizing s with
  | nil => trivial
  | cons action rest ih => exact ⟨obeyed.1,fun next moved => ih (obeyed.2 next moved)⟩

theorem obeys_at {step : State → Action → Option State} {condition : State → Action → Prop}
    {s middle : State} {front back : List Action} {action : Action}
    (obeyed : Obeys step condition s (front ++ action :: back)) (ran : run step s front = some middle) :
    condition middle action := by
  induction front generalizing s with
  | nil =>
    cases ran
    exact obeyed.1
  | cons first rest ih =>
    obtain ⟨next,moved,tail⟩ := run_cons ran
    exact ih (obeyed.2 next moved) tail

end PartialMachine

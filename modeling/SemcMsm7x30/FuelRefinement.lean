import SemcMsm7x30.PartialMachine

namespace FuelRefinement
open PartialMachine
variable {A C Op : Type*}

-- With enough fuel the program takes every state that stands for the one to a
-- state that stands for the other. The bound does not depend on the state.
def Refines (stands : A → C → Prop) (program : Nat → C → Option C) (a next : A) : Prop :=
  ∃ bound, ∀ fuel, bound ≤ fuel → ∀ c, stands a c → ∃ c', program fuel c = some c' ∧ stands next c'

variable {stands : A → C → Prop}

theorem refines_refl (a : A) : Refines stands (fun _ c => some c) a a :=
  ⟨0,fun _ _ c held => ⟨c,rfl,held⟩⟩

theorem Refines.bind {f g : Nat → C → Option C} {a middle next : A} (one : Refines stands f a middle)
    (two : Refines stands g middle next) :
    Refines stands (fun fuel c => (f fuel c).bind (g fuel)) a next := by
  obtain ⟨first,one⟩ := one
  obtain ⟨second,two⟩ := two
  refine ⟨max first second,fun fuel enough c held => ?_⟩
  obtain ⟨c',ran,kept⟩ := one fuel (le_trans (le_max_left _ _) enough) c held
  obtain ⟨c'',ran',kept'⟩ := two fuel (le_trans (le_max_right _ _) enough) c' kept
  exact ⟨c'',by simp only [ran,Option.bind_some,ran'],kept'⟩

theorem run_refines {abstract : A → Op → A} {concrete : Nat → C → Op → Option C}
    {condition : A → Op → Prop}
    (each : ∀ a op, condition a op → Refines stands (concrete · · op) a (abstract a op))
    {a : A} {ops : List Op} (allowed : Obeys (fun a op => some (abstract a op)) condition a ops) :
    Refines stands (fun fuel c => run (concrete fuel) c ops) a (ops.foldl abstract a) := by
  induction ops generalizing a with
  | nil => exact refines_refl a
  | cons op rest ih => exact (each a op allowed.1).bind (ih (allowed.2 _ rfl))

-- A machine whose steps need not be enabled, with an invariant to refine its steps
-- by.
theorem enabled_refines {abstract : A → Op → Option A} {concrete : Nat → C → Op → Option C}
    {condition : A → Op → Prop} (holds : A → Prop)
    (kept : ∀ a op next, holds a → condition a op → abstract a op = some next → holds next)
    (each : ∀ a op next, holds a → condition a op → abstract a op = some next →
      Refines stands (concrete · · op) a next)
    {a next : A} {ops : List Op} (first : holds a) (allowed : Obeys abstract condition a ops)
    (ran : run abstract a ops = some next) :
    Refines stands (fun fuel c => run (concrete fuel) c ops) a next := by
  induction ops generalizing a with
  | nil =>
    cases ran
    exact refines_refl _
  | cons op rest ih =>
    obtain ⟨middle,moved,tail⟩ := run_cons ran
    exact (each a op middle first allowed.1 moved).bind
      (ih (kept a op middle first allowed.1 moved) (allowed.2 middle moved) tail)

end FuelRefinement

import SemcMsm7x30.PartialMachine

-- Threads that call functions whose whole work is done under one lock.
namespace LockedCalls
open PartialMachine

structure Program (Call Op Shared : Type) where
  plan : Call → Shared → List Op
  apply : Shared → Op → Shared

inductive Place (Call Op : Type) where
  | outside
  | waiting (call : Call)
  | inside (rest : List Op)

-- `served` is the history of the calls in the order in which they got the lock.
structure State (Thread Call Op Shared : Type) where
  shared : Shared
  owner : Option Thread
  place : Thread → Place Call Op
  served : List Call

inductive Action (Thread Call : Type) where
  | call (t : Thread) (call : Call)
  | lock (t : Thread)
  | work (t : Thread)
  | unlock (t : Thread)

section Machine
variable {Thread Call Op Shared : Type}

def initial (Thread Call Op : Type) (shared : Shared) : State Thread Call Op Shared :=
  ⟨shared,none,fun _ => .outside,[]⟩

variable [DecidableEq Thread] (program : Program Call Op Shared)

def goto (s : State Thread Call Op Shared) (t : Thread) (place : Place Call Op) :
    State Thread Call Op Shared :=
  {s with place := Function.update s.place t place}

def step (s : State Thread Call Op Shared) : Action Thread Call → Option (State Thread Call Op Shared)
  | .call t call =>
    match s.place t with
    | .outside => some (goto s t (.waiting call))
    | _ => none
  | .lock t =>
    match s.place t,s.owner with
    | .waiting call,none =>
      some (goto {s with owner := some t,served := s.served ++ [call]} t
        (.inside (program.plan call s.shared)))
    | _,_ => none
  | .work t =>
    match s.place t with
    | .inside (op::rest) => some (goto {s with shared := program.apply s.shared op} t (.inside rest))
    | _ => none
  | .unlock t =>
    match s.place t with
    | .inside [] => some (goto {s with owner := none} t .outside)
    | _ => none

def atomic (shared : Shared) (call : Call) : Shared :=
  (program.plan call shared).foldl program.apply shared

def serial (shared : Shared) (calls : List Call) : Shared := calls.foldl (atomic program) shared

end Machine

section Serial
variable {Thread Call Op Shared : Type} {program : Program Call Op Shared}

theorem serial_snoc (shared : Shared) (calls : List Call) (call : Call) :
    serial program shared (calls ++ [call]) = atomic program (serial program shared calls) call := by
  rw [serial,List.foldl_append]
  rfl

structure Serves (program : Program Call Op Shared) (start : Shared)
    (s : State Thread Call Op Shared) : Prop where
  inside : ∀ t rest, s.place t = .inside rest → s.owner = some t ∧
    rest.foldl program.apply s.shared = serial program start s.served
  free : s.owner = none → s.shared = serial program start s.served

theorem initial_serves (start : Shared) : Serves program start (initial Thread Call Op start) := by
  refine ⟨?_,fun _ => rfl⟩
  intro t rest inside
  cases inside

variable [DecidableEq Thread] {start : Shared} {s next : State Thread Call Op Shared}

theorem goto_inside {t u : Thread} {place : Place Call Op} {rest : List Op}
    (inside : (goto s t place).place u = .inside rest) :
    (u = t ∧ place = .inside rest) ∨ (u ≠ t ∧ s.place u = .inside rest) := by
  simp only [goto] at inside
  by_cases same : u = t
  · subst same
    rw [Function.update_self] at inside
    exact .inl ⟨rfl,inside⟩
  · rw [Function.update_of_ne same] at inside
    exact .inr ⟨same,inside⟩

theorem step_serves {action : Action Thread Call} (kept : Serves program start s)
    (moved : step program s action = some next) : Serves program start next := by
  cases action with
  | call t call =>
    simp only [step] at moved
    split at moved
    · cases moved
      refine ⟨?_,kept.free⟩
      intro u rest inside
      rcases goto_inside inside with ⟨_,waiting⟩ | ⟨_,before⟩
      · cases waiting
      · exact kept.inside u rest before
    · cases moved
  | lock t =>
    simp only [step] at moved
    split at moved
    · rename_i call place free
      cases moved
      have shared := kept.free free
      refine ⟨?_,fun owned => by cases owned⟩
      intro u rest inside
      rcases goto_inside inside with ⟨rfl,entered⟩ | ⟨_,before⟩
      · cases entered
        refine ⟨rfl,?_⟩
        show atomic program s.shared call = serial program start (s.served ++ [call])
        rw [serial_snoc,shared]
      · cases free.symm.trans (kept.inside u rest before).1
    · cases moved
  | work t =>
    simp only [step] at moved
    split at moved
    · rename_i op rest place
      cases moved
      obtain ⟨owned,leads⟩ := kept.inside t (op::rest) place
      refine ⟨?_,fun free => by cases owned.symm.trans free⟩
      intro u later inside
      rcases goto_inside inside with ⟨rfl,left⟩ | ⟨other,before⟩
      · cases left
        exact ⟨owned,leads⟩
      · have same := Option.some.inj (owned.symm.trans (kept.inside u later before).1)
        exact absurd same.symm other
    · cases moved
  | unlock t =>
    simp only [step] at moved
    split at moved
    · rename_i place
      cases moved
      obtain ⟨owned,leads⟩ := kept.inside t [] place
      refine ⟨?_,fun _ => leads⟩
      intro u rest inside
      rcases goto_inside inside with ⟨_,outside⟩ | ⟨other,before⟩
      · cases outside
      · have same := Option.some.inj (owned.symm.trans (kept.inside u rest before).1)
        exact absurd same.symm other
    · cases moved

-- Whenever nobody has the lock, the calls have been made one after another.
theorem run_serial {actions : List (Action Thread Call)}
    (ran : run (step program) (initial Thread Call Op start) actions = some s)
    (free : s.owner = none) : s.shared = serial program start s.served :=
  (run_invariant (Serves program start) (fun _ _ _ kept moved => step_serves kept moved)
    (initial_serves start) ran).free free

end Serial

end LockedCalls

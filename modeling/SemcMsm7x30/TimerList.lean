import SemcMsm7x30.EventRefinement

namespace SemcMsm7x30.TimerList
open LinkRing PartialMachine FuelRefinement EventRefinement
variable {E : Type}

inductive TimerOp (E : Type) where
  | timerAdd (ev : E) (tv now : Timeval)
  | processTimeouts (now : Timeval)

def TimerOp.call : TimerOp E → LibraryOp E
  | .timerAdd ev tv now => .call (.timerAdd ev (some tv) now)
  | .processTimeouts now => .processTimeouts now

structure Holds (h : Heap E) (timers pending : List E) : Prop where
  timers : Ring h.links .timer_list (timers.map .event)
  pending : Ring h.links .pending_list (pending.map .event)

def Due (h : Heap E) (now : Timeval) (ev : E) : Bool := (h.timeout (.event ev)).before now

section Plain
variable {p : Lists E}

theorem before_false_iff {a b : Timeval} :
    b.before a = false ↔ timercmp a b (fun x y => x ≤ y) = true := by
  rw [← Bool.not_eq_true,before_iff]
  unfold timercmp
  split
  · rename_i same
    rw [decide_eq_true_eq]
    omega
  · rename_i differ
    rw [decide_eq_true_eq]
    omega

theorem dropWhile_expired (valid : Valid p) (now : Timeval) :
    p.timers.dropWhile (p.table.expired now) = p.timers.filter fun ev => !p.table.expired now ev := by
  have same : p.table.expired now = p.table.earlier now := by
    funext ev
    exact after_eq_before _ _
  have late := sorted_dropWhile valid.sorted now
  rw [← same] at late
  have whole := List.takeWhile_append_dropWhile (p := p.table.expired now) (l := p.timers)
  have all : (p.timers.dropWhile (p.table.expired now)).filter (fun ev => !p.table.expired now ev) =
      p.timers.dropWhile (p.table.expired now) := by
    apply List.filter_eq_self.mpr
    intro ev present
    simp [late ev present]
  have none : (p.timers.takeWhile (p.table.expired now)).filter
      (fun ev => !p.table.expired now ev) = [] := by
    apply List.filter_eq_nil_iff.mpr
    intro ev present
    simp [List.mem_takeWhile_imp present]
  conv_rhs => rw [← whole,List.filter_append,none,all,List.nil_append]

variable [DecidableEq E]

def Unlisted (p : Lists E) : TimerOp E → Prop
  | .timerAdd ev _ _ => p.Unlisted ev
  | .processTimeouts _ => True

def applyTimer (p : Lists E) (op : TimerOp E) : Lists E := p.apply op.call

theorem applyTimer_unwatched (op : TimerOp E) (idle : ∀ i, p.table.watch_table i = none) :
    ∀ i, (applyTimer p op).table.watch_table i = none := by
  cases op with
  | timerAdd ev tv now => exact idle
  | processTimeouts now => exact idle

theorem unlisted_allowed {op : TimerOp E} (idle : ∀ i, p.table.watch_table i = none)
    (unlisted : Unlisted p op) : Allowed p op.call := by
  cases op with
  | timerAdd ev tv now =>
    refine ⟨⟨unlisted,?_⟩,trivial⟩
    rintro ⟨i,watched⟩
    rw [idle i] at watched
    cases watched
  | processTimeouts now => exact ⟨trivial,trivial⟩

theorem calls_allowed {ops : List (TimerOp E)} (idle : ∀ i, p.table.watch_table i = none)
    (unlisted : Obeys (fun p op => some (applyTimer p op)) Unlisted p ops) :
    Obeys (fun p op => some (Lists.apply p op)) Allowed p (ops.map TimerOp.call) := by
  induction ops generalizing p with
  | nil => trivial
  | cons op rest ih =>
    obtain ⟨first,later⟩ := obeys_total.mp unlisted
    refine obeys_total.mpr ⟨unlisted_allowed idle first,?_⟩
    exact ih (applyTimer_unwatched op idle) later

end Plain

section Steps
variable {p : Lists E} {h : Heap E}

theorem stands_holds (stands : Stands p h) : Holds h p.timers p.pending :=
  ⟨stands.represents.timers,stands.represents.pending⟩

theorem stands_sorted (stands : Stands p h) : p.timers.Pairwise fun a b =>
    timercmp (h.timeout (.event a)) (h.timeout (.event b)) (fun x y => x ≤ y) = true := by
  apply stands.valid.sorted.imp
  intro a b ordered
  rw [← before_false_iff]
  simp only [Heap.timeout,stands.represents.table]
  exact ordered

variable [DecidableEq E]

theorem timerAdd_inserts (stands : Stands p h) (idle : ∀ i, p.table.watch_table i = none) {ev : E}
    (free : p.Unlisted ev) (tv now : Timeval) :
    ∃ front back, p.timers = front ++ back ∧
      ∃ bound, ∀ fuel, bound ≤ fuel → ∃ next, h.ril_timer_add fuel ev (some tv) now = some next ∧
        Holds next (front ++ ev :: back) p.pending ∧
        next.timeout (.event ev) = timeradd now tv ∧
        ∀ other, other ≠ ev → next.timeout (.event other) = h.timeout (.event other) := by
  have unlisted : Unlisted p (.timerAdd ev tv now) := free
  obtain ⟨bound,adds⟩ := timerAdd_refines p ev (some tv) now (unlisted_allowed idle unlisted).1
  refine ⟨_,_,(List.takeWhile_append_dropWhile
    (p := (setTimer p.table ev now tv).earlier (timeradd now tv))).symm,bound,fun fuel enough => ?_⟩
  obtain ⟨next,added,after⟩ := adds fuel enough h stands
  refine ⟨next,added,stands_holds after,?_,?_⟩
  · simp [Heap.timeout,after.represents.table,Lists.timerAdd,setTimer,Table.update]
  · intro other differs
    simp [Heap.timeout,after.represents.table,stands.represents.table,Lists.timerAdd,setTimer,
      Table.update,differs]

theorem processTimeouts_moves (stands : Stands p h) (now : Timeval) :
    ∃ bound, ∀ fuel, bound ≤ fuel → ∃ next, h.processTimeouts fuel now = some next ∧
      Holds next (p.timers.filter fun ev => !Due h now ev) (p.pending ++ p.timers.filter (Due h now)) ∧
      next.table = h.table := by
  have due : Due h now = p.table.expired now := by
    funext ev
    simp only [Due,Heap.timeout,stands.represents.table,Table.expired,after_eq_before]
  obtain ⟨bound,moves⟩ := processTimeouts_refines p now
  refine ⟨bound,fun fuel enough => ?_⟩
  obtain ⟨next,moved,after⟩ := moves fuel enough h stands
  refine ⟨next,moved,?_,after.represents.table.trans stands.represents.table.symm⟩
  rw [due,← dropWhile_expired stands.valid,
    show p.timers.filter (p.table.expired now) = _ from (takeWhile_expired stands.valid now).symm]
  exact stands_holds after

end Steps

-- In every state such a run reaches: the timers are in order, each once and on
-- one list; adding puts one more among them, and expiry takes exactly those due.
theorem timer_list_sorted [DecidableEq E] (h : Heap E) (ops : List (TimerOp E))
    (unlisted : Obeys (fun p op => some (applyTimer p op)) Unlisted (start h) ops) :
    ∃ timers pending bound, ∀ fuel, bound ≤ fuel → ∃ s,
      run (Heap.step fuel) (ril_event_init h) (ops.map TimerOp.call) = some s ∧
      Holds s timers pending ∧ (timers ++ pending).Nodup ∧
      (timers.Pairwise fun a b =>
        timercmp (s.timeout (.event a)) (s.timeout (.event b)) (fun x y => x ≤ y) = true) ∧
      (∀ ev tv now, ev ∉ timers → ev ∉ pending → ∃ front back, timers = front ++ back ∧
        ∃ bound, ∀ fuel, bound ≤ fuel → ∃ next, s.ril_timer_add fuel ev (some tv) now = some next ∧
          Holds next (front ++ ev :: back) pending ∧
          next.timeout (.event ev) = timeradd now tv ∧
          ∀ other, other ≠ ev → next.timeout (.event other) = s.timeout (.event other)) ∧
      ∀ now, ∃ bound, ∀ fuel, bound ≤ fuel → ∃ next, s.processTimeouts fuel now = some next ∧
        Holds next (timers.filter fun ev => !Due s now ev) (pending ++ timers.filter (Due s now)) ∧
        next.table = s.table := by
  have none : ∀ i, (start h).table.watch_table i = none := fun _ => rfl
  obtain ⟨bound,library⟩ := library_refines h (calls_allowed none unlisted)
  have idle : ∀ i, ((ops.map TimerOp.call).foldl Lists.apply (start h)).table.watch_table i =
      Option.none := by
    rw [List.foldl_map]
    exact run_invariant (fun p : Lists E => ∀ i, p.table.watch_table i = Option.none)
      (fun p op next idle moved => by cases moved; exact applyTimer_unwatched op idle) none run_total
  generalize (ops.map TimerOp.call).foldl Lists.apply (start h) = p at library idle
  refine ⟨p.timers,p.pending,bound,fun fuel enough => ?_⟩
  obtain ⟨s,ran,stands⟩ := library fuel enough
  refine ⟨s,ran,stands_holds stands,?_,stands_sorted stands,?_,processTimeouts_moves stands⟩
  · refine List.nodup_append.mpr ⟨stands.valid.timers,stands.valid.pending,?_⟩
    intro a timer b listed same
    exact stands.valid.apart a timer (same ▸ listed)
  · intro ev tv now outside unqueued
    exact timerAdd_inserts stands idle ⟨outside,unqueued⟩ tv now

def threeTimers : List (TimerOp (Fin 4)) :=
  [.timerAdd 0 ⟨5,0⟩ ⟨0,0⟩,.timerAdd 1 ⟨2,0⟩ ⟨0,0⟩,.processTimeouts ⟨1,0⟩,.timerAdd 2 ⟨1,0⟩ ⟨1,0⟩]

theorem timer_list_sorted_three :
    ∃ timers pending bound, ∀ fuel, bound ≤ fuel → ∃ s,
      run (Heap.step fuel) (ril_event_init (blank (Fin 4))) (threeTimers.map TimerOp.call) = some s ∧
      Holds s timers pending ∧
      ∃ bound, ∀ fuel, bound ≤ fuel → ∃ next, s.processTimeouts fuel ⟨4,0⟩ = some next ∧
        Holds next (timers.filter fun ev => !Due s ⟨4,0⟩ ev)
          (pending ++ timers.filter (Due s ⟨4,0⟩)) := by
  have unlisted : Obeys (fun p op => some (applyTimer p op)) Unlisted (start (blank (Fin 4)))
      threeTimers := by
    unfold threeTimers
    simp only [obeys_total]
    exact ⟨⟨by decide,by decide⟩,⟨by decide,by decide⟩,trivial,⟨by decide,by decide⟩,trivial⟩
  obtain ⟨timers,pending,bound,sorted⟩ := timer_list_sorted (blank (Fin 4)) threeTimers unlisted
  refine ⟨timers,pending,bound,fun fuel enough => ?_⟩
  obtain ⟨s,ran,holds,_,_,_,expires⟩ := sorted fuel enough
  obtain ⟨later,moves⟩ := expires ⟨4,0⟩
  refine ⟨s,ran,holds,later,fun fuel enough => ?_⟩
  obtain ⟨next,moved,left,_⟩ := moves fuel enough
  exact ⟨next,moved,left⟩

end SemcMsm7x30.TimerList

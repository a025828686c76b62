import SemcMsm7x30.LoopSteps
import SemcMsm7x30.TimerList

namespace SemcMsm7x30.TimedCallbacks
open LinkRing PartialMachine EventRefinement LoopSteps TimerList

-- timeradd carries once. That is enough below two seconds of microseconds.
def OneCarry (now tv : Timeval) : Prop := now.tv_usec+tv.tv_usec < 2000000

instance (now tv : Timeval) : Decidable (OneCarry now tv) :=
  inferInstanceAs (Decidable (_ < _))

theorem timeradd_value (a b : Timeval) : (timeradd a b).value = a.value+b.value := by
  unfold Timeval.value timeradd
  simp only
  split <;> simp only <;> omega

theorem timeradd_normal_iff {now tv : Timeval} (normal : now.Normal) (positive : 0 ≤ tv.tv_usec) :
    (timeradd now tv).Normal ↔ OneCarry now tv := by
  unfold Timeval.Normal OneCarry timeradd at *
  simp only
  split <;> simp only <;> omega

def Accepted (tv : Timeval) : Prop := 0 ≤ tv.tv_sec ∧ tv.Normal

instance (tv : Timeval) : Decidable (Accepted tv) := inferInstanceAs (Decidable (_ ∧ _))

theorem timersub_accepted {a b : Timeval} (normalA : a.Normal) (normalB : b.Normal)
    (later : a.after b = true) : Accepted (timersub a b) := by
  rw [after_eq_before,before_iff] at later
  unfold Accepted Timeval.Normal timersub at *
  simp only
  split <;> simp only <;> omega

-- One timer and every later reading of the clock: it is held back long enough and
-- waited for properly exactly when one carry is enough.
theorem deadline_kept_iff {now tv : Timeval} (normal : now.Normal) (seconds : 0 ≤ tv.tv_sec)
    (positive : 0 ≤ tv.tv_usec) :
    (∀ clock : Timeval, clock.Normal → now.value ≤ clock.value →
      (clock.after (timeradd now tv) = true → now.value+tv.value ≤ clock.value) ∧
      ((timeradd now tv).after clock = true → Accepted (timersub (timeradd now tv) clock))) ↔
      OneCarry now tv := by
  constructor
  · intro kept
    by_contra twice
    have clock : (⟨now.tv_sec+1,0⟩ : Timeval).Normal := ⟨le_rfl,by norm_num⟩
    unfold OneCarry at twice
    unfold Timeval.Normal at normal
    have sum : timeradd now tv = ⟨now.tv_sec+tv.tv_sec+1,now.tv_usec+tv.tv_usec-1000000⟩ := by
      unfold timeradd
      simp only
      rw [if_pos (by omega)]
    have ahead : (timeradd now tv).after ⟨now.tv_sec+1,0⟩ = true := by
      rw [after_eq_before,before_iff,sum]
      simp only
      omega
    have accepted := (kept _ clock (by unfold Timeval.value; simp only; omega)).2 ahead
    rw [sum] at accepted
    unfold Accepted Timeval.Normal timersub at accepted
    simp only at accepted
    split at accepted <;> simp only at accepted <;> omega
  · intro once clock normalClock _
    have deadline := (timeradd_normal_iff normal positive).mpr once
    refine ⟨fun fires => ?_,timersub_accepted deadline normalClock⟩
    rw [after_eq_before,before_iff_value deadline normalClock,timeradd_value] at fires
    exact le_of_lt fires

section Runs
variable {E : Type}

def asks : Move E → Option (E × Timeval × Timeval)
  | .request ev relativeTime now => some (ev,now,relativeTime.getD ⟨0,0⟩)
  | .call (.timerAdd ev (some tv) now) => some (ev,now,tv)
  | _ => none

def Measured (move : Move E) : Prop :=
  ∀ ev now tv, asks move = some (ev,now,tv) → now.Normal ∧ 0 ≤ tv.tv_sec ∧ 0 ≤ tv.tv_usec

def Carried (move : Move E) : Prop :=
  ∀ ev now tv, asks move = some (ev,now,tv) → OneCarry now tv

variable [DecidableEq E]

def noteAsked (ev : E) (known : Option (Timeval × Timeval)) (move : Move E) :
    Option (Timeval × Timeval) :=
  match asks move with
  | some (other,asked) => if other = ev then some asked else known
  | none => known

def lastAsked (moves : List (Move E)) (ev : E) : Option (Timeval × Timeval) :=
  moves.foldl (noteAsked ev) none

theorem lastAsked_snoc (moves : List (Move E)) (move : Move E) (ev : E) :
    lastAsked (moves ++ [move]) ev = noteAsked ev (lastAsked moves ev) move := by
  simp [lastAsked]

theorem call_deadline {p : Lists E} {op : LibraryCall E} {ev : E} (proper : CallProper p op)
    (listed : ev ∈ (p.call op).timers) :
    (∃ tv now, op = .timerAdd ev (some tv) now ∧
        ((p.call op).table.event ev).timeout = timeradd now tv) ∨
      (ev ∈ p.timers ∧ ((p.call op).table.event ev).timeout = (p.table.event ev).timeout) := by
  rcases call_timer listed with before | ⟨tv,now,rfl⟩
  · refine .inr ⟨before,?_⟩
    cases op with
    | timerAdd other tv now =>
      cases tv with
      | none => rfl
      | some tv =>
        have differs : ev ≠ other := fun same => proper.1.1.1 (same ▸ before)
        exact (update_sameFields differs).timeout
    | eventAdd other => exact (add_sameFields p.table other ev).timeout
    | eventDel other => exact (del_sameFields p.table other ev).timeout
    | eventSet other fd persist =>
      have differs : ev ≠ other := fun same => proper.1.1 (same ▸ before)
      exact (update_sameFields differs).timeout
  · refine .inl ⟨tv,now,rfl,?_⟩
    simp [Lists.call,Lists.timerAdd,setTimer,Table.update]

variable {s next : Placed (Lists E) E}

theorem step_deadline {move : Move E} {ev : E} (proper : MoveProper s move)
    (moved : listStep s move = some next) (listed : ev ∈ next.lib.timers) :
    (∃ now tv, asks move = some (ev,now,tv) ∧ (next.lib.table.event ev).timeout = timeradd now tv) ∨
      (ev ∈ s.lib.timers ∧
        (next.lib.table.event ev).timeout = (s.lib.table.event ev).timeout) := by
  cases move with
  | request other relativeTime now =>
    cases moved
    have set : CallProper s.lib (.eventSet other (-1) false) := proper
    have add : CallProper (s.lib.call (.eventSet other (-1) false))
        (.timerAdd other (some (relativeTime.getD ⟨0,0⟩)) now) :=
      ⟨set_free proper,set_outside s.lib other (-1) false⟩
    rcases call_deadline add listed with ⟨tv,clock,same,deadline⟩ | ⟨before,kept⟩
    · cases same
      exact .inl ⟨now,_,rfl,deadline⟩
    · rcases call_deadline set before with ⟨_,_,impossible,_⟩ | ⟨old,unchanged⟩
      · cases impossible
      · exact .inr ⟨old,kept.trans unchanged⟩
  | call op =>
    cases moved
    rcases call_deadline proper listed with ⟨tv,now,rfl,deadline⟩ | before
    · exact .inl ⟨now,tv,rfl,deadline⟩
    · exact .inr before
  | processTimeouts now =>
    obtain ⟨_,rfl⟩ := timeouts_moved moved
    exact .inr ⟨(List.dropWhile_suffix _).subset listed,rfl⟩
  | processReadReadies rfds n =>
    obtain ⟨_,rfl⟩ := readies_moved moved
    obtain ⟨timers,_,same⟩ := readReadies_fields (p := s.lib) rfds slots n
    exact .inr ⟨timers ▸ listed,(same ev).timeout⟩
  | firePending =>
    obtain ⟨_,rfl⟩ := firePending_moved moved
    exact .inr ⟨listed,rfl⟩
  | fire =>
    rcases fire_moved moved with ⟨_,_,_,rfl⟩ | ⟨_,_,_,_,_,rfl⟩
    · exact .inr ⟨listed,rfl⟩
    · exact .inr ⟨listed,rfl⟩

omit [DecidableEq E] in
theorem asked_free {move : Move E} {ev : E} {now tv : Timeval} (proper : MoveProper s move)
    (asked : asks move = some (ev,now,tv)) : s.lib.Free ev := by
  cases move with
  | request other relativeTime clock =>
    cases asked
    exact proper
  | call op =>
    cases op with
    | timerAdd other relative clock =>
      cases relative with
      | none => cases asked
      | some relative =>
        cases asked
        exact proper.1
    | eventAdd other => cases asked
    | eventDel other => cases asked
    | eventSet other fd persist => cases asked
  | processTimeouts now => cases asked
  | processReadReadies rfds n => cases asked
  | firePending => cases asked
  | fire => cases asked

def Deadlines (moves : List (Move E)) (s : Placed (Lists E) E) : Prop :=
  ∀ ev ∈ s.lib.timers, ∃ now tv, lastAsked moves ev = some (now,tv) ∧
    (∃ move ∈ moves, asks move = some (ev,now,tv)) ∧
    (s.lib.table.event ev).timeout = timeradd now tv

theorem step_deadlines {moves : List (Move E)} {move : Move E} (deadlines : Deadlines moves s)
    (proper : MoveProper s move) (moved : listStep s move = some next) :
    Deadlines (moves ++ [move]) next := by
  intro ev listed
  rw [lastAsked_snoc]
  unfold noteAsked
  rcases step_deadline proper moved listed with ⟨now,tv,asked,deadline⟩ | ⟨before,same⟩
  · refine ⟨now,tv,?_,⟨move,by simp,asked⟩,deadline⟩
    simp only [asked,if_true]
  · obtain ⟨now,tv,last,⟨earlier,present,asked⟩,deadline⟩ := deadlines ev before
    refine ⟨now,tv,?_,⟨earlier,by simp [present],asked⟩,same.trans deadline⟩
    split
    · rename_i other again found
      have differs : other ≠ ev := by
        intro equal
        subst equal
        exact (asked_free proper found).1.1 before
      rw [if_neg differs]
      exact last
    · exact last

theorem run_deadlines {h : Heap E} {moves : List (Move E)}
    (proper : Obeys listStep MoveProper (beginLists h) moves)
    (ran : run listStep (beginLists h) moves = some s) : Deadlines moves s := by
  have start : Deadlines [] (beginLists h) := by
    intro ev listed
    cases listed
  have kept := obeys_history Deadlines
    (fun _ _ _ _ deadlines proper moved => step_deadlines deadlines proper moved) start proper ran
  exact kept

theorem deadline_meant {moves : List (Move E)} (deadlines : Deadlines moves s)
    (measured : ∀ move ∈ moves, Measured move) (carried : ∀ move ∈ moves, Carried move) {ev : E}
    (listed : ev ∈ s.lib.timers) :
    (s.lib.table.event ev).timeout.Normal ∧
      ∃ asked tv, lastAsked moves ev = some (asked,tv) ∧
        (s.lib.table.event ev).timeout.value = asked.value+tv.value := by
  obtain ⟨asked,tv,last,⟨move,present,asks⟩,deadline⟩ := deadlines ev listed
  obtain ⟨normal,_,positive⟩ := measured move present ev asked tv asks
  rw [deadline]
  refine ⟨(timeradd_normal_iff normal positive).mpr ?_,asked,tv,last,timeradd_value asked tv⟩
  exact carried move present ev asked tv asks

omit [DecidableEq E] in
theorem calcNextTimeout_accepted {p : Lists E} {now : Timeval} (normal : now.Normal)
    (timers : ∀ ev ∈ p.timers, (p.table.event ev).timeout.Normal) :
    ∀ tv ∈ p.calcNextTimeout now, Accepted tv := by
  intro tv returned
  unfold Lists.calcNextTimeout at returned
  cases queue : p.timers with
  | nil =>
    rw [queue] at returned
    cases returned
  | cons tev rest =>
    rw [queue] at returned
    simp only at returned
    split at returned
    · rename_i ahead
      cases returned
      exact timersub_accepted (timers tev (queue ▸ List.mem_cons_self)) normal ahead
    · cases returned
      exact ⟨le_rfl,le_rfl,by norm_num⟩

-- The callers' promises, the readings, and one carry at every addition: then in
-- every state reached select() gets a proper timeout and nothing expires early.
theorem timed_callback_on_time (h : Heap E) (moves : List (Move E))
    (proper : Obeys listStep MoveProper (beginLists h) moves)
    (ran : run listStep (beginLists h) moves = some s) (measured : ∀ move ∈ moves, Measured move)
    (carried : ∀ move ∈ moves, Carried move) (now : Timeval) (normal : now.Normal) :
    ∃ bound, ∀ fuel, bound ≤ fuel → ∃ c, run (heapStep fuel) (begin h) moves = some c ∧
      c.place = s.place ∧ (∃ tv, c.lib.calcNextTimeout now = some tv ∧ ∀ t ∈ tv, Accepted t) ∧
      (c.place = .top → ∃ next timers pending moved,
        heapStep fuel c (.processTimeouts now) = some next ∧ Holds c.lib timers pending ∧
        (∃ left, Holds next.lib left (pending ++ moved)) ∧
        ∀ ev ∈ moved, ∃ asked tv, lastAsked moves ev = some (asked,tv) ∧
          asked.value+tv.value ≤ now.value) := by
  have deadlines := run_deadlines proper ran
  obtain ⟨first,refines⟩ := moves_refine (begin_sound h) proper ran
  obtain ⟨second,expires⟩ := processTimeouts_refines s.lib now
  refine ⟨max first second,fun fuel enough => ?_⟩
  obtain ⟨c,ranC,stands,place⟩ :=
    refines fuel (le_trans (le_max_left _ _) enough) (begin h) (begin_stands h)
  have meant := fun ev (listed : ev ∈ s.lib.timers) =>
    deadline_meant deadlines measured carried listed
  refine ⟨c,ranC,place,⟨_,calcNextTimeout_represents stands.represents now,?_⟩,fun top => ?_⟩
  · exact calcNextTimeout_accepted normal fun ev listed => (meant ev listed).1
  · obtain ⟨last,moved,after⟩ := expires fuel (le_trans (le_max_right _ _) enough) c.lib stands
    refine ⟨⟨last,.timed⟩,s.lib.timers,s.lib.pending,s.lib.timers.takeWhile (s.lib.table.expired now),
      ?_,stands_holds stands,⟨_,stands_holds after⟩,?_⟩
    · simp only [heapStep,top,moved,Option.map_some]
    · intro ev present
      have expired : s.lib.table.expired now ev = true := List.mem_takeWhile_imp present
      obtain ⟨deadline,asked,tv,lastTime,value⟩ :=
        meant ev ((List.takeWhile_prefix _).subset present)
      rw [Table.expired,after_eq_before,before_iff_value deadline normal,value] at expired
      exact ⟨asked,tv,lastTime,le_of_lt expired⟩

end Runs

def twoRequests : List (Move Bool) :=
  [.request false none ⟨0,900000⟩,.request true (some ⟨1,500000⟩) ⟨0,900000⟩,
    .processTimeouts ⟨1,0⟩,.processReadReadies ∅ 0,.firePending,.fire,.fire]

theorem twoRequests_proper :
    Obeys listStep MoveProper (beginLists (blank Bool)) twoRequests := by
  unfold twoRequests
  refine obeys_step rfl ⟨⟨by decide,by decide⟩,by decide⟩ ?_
  refine obeys_step rfl ⟨⟨by decide,by decide⟩,by decide⟩ ?_
  exact obeys_step rfl trivial (obeys_step rfl trivial (obeys_step rfl trivial
    (obeys_step rfl trivial (obeys_step rfl trivial trivial))))

theorem timed_callback_on_time_two :
    ∃ fuel c, run (heapStep fuel) (begin (blank Bool)) twoRequests = some c ∧
      ∃ next timers pending moved, heapStep fuel c (.processTimeouts ⟨3,0⟩) = some next ∧
        Holds c.lib timers pending ∧ (∃ left, Holds next.lib left (pending ++ moved)) ∧
        ∀ ev ∈ moved, ∃ asked tv, lastAsked twoRequests ev = some (asked,tv) ∧
          asked.value+tv.value ≤ 3000000 := by
  have measured : ∀ move ∈ twoRequests, Measured move := by
    intro move present ev now tv asked
    simp only [twoRequests,List.mem_cons,List.not_mem_nil,or_false] at present
    rcases present with rfl | rfl | rfl | rfl | rfl | rfl | rfl <;> cases asked <;> decide
  have carried : ∀ move ∈ twoRequests, Carried move := by
    intro move present ev now tv asked
    simp only [twoRequests,List.mem_cons,List.not_mem_nil,or_false] at present
    rcases present with rfl | rfl | rfl | rfl | rfl | rfl | rfl <;> cases asked <;> decide
  obtain ⟨bound,holds⟩ := timed_callback_on_time (blank Bool) twoRequests twoRequests_proper rfl
    measured carried ⟨3,0⟩ (by decide)
  obtain ⟨c,ran,place,_,expires⟩ := holds bound le_rfl
  exact ⟨bound,c,ran,expires place⟩

-- Two and a half seconds given in microseconds: the sum still has a million and a
-- half of them, so it compares as before the next second.
theorem timed_callback_early :
    Obeys listStep MoveProper (beginLists (blank Unit)) [.request () (some ⟨0,2500000⟩) ⟨0,0⟩] ∧
    Measured (.request () (some ⟨0,2500000⟩) ⟨0,0⟩) ∧
    ∃ c next, run (heapStep 2) (begin (blank Unit)) [.request () (some ⟨0,2500000⟩) ⟨0,0⟩] = some c ∧
      c.lib.calcNextTimeout ⟨0,0⟩ = some (some ⟨1,1500000⟩) ∧ ¬ Accepted ⟨1,1500000⟩ ∧
      heapStep 2 c (.processTimeouts ⟨2,0⟩) = some next ∧ Holds c.lib [()] [] ∧
      Holds next.lib [] [()] ∧
      ¬ (⟨0,0⟩ : Timeval).value+(⟨0,2500000⟩ : Timeval).value ≤ (⟨2,0⟩ : Timeval).value := by
  refine ⟨obeys_step rfl ⟨⟨by decide,by decide⟩,by decide⟩ trivial,?_,_,_,rfl,rfl,by decide,rfl,
    ⟨⟨?_,by decide⟩,?_,by decide⟩,⟨⟨?_,by decide⟩,?_,by decide⟩,by decide⟩
  · intro ev now tv asked
    cases asked
    decide
  · exact ⟨rfl,rfl,rfl,rfl⟩
  · exact ⟨rfl,rfl⟩
  · exact ⟨rfl,rfl⟩
  · exact ⟨rfl,rfl,rfl,rfl⟩

end SemcMsm7x30.TimedCallbacks

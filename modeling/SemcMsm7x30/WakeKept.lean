import SemcMsm7x30.WakeLock

namespace SemcMsm7x30.WakeLock
open PartialMachine

def Accepted (code : Int) (data : UnsolData) : Prop :=
  ∃ converted info, unsolEntry code = some (converted,info) ∧ info.wakeType = .WAKE_PARTIAL ∧
    (unsolPayload info.responseFunction data).2 = 0

def Rejected (code : Int) (data : UnsolData) : Prop :=
  ∃ converted info, unsolEntry code = some (converted,info) ∧ info.wakeType = .WAKE_PARTIAL ∧
    (unsolPayload info.responseFunction data).2 ≠ 0

def Normal : Step → Prop
  | .ril (.unsolicited _ code data _ _ _) => Accepted code data
  | _ => False

def Rejects : Step → Prop
  | .ril (.unsolicited _ code data _ _ _) => Rejected code data
  | _ => False

structure WakeKept (holds : Ril → Prop) : Prop where
  grabbed : ∀ s, holds s → holds {s with wakeLockHeld := true}
  same : ∀ {s after}, SameWake s after → holds s → holds after
  scheduled : ∀ s, holds s → holds (scheduleWakeTimeout s)

section Calls
variable {b : Build} {writes : Writes} {now : Int} {state : RadioState} {socket_id : SocketId}
  {s : Ril} {holds : Ril → Prop}

theorem WakeKept.grab (kept : WakeKept holds) (info : UnsolResponseInfo) (held : holds s) :
    holds (grabFor info s) := by
  unfold grabFor
  split
  · exact kept.grabbed s held
  · exact held

theorem WakeKept.schedule (kept : WakeKept holds) (info : UnsolResponseInfo) (held : holds s) :
    holds (scheduleFor info s) := by
  unfold scheduleFor
  split
  · exact kept.scheduled s held
  · exact held

-- Only the error exit of a WAKE_PARTIAL code gives the lock back.
theorem unsolicited_kept (kept : WakeKept holds) {radio : Ril → Ril × List UInt8}
    (inner : ∀ s, holds s → holds (radio s).1) {code : Int} {data : UnsolData}
    (taken : ¬ Rejected code data) (held : holds s) :
    holds (unsolicitedWith b radio writes now s code data socket_id) := by
  unfold unsolicitedWith
  split
  · exact held
  · rename_i converted info entry
    simp only
    split
    · rename_i failed
      have sleeps : info.wakeType ≠ .WAKE_PARTIAL := fun wakes =>
        taken ⟨converted,info,entry,wakes,failed⟩
      simpa only [releaseFor,grabFor,if_neg sleeps] using held
    · apply kept.schedule
      apply kept.same (deliver_same _ _ _)
      exact more_kept inner converted (kept.grab info held)

theorem accepted_schedules (kept : WakeKept holds) {radio : Ril → Ril × List UInt8}
    (inner : ∀ s, holds s → holds (radio s).1) {code : Int} {data : UnsolData}
    (accepted : Accepted code data) (grabbed : holds {s with wakeLockHeld := true}) :
    ∃ before, holds before ∧
      unsolicitedWith b radio writes now s code data socket_id = scheduleWakeTimeout before := by
  obtain ⟨converted,info,entry,wakes,good⟩ := accepted
  have taken : holds (grabFor info s) := by rwa [grabFor,if_pos wakes]
  let more := morePayload radio now converted (grabFor info s)
  let frame := unsolFrame converted (unsolPayload info.responseFunction data).1 more.2
  refine ⟨deliverUnsol b writes more.1 converted frame socket_id,?_,?_⟩
  · exact kept.same (deliver_same _ _ _) (more_kept inner converted taken)
  · unfold unsolicitedWith
    rw [entry]
    simp only
    rw [if_neg (not_not.mpr good),scheduleFor,if_pos wakes]

theorem own_taken {data : UnsolData} (own : Own data) (code : Int) : ¬ Rejected code data := by
  rintro ⟨_,info,_,_,failed⟩
  exact failed (own info.responseFunction)

theorem radioState_kept (kept : WakeKept holds) (s : Ril) (held : holds s) :
    holds (processRadioState b writes now s state socket_id).1 := by
  apply radio_kept _ _ s held
  · exact fun s _ _ _ => kept.same ⟨rfl,rfl,rfl,rfl⟩
  · exact fun s code data _ own => unsolicited_kept kept (fun _ held => held) (own_taken own code)

theorem onUnsolicited_kept (kept : WakeKept holds) {code : Int} {data : UnsolData}
    (taken : ¬ Rejected code data) (held : holds s) :
    holds (RIL_onUnsolicitedResponse b writes now state s code data socket_id) :=
  unsolicited_kept kept (radioState_kept kept) taken held

theorem ril_kept (kept : WakeKept holds) {action : Action} {after : Ril}
    (taken : ¬ Rejects (.ril action)) (held : holds s) (moved : step b s action = some after) :
    holds after := by
  cases action with
  | command socket_id buffer state writes => exact kept.same (command_same moved) held
  | issueLocal socket_id request data => exact kept.same (issueLocal_same moved) held
  | complete addr e response writes =>
    cases moved
    exact kept.same (complete_same addr e response) held
  | disconnect socket_id =>
    cases moved
    have same : SameWake s (onCommandsSocketClosed b (setConnected b s socket_id false) socket_id) :=
      ⟨rfl,rfl,rfl,rfl⟩
    exact kept.same same held
  | unsolicited socket_id code data state now writes =>
    cases moved
    exact onUnsolicited_kept kept taken held
  | connect socket_id state now writes =>
    cases moved
    have same : SameWake s (setConnected b s socket_id true) := ⟨rfl,rfl,rfl,rfl⟩
    unfold onNewCommandConnect
    apply kept.same flush_same
    apply onUnsolicited_kept kept (own_taken own_null _)
    apply onUnsolicited_kept kept (own_taken (own_int _) _)
    exact kept.same same held

end Calls

structure Guarded (own : Nat) (s : Ril) : Prop where
  armed : Armed s
  held : s.wakeLockHeld = true
  last : ∃ info, own ≤ info ∧ s.lastWakeTimeoutInfo = some info

section Guard
variable {b : Build} {s after : Ril} {own : Nat}

theorem guarded_kept (own : Nat) : WakeKept (Guarded own) where
  grabbed s guarded := ⟨⟨guarded.armed.fresh,guarded.armed.distinct,guarded.armed.live,
    guarded.armed.last⟩,rfl,guarded.last⟩
  same same guarded := by
    refine ⟨same.armed guarded.armed,?_,?_⟩
    · rw [same.held]
      exact guarded.held
    · rw [same.last]
      exact guarded.last
  scheduled s guarded := by
    obtain ⟨info,later,points⟩ := guarded.last
    have small := guarded.armed.fresh _ (guarded.armed.last info points)
    refine ⟨scheduleWakeTimeout_armed guarded.armed,guarded.held,s.nextTimer,?_,rfl⟩
    exact Nat.le_of_lt (Nat.lt_of_le_of_lt later small)

-- A timer set before `own` was cancelled when a later one was set.
theorem timer_guarded {info : Nat} (guarded : Guarded own s) (earlier : info < own)
    (moved : next b s (.timer info) = some after) : Guarded own after := by
  obtain ⟨timer,found,rfl⟩ := Option.map_eq_some_iff.mp moved
  have present := List.mem_of_find?_eq_some found
  have number : timer.info = info := by simpa using List.find?_some found
  obtain ⟨live,later,points⟩ := guarded.last
  have unpointed : s.lastWakeTimeoutInfo ≠ some timer.info := by
    rw [points]
    intro same
    have := Option.some.inj same
    omega
  have cancelled : timer.cancelled = true := by
    by_contra alive
    exact unpointed (guarded.armed.live timer present (by simpa using alive))
  have left : userTimerCallback s timer = {s with wakeTimers := s.wakeTimers.erase timer} := by
    simp only [userTimerCallback,wakeTimeoutCallback,cancelled,if_true,if_neg unpointed]
  refine ⟨fire_armed guarded.armed present,?_,live,later,?_⟩
  · rw [left]
    exact guarded.held
  · rw [left]
    exact points

theorem step_guarded {action : Step} (guarded : Guarded own s) (taken : ¬ Rejects action)
    (earlier : ∀ info, action = .timer info → info < own) (moved : next b s action = some after) :
    Guarded own after := by
  cases action with
  | ril action => exact ril_kept (guarded_kept own) taken guarded moved
  | timer info => exact timer_guarded guarded (earlier info rfl) moved

theorem run_guarded {steps : List Step} (guarded : Guarded own s)
    (taken : ∀ action ∈ steps, ¬ Rejects action)
    (earlier : ∀ info, .timer info ∈ steps → info < own)
    (ran : run (next b) s steps = some after) : Guarded own after := by
  induction steps generalizing s with
  | nil =>
    cases ran
    exact guarded
  | cons action rest ih =>
    obtain ⟨middle,moved,tail⟩ := run_cons ran
    obtain ⟨first,others⟩ := List.forall_mem_cons.mp taken
    have one : Guarded own middle := step_guarded guarded first
      (fun info same => earlier info (same ▸ List.mem_cons_self)) moved
    exact ih one others (fun info later => earlier info (List.mem_cons_of_mem action later)) tail

def Taking (first : Nat) (s : Ril) : Prop := s.wakeLockHeld = true ∧ first ≤ s.nextTimer

theorem taking_kept (first : Nat) : WakeKept (Taking first) where
  grabbed s taking := ⟨rfl,taking.2⟩
  same same taking := by
    unfold Taking
    rw [same.held,same.nextTimer]
    exact taking
  scheduled s taking := ⟨taking.1,Nat.le_succ_of_le taking.2⟩

theorem accepted_guards {writes : Writes} {now : Int} {state : RadioState} {socket_id : SocketId}
    {code : Int} {data : UnsolData} (armed : Armed s) (accepted : Accepted code data) :
    ∃ own, s.nextTimer ≤ own ∧
      (RIL_onUnsolicitedResponse b writes now state s code data socket_id).lastWakeTimeoutInfo =
        some own ∧
      Guarded own (RIL_onUnsolicitedResponse b writes now state s code data socket_id) := by
  have armedAfter : Armed (RIL_onUnsolicitedResponse b writes now state s code data socket_id) :=
    onUnsolicited_armed code data armed
  have grabbed : Taking s.nextTimer {s with wakeLockHeld := true} := ⟨rfl,le_refl _⟩
  obtain ⟨before,taking,same⟩ : ∃ before, Taking s.nextTimer before ∧
      RIL_onUnsolicitedResponse b writes now state s code data socket_id =
        scheduleWakeTimeout before :=
    accepted_schedules (taking_kept _) (radioState_kept (taking_kept _)) accepted grabbed
  rw [same] at armedAfter ⊢
  exact ⟨before.nextTimer,taking.2,rfl,armedAfter,taking.1,before.nextTimer,le_refl _,rfl⟩

theorem rejects_releases {action : Step} (rejects : Rejects action)
    (moved : next b s action = some after) : after.wakeLockHeld = false := by
  cases action with
  | timer info => exact rejects.elim
  | ril action =>
    cases action with
    | unsolicited socket_id code data state now writes =>
      cases moved
      obtain ⟨converted,info,entry,wakes,failed⟩ := rejects
      unfold RIL_onUnsolicitedResponse unsolicitedWith
      rw [entry]
      simp only
      rw [if_pos failed,releaseFor,if_pos wakes]
    | command socket_id buffer state writes => exact rejects.elim
    | issueLocal socket_id request data => exact rejects.elim
    | complete addr e response writes => exact rejects.elim
    | connect socket_id state now writes => exact rejects.elim
    | disconnect socket_id => exact rejects.elim

end Guard

def HeldThroughout (b : Build) (s : Ril) (steps : List Step) : Prop :=
  ∀ front back, steps = front ++ back → ∀ reached, run (next b) s front = some reached →
    reached.wakeLockHeld = true

theorem guarded_throughout {b : Build} {s last : Ril} {own : Nat} {steps : List Step}
    (guarded : Guarded own s) (earlier : ∀ info, .timer info ∈ steps → info < own)
    (ran : run (next b) s steps = some last) :
    HeldThroughout b s steps ↔ ∀ action ∈ steps, ¬ Rejects action := by
  constructor
  · intro held action member rejects
    obtain ⟨front,back,rfl⟩ := List.append_of_mem member
    rw [run_append] at ran
    obtain ⟨middle,before,rest⟩ := Option.bind_eq_some_iff.mp ran
    obtain ⟨after,moved,_⟩ := run_cons rest
    have one : run (next b) s (front ++ [action]) = some after := by
      rw [run_append,before]
      simp [run,moved]
    have still := held (front ++ [action]) back (by simp) after one
    rw [rejects_releases rejects moved] at still
    cases still
  · intro taken front back split reached before
    subst split
    exact (run_guarded guarded (fun action member => taken action (List.mem_append_left _ member))
      (fun info member => earlier info (List.mem_append_left _ member)) before).held

-- `own` is the timer the call has set, and the timers the later calls set have
-- greater numbers.
theorem lock_kept_until_timer {b : Build} {before : List Step} {s after : Ril}
    (ran : run (next b) .initial before = some s) {call : Step} (normal : Normal call)
    (called : next b s call = some after) :
    ∃ own, s.nextTimer ≤ own ∧ after.lastWakeTimeoutInfo = some own ∧
      ∀ steps last, (∀ info, .timer info ∈ steps → info < own) →
        run (next b) after steps = some last →
        (HeldThroughout b after steps ↔ ∀ action ∈ steps, ¬ Rejects action) := by
  have safe := run_invariant Safe step_safe initial_safe ran
  cases call with
  | timer info => exact normal.elim
  | ril action =>
    cases action with
    | unsolicited socket_id code data state now writes =>
      cases called
      obtain ⟨own,fresh,points,guarded⟩ := accepted_guards safe.armed normal
      exact ⟨own,fresh,points,fun steps last earlier => guarded_throughout guarded earlier⟩
    | command socket_id buffer state writes => exact normal.elim
    | issueLocal socket_id request data => exact normal.elim
    | complete addr e response writes => exact normal.elim
    | connect socket_id state now writes => exact normal.elim
    | disconnect socket_id => exact normal.elim

def radioChanged : Step := .ril (.unsolicited .socket1 1000 .null .on 0 fun _ => true)

theorem radioChanged_normal : Normal radioChanged := ⟨1000,⟨1000,.responseVoid,.WAKE_PARTIAL⟩,rfl,rfl,rfl⟩

theorem lock_kept_until_timer_third :
    ∃ s after, run (next (asciiBuild 1)) .initial [radioChanged] = some s ∧
      next (asciiBuild 1) s radioChanged = some after ∧
      HeldThroughout (asciiBuild 1) after [radioChanged,.timer 0] := by
  obtain ⟨s,after,last,ran,count,called,rest⟩ : ∃ s after last,
      run (next (asciiBuild 1)) .initial [radioChanged] = some s ∧ s.nextTimer = 1 ∧
      next (asciiBuild 1) s radioChanged = some after ∧
      run (next (asciiBuild 1)) after [radioChanged,.timer 0] = some last :=
    ⟨_,_,_,rfl,rfl,rfl,rfl⟩
  obtain ⟨own,fresh,points,kept⟩ := lock_kept_until_timer ran radioChanged_normal called
  refine ⟨s,after,ran,called,(kept _ last ?_ rest).mpr ?_⟩
  · intro info member
    have first : info = 0 := by simpa [radioChanged] using member
    omega
  · intro action member
    rcases List.mem_cons.mp member with rfl | member
    · exact own_taken own_null 1000
    · cases List.mem_singleton.mp member
      exact id

def brokenUssd : Step := .ril (.unsolicited .socket1 1006 (.vendor [] (-1)) .on 0 fun _ => true)

-- The timer of the first call is still to fire.
theorem broken_ussd_releases :
    Normal radioChanged ∧
    ∃ after last, next (asciiBuild 1) .initial radioChanged = some after ∧
      after.wakeLockHeld = true ∧ after.lastWakeTimeoutInfo = some 0 ∧
      next (asciiBuild 1) after brokenUssd = some last ∧
      last.wakeLockHeld = false ∧ last.wakeTimers = [⟨0,false⟩] :=
  ⟨radioChanged_normal,_,_,rfl,rfl,rfl,rfl,rfl,rfl⟩

end SemcMsm7x30.WakeLock

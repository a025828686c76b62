import SemcMsm7x30.Effects

namespace SemcMsm7x30.WakeLock
open PartialMachine

-- "param != NULL" is the cancellation mechanism.
def wakeTimeoutCallback (s : Ril) (cancelled : Bool) : Ril :=
  if cancelled then s else {s with wakeLockHeld := false}

-- The event loop has taken the timer off its list; its memory is freed at the end.
def userTimerCallback (s : Ril) (timer : WakeTimer) : Ril :=
  let s := wakeTimeoutCallback s timer.cancelled
  let s := if s.lastWakeTimeoutInfo = some timer.info then {s with lastWakeTimeoutInfo := none} else s
  {s with wakeTimers := s.wakeTimers.erase timer}

inductive Step where
  | ril (action : Action)
  | timer (info : Nat)

def next (b : Build) (s : Ril) : Step → Option Ril
  | .ril action => step b s action
  | .timer info => (s.wakeTimers.find? (·.info = info)).map (userTimerCallback s)

-- Only the timer that s_last_wake_timeout_info points to is not cancelled.
structure Armed (s : Ril) : Prop where
  fresh : ∀ t ∈ s.wakeTimers, t.info < s.nextTimer
  distinct : (s.wakeTimers.map (·.info)).Nodup
  live : ∀ t ∈ s.wakeTimers, t.cancelled = false → s.lastWakeTimeoutInfo = some t.info
  last : ∀ info, s.lastWakeTimeoutInfo = some info → ⟨info,false⟩ ∈ s.wakeTimers

def Timed (s : Ril) : Prop := s.wakeLockHeld = true → s.lastWakeTimeoutInfo ≠ none

structure SameWake (s next : Ril) : Prop where
  held : next.wakeLockHeld = s.wakeLockHeld
  timers : next.wakeTimers = s.wakeTimers
  nextTimer : next.nextTimer = s.nextTimer
  last : next.lastWakeTimeoutInfo = s.lastWakeTimeoutInfo

theorem sameWake_refl (s : Ril) : SameWake s s := ⟨rfl,rfl,rfl,rfl⟩

section Frame
variable {b : Build} {writes : Writes} {s middle after : Ril}

theorem SameWake.trans (one : SameWake s middle) (two : SameWake middle after) : SameWake s after :=
  ⟨two.held.trans one.held,two.timers.trans one.timers,two.nextTimer.trans one.nextTimer,
    two.last.trans one.last⟩

theorem SameWake.armed (same : SameWake s after) (armed : Armed s) : Armed after := by
  refine ⟨?_,?_,?_,?_⟩
  · rw [same.timers,same.nextTimer]
    exact armed.fresh
  · rw [same.timers]
    exact armed.distinct
  · rw [same.timers,same.last]
    exact armed.live
  · rw [same.timers,same.last]
    exact armed.last

theorem SameWake.timed (same : SameWake s after) (timed : Timed s) : Timed after := by
  unfold Timed
  rw [same.held,same.last]
  exact timed

theorem deliver_same (code : Int) (data : List UInt8) (socket_id : SocketId) :
    SameWake s (deliverUnsol b writes s code data socket_id) := by
  unfold deliverUnsol
  split
  · simp only [receiveNitz]
    split <;> exact ⟨rfl,rfl,rfl,rfl⟩
  · exact ⟨rfl,rfl,rfl,rfl⟩

theorem sameWake_admitsCalls : AdmitsCalls SameWake where
  refl := sameWake_refl
  trans := SameWake.trans
  noted := fun _ _ _ => ⟨rfl,rfl,rfl,rfl⟩
  cached := fun _ _ _ => ⟨rfl,rfl,rfl,rfl⟩
  taken := fun _ _ _ => ⟨rfl,rfl,rfl,rfl⟩
  replied := fun _ _ _ _ _ => ⟨rfl,rfl,rfl,rfl⟩

theorem complete_same (addr : Nat) (e : Int) (response : Response) :
    SameWake s (RIL_onRequestComplete b writes s addr e response) :=
  complete_admitted sameWake_admitsCalls s addr e response

theorem command_same {state : RadioState} {buffer : List UInt8} {socket_id : SocketId}
    (ran : processCommandBuffer b writes state s buffer socket_id = some after) :
    SameWake s after := by
  rcases command_cases ran with rfl | ⟨token,rfl⟩ | ⟨token,pCI,calls,called⟩
  · exact sameWake_refl after
  · exact ⟨rfl,rfl,rfl,rfl⟩
  · have queued : SameWake s (enqueue s (socketHook b.simCount socket_id)
        (newRequest s token pCI socket_id)) := ⟨rfl,rfl,rfl,rfl⟩
    exact queued.trans (calls_admitted sameWake_admitsCalls called)

theorem issueLocal_same {request : Nat} {data : VendorData} {socket_id : SocketId}
    (ran : issueLocalRequest b s request data socket_id = some after) : SameWake s after := by
  unfold issueLocalRequest at ran
  split at ran
  · cases ran
  · cases ran
    exact ⟨rfl,rfl,rfl,rfl⟩

end Frame

section Unsolicited
variable {b : Build} {writes : Writes} {now : Int} {state : RadioState} {socket_id : SocketId} {s : Ril}

theorem grab_armed (info : UnsolResponseInfo) (armed : Armed s) : Armed (grabFor info s) := by
  unfold grabFor
  split <;> exact ⟨armed.fresh,armed.distinct,armed.live,armed.last⟩

theorem release_armed (info : UnsolResponseInfo) (armed : Armed s) : Armed (releaseFor info s) := by
  unfold releaseFor
  split <;> exact ⟨armed.fresh,armed.distinct,armed.live,armed.last⟩

theorem scheduleWakeTimeout_armed (armed : Armed s) : Armed (scheduleWakeTimeout s) := by
  have infos : ∀ timers : List WakeTimer, (timers.map fun t =>
      if some t.info = s.lastWakeTimeoutInfo then {t with cancelled := true} else t).map (·.info) =
        timers.map (·.info) := by
    intro timers
    rw [List.map_map]
    apply List.map_congr_left
    intro t _
    simp only [Function.comp_apply]
    split <;> rfl
  have old : ∀ t ∈ s.wakeTimers.map (fun t =>
      if some t.info = s.lastWakeTimeoutInfo then {t with cancelled := true} else t),
      t.info < s.nextTimer ∧ t.cancelled = true := by
    intro t present
    obtain ⟨before,held,rfl⟩ := List.mem_map.mp present
    have small := armed.fresh before held
    split
    · exact ⟨small,rfl⟩
    · rename_i other
      refine ⟨small,?_⟩
      by_contra alive
      exact other (armed.live before held (by simpa using alive)).symm
  refine ⟨?_,?_,?_,?_⟩
  · intro t present
    rcases List.mem_append.mp present with before | new
    · exact Nat.lt_succ_of_lt (old t before).1
    · cases List.mem_singleton.mp new
      exact Nat.lt_succ_self _
  · simp only [scheduleWakeTimeout,List.map_append,infos]
    refine List.nodup_append.mpr ⟨armed.distinct,List.nodup_singleton _,?_⟩
    intro info before other new
    obtain ⟨t,held,rfl⟩ := List.mem_map.mp before
    have same : other = s.nextTimer := by simpa using new
    have small := armed.fresh t held
    omega
  · intro t present alive
    rcases List.mem_append.mp present with before | new
    · rw [(old t before).2] at alive
      cases alive
    · cases List.mem_singleton.mp new
      rfl
  · intro info points
    cases points
    exact List.mem_append_right _ (List.mem_singleton_self _)

theorem schedule_armed (info : UnsolResponseInfo) (armed : Armed s) : Armed (scheduleFor info s) := by
  unfold scheduleFor
  split
  · exact scheduleWakeTimeout_armed armed
  · exact armed

theorem unsolicited_armed {radio : Ril → Ril × List UInt8}
    (inner : ∀ s, Armed s → Armed (radio s).1) (code : Int) (data : UnsolData) (armed : Armed s) :
    Armed (unsolicitedWith b radio writes now s code data socket_id) := by
  unfold unsolicitedWith
  split
  · exact armed
  · rename_i code' info entry
    simp only
    split
    · exact release_armed info (grab_armed info armed)
    · apply schedule_armed
      apply (deliver_same _ _ _).armed
      exact more_kept inner code' (grab_armed info armed)

-- A call that takes the lock ends by giving it back or by setting a timer,
-- whatever the nested calls did to it.
theorem unsolicited_timed {radio : Ril → Ril × List UInt8}
    (inner : ∀ s, Timed s → Timed (radio s).1) (code : Int) (data : UnsolData) (timed : Timed s) :
    Timed (unsolicitedWith b radio writes now s code data socket_id) := by
  unfold unsolicitedWith
  split
  · exact timed
  · rename_i code' info entry
    simp only
    by_cases wakes : info.wakeType = .WAKE_PARTIAL
    · split
      · simp [Timed,releaseFor,wakes]
      · simp [Timed,scheduleFor,wakes,scheduleWakeTimeout]
    · split
      · simpa only [releaseFor,grabFor,if_neg wakes] using timed
      · simp only [scheduleFor,grabFor,if_neg wakes]
        apply (deliver_same _ _ _).timed
        exact more_kept inner code' timed

theorem onUnsolicited_armed (code : Int) (data : UnsolData) (armed : Armed s) :
    Armed (RIL_onUnsolicitedResponse b writes now state s code data socket_id) := by
  apply unsolicited_armed _ code data armed
  apply radio_kept
  · intro s _ _ _ armed
    exact ⟨armed.fresh,armed.distinct,armed.live,armed.last⟩
  · exact fun s code data _ _ => unsolicited_armed (fun _ armed => armed) code data

theorem onUnsolicited_timed (code : Int) (data : UnsolData) (timed : Timed s) :
    Timed (RIL_onUnsolicitedResponse b writes now state s code data socket_id) := by
  apply unsolicited_timed _ code data timed
  apply radio_kept
  · exact fun s _ _ _ timed => timed
  · exact fun s code data _ _ => unsolicited_timed (fun _ timed => timed) code data

end Unsolicited

structure Safe (s : Ril) : Prop where
  armed : Armed s
  timed : Timed s

section Steps
variable {b : Build} {s after : Ril}

theorem SameWake.safe (same : SameWake s after) (safe : Safe s) : Safe after :=
  ⟨same.armed safe.armed,same.timed safe.timed⟩

theorem onUnsolicited_safe {writes : Writes} {now : Int} {state : RadioState} {socket_id : SocketId}
    (code : Int) (data : UnsolData) (safe : Safe s) :
    Safe (RIL_onUnsolicitedResponse b writes now state s code data socket_id) :=
  ⟨onUnsolicited_armed code data safe.armed,onUnsolicited_timed code data safe.timed⟩

theorem flush_same {writes : Writes} {socket_id : SocketId} :
    SameWake s (flushNitz b writes s socket_id) := by
  unfold flushNitz
  split
  · exact sameWake_refl s
  · exact ⟨rfl,rfl,rfl,rfl⟩

theorem ril_safe {action : Action} (safe : Safe s) (moved : step b s action = some after) :
    Safe after := by
  cases action with
  | command socket_id buffer state writes => exact (command_same moved).safe safe
  | issueLocal socket_id request data => exact (issueLocal_same moved).safe safe
  | complete addr e response writes =>
    cases moved
    exact (complete_same addr e response).safe safe
  | disconnect socket_id =>
    cases moved
    have same : SameWake s (onCommandsSocketClosed b (setConnected b s socket_id false) socket_id) :=
      ⟨rfl,rfl,rfl,rfl⟩
    exact same.safe safe
  | unsolicited socket_id code data state now writes =>
    cases moved
    exact onUnsolicited_safe code data safe
  | connect socket_id state now writes =>
    cases moved
    have same : SameWake s (setConnected b s socket_id true) := ⟨rfl,rfl,rfl,rfl⟩
    unfold onNewCommandConnect
    apply flush_same.safe
    exact onUnsolicited_safe _ _ (onUnsolicited_safe _ _ (same.safe safe))

theorem erase_other {timers : List WakeTimer} {timer t : WakeTimer}
    (distinct : (timers.map (·.info)).Nodup) (held : timer ∈ timers) (left : t ∈ timers.erase timer) :
    t.info ≠ timer.info := by
  obtain ⟨differs,present⟩ := (List.Nodup.mem_erase_iff (distinct.of_map _)).mp left
  intro same
  exact differs (List.inj_on_of_nodup_map distinct present held same)

theorem fire_armed {timer : WakeTimer} (armed : Armed s) (held : timer ∈ s.wakeTimers) :
    Armed (userTimerCallback s timer) := by
  have other : ∀ t ∈ s.wakeTimers.erase timer, t.info ≠ timer.info :=
    fun t => erase_other armed.distinct held
  have wake : SameWake {s with wakeLockHeld := (wakeTimeoutCallback s timer.cancelled).wakeLockHeld}
      (wakeTimeoutCallback s timer.cancelled) := by
    unfold wakeTimeoutCallback
    split <;> exact ⟨rfl,rfl,rfl,rfl⟩
  have timers : (userTimerCallback s timer).wakeTimers = s.wakeTimers.erase timer := by
    simp only [userTimerCallback]
    split <;> rw [wake.timers]
  have numbers : (userTimerCallback s timer).nextTimer = s.nextTimer := by
    simp only [userTimerCallback]
    split <;> exact wake.nextTimer
  have last : (userTimerCallback s timer).lastWakeTimeoutInfo =
      if s.lastWakeTimeoutInfo = some timer.info then none else s.lastWakeTimeoutInfo := by
    simp only [userTimerCallback,wake.last]
    split
    · rfl
    · exact wake.last
  refine ⟨?_,?_,?_,?_⟩
  · intro t present
    rw [timers] at present
    rw [numbers]
    exact armed.fresh t (List.mem_of_mem_erase present)
  · rw [timers]
    exact armed.distinct.sublist (List.Sublist.map _ List.erase_sublist)
  · intro t present alive
    rw [timers] at present
    rw [last,armed.live t (List.mem_of_mem_erase present) alive,if_neg]
    exact fun same => other t present (Option.some.inj same)
  · intro info points
    rw [last] at points
    split at points
    · cases points
    · rename_i differs
      rw [timers]
      refine (List.mem_erase_of_ne ?_).mpr (armed.last info points)
      intro same
      exact differs (by rw [points,← same])

theorem fire_released {timer : WakeTimer} (alive : timer.cancelled = false) :
    (userTimerCallback s timer).wakeLockHeld = false := by
  simp only [userTimerCallback,wakeTimeoutCallback,alive,Bool.false_eq_true,if_false]
  split <;> rfl

theorem fire_timed {timer : WakeTimer} (safe : Safe s) (held : timer ∈ s.wakeTimers) :
    Timed (userTimerCallback s timer) := by
  cases cancelled : timer.cancelled with
  | false =>
    intro lock
    rw [fire_released cancelled] at lock
    cases lock
  | true =>
    have unpointed : s.lastWakeTimeoutInfo ≠ some timer.info := by
      intro points
      have live := safe.armed.last timer.info points
      have same := List.inj_on_of_nodup_map safe.armed.distinct live held rfl
      rw [← same] at cancelled
      cases cancelled
    simp only [Timed,userTimerCallback,wakeTimeoutCallback,cancelled,if_true,if_neg unpointed]
    exact safe.timed

theorem step_safe (s : Ril) (action : Step) (after : Ril) (safe : Safe s)
    (moved : next b s action = some after) : Safe after := by
  cases action with
  | ril action => exact ril_safe safe moved
  | timer info =>
    obtain ⟨timer,found,rfl⟩ := Option.map_eq_some_iff.mp moved
    have held := List.mem_of_find?_eq_some found
    exact ⟨fire_armed safe.armed held,fire_timed safe held⟩

end Steps

theorem initial_safe : Safe .initial := by
  refine ⟨⟨?_,List.nodup_nil,?_,?_⟩,?_⟩
  · intro t present
    cases present
  · intro t present
    cases present
  · intro info points
    cases points
  · intro held
    cases held

theorem live_singleton {s : Ril} {info : Nat} (armed : Armed s)
    (points : s.lastWakeTimeoutInfo = some info) :
    s.wakeTimers.filter (·.cancelled = false) = [⟨info,false⟩] := by
  have present : (⟨info,false⟩ : WakeTimer) ∈ s.wakeTimers.filter (·.cancelled = false) :=
    List.mem_filter.mpr ⟨armed.last info points,rfl⟩
  have only : ∀ t ∈ s.wakeTimers.filter (·.cancelled = false), t = ⟨info,false⟩ := by
    intro t live
    obtain ⟨held,alive⟩ := List.mem_filter.mp live
    have alive : t.cancelled = false := by simpa using alive
    have same := (armed.live t held alive).symm.trans points
    cases t
    cases alive
    cases same
    rfl
  have distinct : (s.wakeTimers.filter (·.cancelled = false)).Nodup :=
    (armed.distinct.of_map _).filter _
  cases found : s.wakeTimers.filter (·.cancelled = false) with
  | nil =>
    rw [found] at present
    cases present
  | cons first rest =>
    rw [found] at only distinct
    have head := only first List.mem_cons_self
    cases rest with
    | nil => rw [head]
    | cons second others =>
      have again := only second (List.mem_cons_of_mem _ List.mem_cons_self)
      exact absurd (head.trans again.symm)
        (fun same => (List.nodup_cons.mp distinct).1 (same ▸ List.mem_cons_self))

theorem held_lock_has_timer {b : Build} {steps : List Step} {s : Ril}
    (ran : run (next b) .initial steps = some s) (held : s.wakeLockHeld = true) :
    ∃ timer, s.wakeTimers.filter (·.cancelled = false) = [timer] ∧
      s.lastWakeTimeoutInfo = some timer.info ∧
      ∃ after, next b s (.timer timer.info) = some after ∧ after.wakeLockHeld = false := by
  have safe := run_invariant Safe step_safe initial_safe ran
  obtain ⟨info,points⟩ := Option.ne_none_iff_exists'.mp (safe.timed held)
  refine ⟨⟨info,false⟩,live_singleton safe.armed points,points,?_⟩
  cases found : s.wakeTimers.find? (·.info = info) with
  | none =>
    have absent := List.find?_eq_none.mp found _ (safe.armed.last info points)
    exact absurd absent (by simp)
  | some timer =>
    have same := List.inj_on_of_nodup_map safe.armed.distinct (List.mem_of_find?_eq_some found)
      (safe.armed.last info points) (by simpa using List.find?_some found)
    subst same
    exact ⟨userTimerCallback s ⟨info,false⟩,by simp only [next,found,Option.map_some],
      fire_released rfl⟩

def ringing : List Step :=
  [.ril (.unsolicited .socket1 1000 .null .simReady 0 fun _ => true),
    .ril (.unsolicited .socket1 1000 .null .simReady 0 fun _ => true),.timer 0,.timer 1]

theorem held_lock_has_timer_ringing :
    ∃ s, run (next (asciiBuild 1)) .initial ringing = some s ∧ s.wakeLockHeld = true ∧
      ∃ timer, s.wakeTimers.filter (·.cancelled = false) = [timer] ∧
        s.lastWakeTimeoutInfo = some timer.info ∧
        ∃ after, next (asciiBuild 1) s (.timer timer.info) = some after ∧
          after.wakeLockHeld = false := by
  have total : (run (next (asciiBuild 1)) .initial ringing).any (·.wakeLockHeld) = true := by
    decide +kernel
  obtain ⟨s,ran,held⟩ := (Option.any_eq_true ..).mp total
  exact ⟨s,ran,held,held_lock_has_timer ran held⟩

end SemcMsm7x30.WakeLock

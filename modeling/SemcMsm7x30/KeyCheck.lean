import SemcMsm7x30.PartialMachine

namespace SemcMsm7x30.KeyCheck
open PartialMachine

def POLLIN : UInt16 := 0x0001
def IN_CREATE : UInt32 := 0x0100
def KEY_VOLUMEDOWN : UInt16 := 114
def KEY_VOLUMEUP : UInt16 := 115
def device_path : String := "/dev/input"

structure pollfd where
  fd : Int
  events : UInt16
  revents : UInt16
  deriving DecidableEq, Repr

def pollfd.readable (entry : pollfd) : Bool := entry.revents &&& POLLIN != 0

-- `name` is nothing where the event has no name (`len` is 0).
structure inotify_event where
  mask : UInt32
  name : Option String
  deriving DecidableEq, Repr

-- Where main stands: before and in scan_dir, before poll, before the read of the
-- notifications, in the loop over them, in the loop over the descriptors.
inductive Phase where
  | watching
  | scanning
  | polling
  | notified
  | batch (pending : List inotify_event)
  | reading (i : Nat)
  | exited (code : Int)
  | crashed
  deriving DecidableEq, Repr

structure Read where
  fd : Int
  reported : List Int
  deriving DecidableEq, Repr

-- `nfds` is the length of both arrays. A name is missing where strdup failed, and
-- at 0, which is never written. `open_fds` is the kernel's; `reported` is a
-- history, the descriptors the last poll returned POLLIN for, and so is `reads`.
structure State where
  ufds : List pollfd
  device_names : List (Option String)
  event_count : Int
  phase : Phase
  open_fds : List Int
  reported : List Int
  reads : List Read
  deriving DecidableEq, Repr

def start (nfd : Int) : State := ⟨[⟨nfd,POLLIN,0⟩],[none],0,.watching,[nfd],[],[]⟩

-- How open_device goes; the revents are what realloc's memory holds at the slot.
inductive Opening where
  | openFails
  | ioctlFails (fd : Int)
  | reallocFails (fd : Int)
  | opens (fd : Int) (revents : UInt16) (strdup : Bool)
  deriving DecidableEq, Repr

-- open returns a descriptor that is not in use; the failing paths keep it open.
def open_device (s : State) (device : String) : Opening → Option State
  | .openFails => some s
  | .ioctlFails fd | .reallocFails fd =>
    if fd ∈ s.open_fds then none else some {s with open_fds := fd::s.open_fds}
  | .opens fd revents strdup =>
    if fd ∈ s.open_fds then none
    else
      some {s with
        ufds := s.ufds ++ [⟨fd,POLLIN,revents⟩]
        device_names := s.device_names ++ [if strdup then some device else none]
        open_fds := fd::s.open_fds}

-- The loop of close_device: the index of the device, nfds where there is none,
-- and nothing where strcmp gets a name that is missing.
def indexOf (device : String) : Nat → List (Option String) → Option Nat
  | i,[] => some i
  | _,none::_ => none
  | i,some name::rest => if name = device then some i else indexOf device (i+1) rest

def close_device (s : State) (device : String) : State :=
  match indexOf device 1 (s.device_names.drop 1) with
  | none => {s with phase := .crashed}
  | some i => {s with
      ufds := s.ufds.eraseIdx i
      device_names := s.device_names.eraseIdx i}

inductive Action where
  | inotify_add_watch (succeeds : Bool)
  | opendirFails
  | readdir (d_name : String) (opening : Opening)
  | closedir
  | poll (revents : List UInt16)
  | pollFails
  | read_notify (batch : List inotify_event)
  | event (opening : Opening)
  | read (complete : Bool) (code : UInt16)
  | continue
  deriving DecidableEq, Repr

def setRevents (entry : pollfd) (revents : UInt16) : pollfd := {entry with revents := revents}

-- A poll that fails leaves the array as it was. Its result is not looked at.
def afterPoll (s : State) : State :=
  match s.ufds with
  | [] => {s with phase := .crashed}
  | inotify::_ => {s with phase := if inotify.readable then .notified else .reading 1}

def afterRead (s : State) (i : Nat) (complete : Bool) (code : UInt16) : State :=
  if !complete then {s with phase := .exited 1}
  else if code = KEY_VOLUMEDOWN ∨ code = KEY_VOLUMEUP then {s with phase := .exited 42}
  else if s.event_count = 0 then {s with phase := .reading (i+1)}
  else
    {s with
      event_count := s.event_count-1
      phase := if s.event_count-1 = 0 then .exited 0 else .reading (i+1)}

def step (s : State) : Action → Option State
  | .inotify_add_watch succeeds =>
    if s.phase = .watching then
      some {s with phase := if succeeds then .scanning else .exited 1}
    else none
  | .opendirFails => if s.phase = .scanning then some {s with phase := .exited 1} else none
  | .readdir d_name opening =>
    if s.phase = .scanning then
      if d_name = "." ∨ d_name = ".." then some s
      else open_device s (device_path ++ "/" ++ d_name) opening
    else none
  | .closedir => if s.phase = .scanning then some {s with phase := .polling} else none
  | .poll revents =>
    if s.phase = .polling ∧ revents.length = s.ufds.length then
      let ufds := List.zipWith setRevents s.ufds revents
      some (afterPoll {s with
        ufds := ufds
        reported := (ufds.filter (·.readable)).map (·.fd)})
    else none
  | .pollFails =>
    if s.phase = .polling then some (afterPoll {s with reported := []}) else none
  | .read_notify batch => if s.phase = .notified then some {s with phase := .batch batch} else none
  | .event opening =>
    match s.phase with
    | .batch (event::pending) =>
      match event.name with
      | none => some {s with phase := .batch pending}
      | some name =>
        let devname := device_path ++ "/" ++ name
        if event.mask &&& IN_CREATE != 0 then
          open_device {s with phase := .batch pending} devname opening
        else some (close_device {s with phase := .batch pending} devname)
    | _ => none
  | .read complete code =>
    match s.phase with
    | .reading i =>
      match s.ufds[i]? with
      | none => none
      | some entry =>
        if entry.readable then
          some (afterRead {s with reads := s.reads ++ [⟨entry.fd,s.reported⟩]} i complete code)
        else none
    | _ => none
  | .continue =>
    match s.phase with
    | .batch [] => some {s with phase := .reading 1}
    | .reading i =>
      match s.ufds[i]? with
      | none => some {s with phase := .polling}
      | some entry => if entry.readable then none else some {s with phase := .reading (i+1)}
    | _ => none

-- The condition, on the state before a step: where the poll fails no device has a
-- POLLIN left over, and what is opened in a batch does not get one from realloc.
def Condition (s : State) : Action → Prop
  | .pollFails => ∀ entry ∈ s.ufds.drop 1,¬entry.readable
  | .event (.opens _ revents _) => revents &&& POLLIN = 0
  | _ => True

def EachReadReported (s : State) : Prop := ∀ r ∈ s.reads,r.fd ∈ r.reported

def looking : Phase → Prop
  | .notified | .batch _ | .reading _ => True
  | _ => False

def pastInotify : Phase → Prop
  | .reading i => 0 < i
  | _ => True

-- Between a poll and the end of the scan a device with POLLIN is one that poll
-- returned it for.
structure Reported (s : State) : Prop where
  reads : EachReadReported s
  entries : looking s.phase → ∀ entry ∈ s.ufds.drop 1,entry.readable → entry.fd ∈ s.reported
  position : pastInotify s.phase

theorem Reported.elsewhere {s next : State} (kept : Reported s) (reads : next.reads = s.reads)
    (away : ¬looking next.phase) : Reported next := by
  refine ⟨by rw [EachReadReported,reads]; exact kept.reads,fun here => absurd here away,?_⟩
  cases phase : next.phase with
  | reading i =>
    rw [phase] at away
    exact absurd trivial away
  | _ => trivial

theorem Reported.moved {s next : State} (kept : Reported s) (reads : next.reads = s.reads)
    (reported : next.reported = s.reported)
    (before : looking s.phase) (position : pastInotify next.phase)
    (devices : ∀ entry ∈ next.ufds.drop 1,entry.readable → entry ∈ s.ufds.drop 1) :
    Reported next := by
  refine ⟨by rw [EachReadReported,reads]; exact kept.reads,?_,position⟩
  intro _ entry member readable
  rw [reported]
  exact kept.entries before entry (devices entry member readable) readable

theorem opened_device {s next : State} {device : String} {opening : Opening}
    (opened : open_device s device opening = some next) :
    next.reads = s.reads ∧ next.reported = s.reported ∧ next.phase = s.phase ∧
      ∀ entry ∈ next.ufds.drop 1,entry ∈ s.ufds.drop 1 ∨
        ∃ fd revents strdup,opening = .opens fd revents strdup ∧ entry = ⟨fd,POLLIN,revents⟩ := by
  cases opening with
  | openFails =>
    cases Option.some.inj opened
    exact ⟨rfl,rfl,rfl,fun _ member => .inl member⟩
  | ioctlFails fd | reallocFails fd =>
    rw [open_device] at opened
    split at opened
    · cases opened
    · cases Option.some.inj opened
      exact ⟨rfl,rfl,rfl,fun _ member => .inl member⟩
  | opens fd revents strdup =>
    rw [open_device] at opened
    split at opened
    · cases opened
    · cases Option.some.inj opened
      refine ⟨rfl,rfl,rfl,?_⟩
      intro entry member
      rw [List.drop_append] at member
      rcases List.mem_append.mp member with old | new
      · exact .inl old
      · have only := List.mem_singleton.mp (List.mem_of_mem_drop new)
        exact .inr ⟨fd,revents,strdup,rfl,only⟩

theorem index_past (device : String) (i : Nat) (names : List (Option String)) {k : Nat}
    (found : indexOf device i names = some k) : i ≤ k := by
  induction names generalizing i with
  | nil =>
    cases Option.some.inj found
    exact le_refl _
  | cons name rest ih =>
    cases name with
    | none => cases found
    | some name =>
      rw [indexOf] at found
      split at found
      · cases Option.some.inj found
        exact le_refl _
      · exact Nat.le_of_succ_le (ih (i+1) found)

theorem closed_device (s : State) (device : String) (position : pastInotify s.phase) :
    (close_device s device).reads = s.reads ∧ (close_device s device).reported = s.reported ∧
      pastInotify (close_device s device).phase ∧
      ∀ entry ∈ (close_device s device).ufds.drop 1,entry ∈ s.ufds.drop 1 := by
  rw [close_device]
  cases found : indexOf device 1 (s.device_names.drop 1) with
  | none => exact ⟨rfl,rfl,trivial,fun _ member => member⟩
  | some i =>
    have past := index_past device 1 _ found
    refine ⟨rfl,rfl,position,?_⟩
    intro entry member
    cases ufds : s.ufds with
    | nil => simp [ufds] at member
    | cons inotify devices =>
      obtain ⟨i,rfl⟩ := Nat.exists_eq_add_one.mpr past
      simp only [ufds,List.eraseIdx_cons_succ,List.drop_succ_cons,List.drop_zero] at member ⊢
      exact List.mem_of_mem_eraseIdx member

theorem start_reported (nfd : Int) : Reported (start nfd) := by
  refine ⟨?_,?_,trivial⟩
  · intro r member
    cases member
  · intro here
    cases here

theorem after_poll_reported {s : State} (reads : EachReadReported s)
    (entries : ∀ entry ∈ s.ufds.drop 1,entry.readable → entry.fd ∈ s.reported) :
    Reported (afterPoll s) := by
  unfold afterPoll
  split
  · exact ⟨reads,fun here => absurd here id,trivial⟩
  · refine ⟨reads,fun _ => entries,?_⟩
    dsimp only
    split
    · trivial
    · exact Nat.one_pos

theorem after_read_reported {s : State} (kept : Reported s) (i : Nat) (complete : Bool)
    (code : UInt16) (before : looking s.phase) : Reported (afterRead s i complete code) := by
  have same : (afterRead s i complete code).ufds = s.ufds ∧
      (afterRead s i complete code).reads = s.reads ∧
      (afterRead s i complete code).reported = s.reported ∧
      pastInotify (afterRead s i complete code).phase := by
    unfold afterRead
    split
    · exact ⟨rfl,rfl,rfl,trivial⟩
    · split
      · exact ⟨rfl,rfl,rfl,trivial⟩
      · split
        · exact ⟨rfl,rfl,rfl,Nat.succ_pos i⟩
        · refine ⟨rfl,rfl,rfl,?_⟩
          dsimp only
          split
          · trivial
          · exact Nat.succ_pos i
  obtain ⟨ufds,reads,reported,position⟩ := same
  refine kept.moved reads reported before position ?_
  intro entry member _
  rw [←ufds]
  exact member

theorem step_reported {s next : State} {action : Action} (kept : Reported s)
    (condition : Condition s action) (moved : step s action = some next) : Reported next := by
  cases action with
  | inotify_add_watch succeeds =>
    simp only [step] at moved
    split at moved
    · cases Option.some.inj moved
      cases succeeds <;> exact kept.elsewhere rfl id
    · cases moved
  | opendirFails | closedir =>
    simp only [step] at moved
    split at moved
    · cases Option.some.inj moved
      exact kept.elsewhere rfl id
    · cases moved
  | readdir d_name opening =>
    simp only [step] at moved
    split at moved
    · rename_i scanning
      split at moved
      · cases Option.some.inj moved
        exact kept
      · obtain ⟨reads,-,phase,-⟩ := opened_device moved
        exact kept.elsewhere reads (by rw [phase,scanning]; exact id)
    · cases moved
  | poll revents =>
    simp only [step] at moved
    split at moved
    · cases Option.some.inj moved
      refine after_poll_reported kept.reads ?_
      intro entry member readable
      refine List.mem_map.mpr ⟨entry,List.mem_filter.mpr ⟨?_,readable⟩,rfl⟩
      exact List.mem_of_mem_drop member
    · cases moved
  | pollFails =>
    simp only [step] at moved
    split at moved
    · cases Option.some.inj moved
      refine after_poll_reported kept.reads ?_
      intro entry member readable
      exact absurd readable (condition entry member)
    · cases moved
  | read_notify batch =>
    simp only [step] at moved
    split at moved
    · rename_i notified
      cases Option.some.inj moved
      exact kept.moved rfl rfl (by rw [notified]; trivial) trivial (fun _ member _ => member)
    · cases moved
  | event opening =>
    simp only [step] at moved
    split at moved
    · rename_i event pending phase
      have before : looking s.phase := by rw [phase]; trivial
      split at moved
      · cases Option.some.inj moved
        exact kept.moved rfl rfl before trivial (fun _ member _ => member)
      · split at moved
        · obtain ⟨reads,reported,same_phase,devices⟩ := opened_device moved
          refine kept.moved reads reported before (by rw [same_phase]; trivial) ?_
          intro entry member readable
          rcases devices entry member with old | new
          · exact old
          · obtain ⟨fd,revents,strdup,rfl,rfl⟩ := new
            have none_left : revents &&& POLLIN = 0 := condition
            simp [pollfd.readable,none_left] at readable
        · cases Option.some.inj moved
          obtain ⟨reads,reported,position,devices⟩ :=
            closed_device {s with phase := .batch pending} (device_path ++ "/" ++ _) trivial
          exact kept.moved reads reported before position (fun entry member _ => devices entry member)
    · cases moved
  | read complete code =>
    simp only [step] at moved
    split at moved
    · rename_i i phase
      have before : looking s.phase := by rw [phase]; trivial
      split at moved
      · cases moved
      · rename_i entry at_i
        split at moved
        · rename_i readable
          cases Option.some.inj moved
          have device : entry ∈ s.ufds.drop 1 := by
            have position := kept.position
            rw [phase] at position
            obtain ⟨i,rfl⟩ := Nat.exists_eq_add_one.mpr position
            refine List.mem_of_getElem? (i := i) ?_
            rw [List.getElem?_drop,Nat.add_comm]
            exact at_i
          have reads : EachReadReported
              {s with reads := s.reads ++ [⟨entry.fd,s.reported⟩]} := by
            intro r member
            rcases List.mem_append.mp member with old | new
            · exact kept.reads r old
            · rw [List.mem_singleton.mp new]
              exact kept.entries before entry device readable
          exact after_read_reported ⟨reads,kept.entries,kept.position⟩ i complete code before
        · cases moved
    · cases moved
  | «continue» =>
    simp only [step] at moved
    split at moved
    · rename_i phase
      cases Option.some.inj moved
      exact kept.moved rfl rfl (by rw [phase]; trivial) Nat.one_pos (fun _ member _ => member)
    · rename_i i phase
      have before : looking s.phase := by rw [phase]; trivial
      split at moved
      · cases Option.some.inj moved
        exact kept.elsewhere rfl id
      · split at moved
        · cases moved
        · cases Option.some.inj moved
          exact kept.moved rfl rfl before (Nat.succ_pos i) (fun _ member _ => member)
    · cases moved

theorem reads_reported {nfd : Int} {actions : List Action} {s : State}
    (obeyed : Obeys step Condition (start nfd) actions)
    (ran : run step (start nfd) actions = some s) : EachReadReported s :=
  (obeys_invariant Reported (fun _ _ _ => step_reported) (start_reported nfd) obeyed ran).reads

-- One batch takes a device out in front of a readable one and adds another, in the
-- slot of a third that was not.
def replaced : List Action :=
  [.inotify_add_watch true,.readdir "." .openFails,.readdir "event0" (.opens 4 0xffff true),
    .readdir "event1" (.opens 5 0xffff true),.readdir "event2" (.opens 6 0xffff true),.closedir,
    .poll [1,1,1,0],.read_notify [⟨0x200,some "event0"⟩,⟨IN_CREATE,some "event3"⟩],
    .event .openFails,.event (.opens 7 0 true),.continue,.read true 30]

theorem replaced_obeys : Obeys step Condition (start 3) replaced := by
  refine obeys_step rfl trivial (obeys_step rfl trivial (obeys_step rfl trivial
    (obeys_step rfl trivial (obeys_step rfl trivial (obeys_step rfl trivial
      (obeys_step rfl trivial (obeys_step rfl trivial (obeys_step rfl trivial
        (obeys_step rfl ?_ (obeys_step rfl trivial (obeys_step rfl trivial trivial)))))))))))
  exact rfl

theorem reads_reported_replaced : ∃ s, run step (start 3) replaced = some s ∧
    EachReadReported s ∧ s.reads = [⟨5,[3,4,5]⟩] := by
  have ran : (run step (start 3) replaced).map (·.reads) = some [⟨5,[3,4,5]⟩] := by
    decide +kernel
  obtain ⟨s,reached,reads⟩ := Option.map_eq_some_iff.mp ran
  exact ⟨s,reached,reads_reported replaced_obeys reached,reads⟩

-- The slot of a device that appears in a batch has a POLLIN from realloc.
def leftover : List Action :=
  [.inotify_add_watch true,.closedir,.poll [1],.read_notify [⟨IN_CREATE,some "event0"⟩],
    .event (.opens 4 1 true),.continue,.read true 30]

theorem leftover_read : ∃ s, run step (start 3) leftover = some s ∧ ¬EachReadReported s := by
  have ran : (run step (start 3) leftover).map (·.reads) = some [⟨4,[3]⟩] := by
    decide +kernel
  obtain ⟨s,reached,reads⟩ := Option.map_eq_some_iff.mp ran
  refine ⟨s,reached,?_⟩
  intro each
  have reported := each ⟨4,[3]⟩ (by rw [reads]; exact List.mem_singleton_self _)
  simp at reported

end SemcMsm7x30.KeyCheck

import SemcMsm7x30.KeyCheck

namespace SemcMsm7x30.Boot
open PartialMachine

abbrev Bytes := List UInt8

def bytes (text : String) : Bytes := text.toList.map fun c => c.toNat.toUInt8

def BOOT_TXT : String := "/boot.txt"
def EXEC_TOYBOX : String := "/sbin/toybox_init"
def SBIN_CPIO_ANDROID : String := "/sbin/ramdisk.cpio"
def SBIN_CPIO_RECOVERY : String := "/sbin/ramdisk-recovery.cpio"
def WARMBOOT_CMDLINE : String := "/cache/recovery/boot"
def WARMBOOT_RECOVERY : Bytes := bytes "recovery"
def KEYCHECK_RECOVERY_BOOT : Int := 41*256
def KEYCHECK_RECOVERY_FOTA : Int := 42*256
def KEYCHECK_TIMEOUT : Int := 3

-- The string c_str() gives to strstr ends at the first zero of the content.
def c_str (content : Bytes) : Bytes := content.takeWhile (· != 0)

def strstr (needle : Bytes) : Bytes → Bool
  | [] => needle.isPrefixOf []
  | c::rest => needle.isPrefixOf (c::rest) || strstr needle rest

def contains (content needle : Bytes) : Bool := strstr needle (c_str content)

theorem strstr_found (needle text : Bytes) : strstr needle text = true ↔ needle <:+: text := by
  induction text with
  | nil => simp [strstr]
  | cons c rest ih =>
    rw [strstr,Bool.or_eq_true,ih,List.isPrefixOf_iff_prefix,List.infix_cons_iff]

inductive Call where
  | unlink (path : String)
  | mkdir (path : String) (mode : Nat)
  | rmdir (path : String)
  | mknod (path : String) (mode major minor : Nat)
  | mount (source target filesystemtype : String)
  | umount (target : String)
  | write_string (path value : String) (append : Bool)
  | write_date (path : String) (append : Bool)
  | write_int (path : String) (value : Int)
  | msleep (millis : Nat)
  | system_exec (argv : List String)
  | dir_unlink_r (path_dir : String) (rm_top : Bool)
  | system_exec_inline (argv : List String)
  deriving DecidableEq, Repr

def led_color (r g b : UInt8) : List Call :=
  [.write_int "/sys/class/leds/red/brightness" r.toNat,
    .write_int "/sys/class/leds/green/brightness" g.toNat,
    .write_int "/sys/class/leds/blue/brightness" b.toNat]

def vibrate (strength : UInt8) : List Call :=
  [.write_int "/sys/class/timed_output/vibrator/enable" strength.toNat]

def start_init : List Call :=
  [.mkdir "/cache" 0o755,.mknod "/dev/block/mtdblock2" 0o600 31 2,
    .mount "/dev/block/mtdblock2" "/cache" "yaffs2"]

def introduce_keycheck : List Call := vibrate 30 ++ led_color 255 0 255

def introduce_android : List Call := led_color 0 255 0 ++ [.msleep 250]

def introduce_recovery : List Call :=
  .unlink WARMBOOT_CMDLINE :: vibrate 30 ++ led_color 0 0 255 ++ [.msleep 250]

def finish_init : List Call :=
  led_color 0 0 0 ++ vibrate 0 ++ [.umount "/cache",.rmdir "/cache"]

def event_nodes : List Call :=
  (List.range 13).map fun i => .mknod s!"/dev/input/event{i}" 0o600 13 (64+i)

def log_and_directories : List Call :=
  [.unlink BOOT_TXT,.write_string BOOT_TXT "SEMC INIT" false,.write_date BOOT_TXT true,
    .unlink "/init",.mkdir "/dev/block" 0o755,.mkdir "/dev/input" 0o755,.mkdir "/proc" 0o555,
    .mkdir "/sys" 0o755,.mknod "/dev/block/mmcblk0" 0o600 179 0]

def filesystems : List Call :=
  [.mknod "/dev/null" 0o666 1 3,.mount "proc" "/proc" "proc",.mount "sysfs" "/sys" "sysfs"]

def setup : List Call := log_and_directories ++ event_nodes ++ filesystems ++ start_init

def unpack (archive : String) : Call := .system_exec [EXEC_TOYBOX,"cpio","-i","-F",archive]

def introduce : Bool → List Call
  | true => .write_string BOOT_TXT "RECOVERY BOOT" true :: introduce_recovery
  | false => .write_string BOOT_TXT "ANDROID BOOT" true :: introduce_android

def archive : Bool → String
  | true => SBIN_CPIO_RECOVERY
  | false => SBIN_CPIO_ANDROID

def outputs : List Call :=
  [.write_date BOOT_TXT true,.unlink EXEC_TOYBOX,.umount "/proc",.umount "/sys"]

def launch (argc : Nat) : List Call :=
  if argc < 2 then [.dir_unlink_r "/dev" false,.system_exec_inline ["/init"]] else []

def finish (argc : Nat) : List Call := finish_init ++ outputs ++ launch argc

def boot (argc : Nat) (recoveryBoot : Bool) : List Call :=
  introduce recoveryBoot ++ unpack (archive recoveryBoot) :: finish argc

-- Where main stands once the calls of the stretch are made: before file_contains,
-- before the fork of system_exec_bg, and in system_exec_kill before the first
-- time, before waitpid, before the time in the loop and before kill.
inductive Stage where
  | detecting
  | forking
  | timing (pid : Int)
  | waiting (pid time_start : Int)
  | looping (pid time_start : Int)
  | killing (pid : Int)
  | booting (recoveryBoot : Bool)
  | returned
  | replaced
  deriving DecidableEq, Repr

structure Main where
  argc : Nat
  calls : List Call
  stage : Stage
  deriving DecidableEq, Repr

def Main.enter (argc : Nat) : Main := ⟨argc,setup,.detecting⟩

def Main.decide (m : Main) (recoveryBoot : Bool) : Main :=
  {m with calls := boot m.argc recoveryBoot, stage := .booting recoveryBoot}

def Main.detected (m : Main) (file_content : Bytes) : Main :=
  if contains file_content WARMBOOT_RECOVERY then m.decide true else {m with stage := .forking}

def Main.forked (m : Main) (pid : Int) : Main :=
  {m with calls := introduce_keycheck, stage := .timing pid}

def Main.checked (m : Main) (keycheckStatus : Int) : Main :=
  m.decide (keycheckStatus == KEYCHECK_RECOVERY_BOOT || keycheckStatus == KEYCHECK_RECOVERY_FOTA)

def Main.waited (m : Main) (pid time_start : Int) (_pid status : Int) : Main :=
  if _pid > 0 then m.checked status
  else if _pid = -1 then m.checked (-1)
  else {m with stage := .looping pid time_start}

def Main.timed (m : Main) (pid time_start time_cur : Int) : Main :=
  {m with
    stage := if time_cur - time_start < KEYCHECK_TIMEOUT then .waiting pid time_start else .killing pid}

-- An execv that succeeds does not return.
def Main.called (m : Main) (call : Call) (rest : List Call) (succeeds : Bool) : Main :=
  match call with
  | .system_exec_inline _ =>
    if succeeds then {m with calls := [], stage := .replaced} else {m with calls := rest}
  | _ => {m with calls := rest}

-- The mounts, the warmboot file on the cache's partition and whether an unlink has
-- failed to delete it, the attributes under /sys and the commands that system_exec
-- has run.
structure Board where
  mounted : List String
  warmboot : Option Bytes
  undeleted : Bool
  attributes : String → Int
  ran : List (List String)

def Board.perform (board : Board) (succeeds : Bool) : Call → Board
  | .mount _ target _ => if succeeds then {board with mounted := target::board.mounted} else board
  | .umount target => if succeeds then {board with mounted := board.mounted.erase target} else board
  | .unlink path =>
    if path = WARMBOOT_CMDLINE ∧ "/cache" ∈ board.mounted then
      if succeeds then {board with warmboot := none}
      else {board with undeleted := board.undeleted || board.warmboot.isSome}
    else board
  | .write_int path value =>
    if "/sys" ∈ board.mounted then
      {board with attributes := Function.update board.attributes path value}
    else board
  | .system_exec argv => if succeeds then {board with ran := board.ran ++ [argv]} else board
  | _ => board

-- The content stays empty where the file does not open.
def Board.file_content (board : Board) : Bytes :=
  if "/cache" ∈ board.mounted then board.warmboot.getD [] else []

-- The child of system_exec_bg: before its execv, the keycheck, main once more
-- where execv has failed, and a status that nobody has waited for.
inductive Child where
  | absent
  | forked
  | keycheck (s : KeyCheck.State)
  | main (m : Main)
  | zombie (status : Int)
  deriving DecidableEq, Repr

-- `codes` and `killed` are histories: of the events the keycheck has read in full,
-- and of what kill was given.
structure State where
  init : Main
  child : Child
  child_pid : Int
  terminating : Bool
  board : Board
  codes : List UInt16
  killed : List Int

def start (argc : Nat) (warmboot : Option Bytes) : State :=
  ⟨Main.enter argc,.absent,0,false,⟨[],warmboot,false,fun _ => 0,[]⟩,[],[]⟩

inductive Reply where
  | done (succeeds : Bool)
  | time (t : Int)
  | fork (pid : Option Int)
  deriving DecidableEq, Repr

inductive Action where
  | init (reply : Reply)
  | execv (nfd : Option Int)
  | keycheck (action : KeyCheck.Action)
  | child (reply : Reply)
  | exit
  | terminate
  deriving DecidableEq, Repr

def Main.alone (m : Main) (board : Board) (reply : Reply) : Option (Main × Board) :=
  match m.calls,reply with
  | call::rest,.done succeeds => some (m.called call rest succeeds,board.perform succeeds call)
  | [],reply =>
    match m.stage,reply with
    | .detecting,.done _ => some (m.detected board.file_content,board)
    | .timing pid,.time time_start => some ({m with stage := .waiting pid time_start},board)
    | .looping pid time_start,.time time_cur => some (m.timed pid time_start time_cur,board)
    | .booting _,.done _ => some ({m with stage := .returned},board)
    | _,_ => none
  | _,_ => none

def waitpid (s : State) (pid time_start : Int) : State :=
  match s.child with
  | .absent => {s with init := s.init.waited pid time_start (-1) (-1)}
  | .zombie status =>
    {s with init := s.init.waited pid time_start s.child_pid status, child := .absent}
  | _ => {s with init := s.init.waited pid time_start 0 (-1)}

def kill (s : State) (pid : Int) : State := {s with killed := s.killed ++ [pid], terminating := true}

def initStep (s : State) (reply : Reply) : Option State :=
  match s.init.calls,s.init.stage,reply with
  | [],.forking,.fork none => some {s with init := s.init.forked (-1)}
  | [],.forking,.fork (some pid) =>
    if 0 < pid then
      some {s with init := s.init.forked pid, child := .forked, child_pid := pid}
    else none
  | [],.waiting pid time_start,.done _ => some (waitpid s pid time_start)
  | [],.killing pid,.done _ => some ({kill s pid with init := s.init.checked 0})
  | _,_,reply =>
    (s.init.alone s.board reply).map fun (m,board) => {s with init := m, board := board}

-- The child has no child of its own, and fork gave it 0.
def childStep (s : State) (m : Main) (reply : Reply) : Option State :=
  match m.calls,m.stage,reply with
  | [],.waiting pid time_start,.done _ =>
    some {s with child := .main (m.waited pid time_start (-1) (-1))}
  | [],.killing pid,.done _ => some {kill s pid with child := .main (m.checked 0)}
  | _,_,reply =>
    (m.alone s.board reply).map fun (m,board) => {s with child := .main m, board := board}

def exited (code : Int) : Int := code % 256 * 256
def SIGSEGV : Int := 11
def SIGTERM : Int := 15

def codes (s : State) : KeyCheck.Action → List UInt16
  | .read true code => s.codes ++ [code]
  | _ => s.codes

def step (s : State) : Action → Option State
  | .init reply => initStep s reply
  | .execv (some nfd) =>
    if s.child = .forked then some {s with child := .keycheck (KeyCheck.start nfd)} else none
  | .execv none =>
    if s.child = .forked then some {s with child := .main (s.init.forked 0)} else none
  | .keycheck action =>
    match s.child with
    | .keycheck check => (KeyCheck.step check action).map fun next =>
      {s with child := .keycheck next, codes := codes s action}
    | _ => none
  | .child reply =>
    match s.child with
    | .main m => childStep s m reply
    | _ => none
  | .exit =>
    match s.child with
    | .keycheck check =>
      match check.phase with
      | .exited code => some {s with child := .zombie (exited code)}
      | .crashed => some {s with child := .zombie SIGSEGV}
      | _ => none
    | .main ⟨_,_,.returned⟩ => some {s with child := .zombie 0}
    | _ => none
  | .terminate =>
    if s.terminating then
      match s.child with
      | .absent | .zombie _ => none
      | _ => some {s with child := .zombie SIGTERM}
    else none


inductive Alone (m : Main) (board : Board) (reply : Reply) : Main → Board → Prop where
  | call {call : Call} {rest : List Call} (calls : m.calls = call::rest) (succeeds : Bool)
      (answer : reply = .done succeeds) :
      Alone m board reply (m.called call rest succeeds) (board.perform succeeds call)
  | detected (calls : m.calls = []) (stage : m.stage = .detecting) :
      Alone m board reply (m.detected board.file_content) board
  | started {pid : Int} (calls : m.calls = []) (stage : m.stage = .timing pid) (time_start : Int) :
      Alone m board reply {m with stage := .waiting pid time_start} board
  | timed {pid time_start : Int} (calls : m.calls = []) (stage : m.stage = .looping pid time_start)
      (time_cur : Int) : Alone m board reply (m.timed pid time_start time_cur) board
  | returned {recoveryBoot : Bool} (calls : m.calls = []) (stage : m.stage = .booting recoveryBoot) :
      Alone m board reply {m with stage := .returned} board

theorem alone_cases {m next : Main} {board after : Board} {reply : Reply}
    (moved : m.alone board reply = some (next,after)) : Alone m board reply next after := by
  unfold Main.alone at moved
  split at moved
  · rename_i calls
    cases Option.some.inj moved
    exact .call calls _ rfl
  · rename_i calls
    split at moved
    · rename_i stage
      cases Option.some.inj moved
      exact .detected calls stage
    · rename_i stage
      cases Option.some.inj moved
      exact .started calls stage _
    · rename_i stage
      cases Option.some.inj moved
      exact .timed calls stage _
    · rename_i stage
      cases Option.some.inj moved
      exact .returned calls stage
    · cases moved
  · cases moved

inductive InitStep (s : State) (reply : Reply) : State → Prop where
  | alone {m : Main} {board : Board} (moved : Alone s.init s.board reply m board) :
      InitStep s reply {s with init := m, board := board}
  | unforked (calls : s.init.calls = []) (stage : s.init.stage = .forking) :
      InitStep s reply {s with init := s.init.forked (-1)}
  | forked {pid : Int} (calls : s.init.calls = []) (stage : s.init.stage = .forking) (positive : 0 < pid) :
      InitStep s reply {s with init := s.init.forked pid, child := .forked, child_pid := pid}
  | waited {pid time_start : Int} (calls : s.init.calls = [])
      (stage : s.init.stage = .waiting pid time_start) : InitStep s reply (waitpid s pid time_start)
  | killed {pid : Int} (calls : s.init.calls = []) (stage : s.init.stage = .killing pid) :
      InitStep s reply {kill s pid with init := s.init.checked 0}

theorem init_cases {s next : State} {reply : Reply} (moved : initStep s reply = some next) :
    InitStep s reply next := by
  unfold initStep at moved
  split at moved
  · rename_i calls stage
    cases Option.some.inj moved
    exact .unforked calls stage
  · rename_i calls stage
    split at moved
    · rename_i positive
      cases Option.some.inj moved
      exact .forked calls stage positive
    · cases moved
  · rename_i calls stage
    cases Option.some.inj moved
    exact .waited calls stage
  · rename_i calls stage
    cases Option.some.inj moved
    exact .killed calls stage
  · obtain ⟨⟨m,board⟩,alone,rfl⟩ := Option.map_eq_some_iff.mp moved
    exact .alone (alone_cases alone)

def Pressed (codes : List UInt16) : Prop :=
  KeyCheck.KEY_VOLUMEDOWN ∈ codes ∨ KeyCheck.KEY_VOLUMEUP ∈ codes

theorem Pressed.later {before after : List UInt16} (pressed : Pressed before)
    (grown : before ⊆ after) : Pressed after := by
  cases pressed with
  | inl down => exact .inl (grown down)
  | inr up => exact .inr (grown up)

theorem codes_grow (s : State) (action : KeyCheck.Action) : s.codes ⊆ codes s action := by
  unfold codes
  split
  · exact List.subset_append_left _ _
  · exact List.Subset.refl _

def recovery_argv : List String := [EXEC_TOYBOX,"cpio","-i","-F",SBIN_CPIO_RECOVERY]

def guarded : List Call → Bool
  | [] => true
  | .unlink path::rest => path = WARMBOOT_CMDLINE || guarded rest
  | .umount _::_ => false
  | .system_exec argv::rest => argv ≠ recovery_argv && guarded rest
  | _::rest => guarded rest

def Board.Unlinked (board : Board) : Prop := board.warmboot = none ∨ board.undeleted

def Entitled (warmboot : Option Bytes) (s : State) : Prop :=
  Pressed s.codes ∨ contains (warmboot.getD []) WARMBOOT_RECOVERY ∧ s.child = .absent ∧
    (s.board.Unlinked ∨ "/cache" ∈ s.board.mounted ∧ guarded s.init.calls)

def Reports (codes : List UInt16) : Child → Prop
  | .keycheck check => check.event_count = 0 ∧
      ∀ code, check.phase = .exited code → code = 1 ∨ code = 42 ∧ Pressed codes
  | .main m => .system_exec recovery_argv ∉ m.calls ∧
      match m.stage with
      | .detecting | .forking | .looping _ _ | .killing _ => False
      | _ => True
  | .zombie status => status = KEYCHECK_RECOVERY_BOOT ∨ status = KEYCHECK_RECOVERY_FOTA → Pressed codes
  | _ => True

def Polls (s : State) : Prop :=
  match s.init.stage with
  | .forking => s.child = .absent
  | .timing pid | .waiting pid _ => 0 < pid ∨ s.child = .absent
  | .looping pid _ | .killing pid => 0 < pid
  | _ => True

structure Justified (warmboot : Option Bytes) (s : State) : Prop where
  fresh : s.init.stage = .detecting → s.child = .absent ∧ s.board.warmboot = warmboot ∧
    .unlink WARMBOOT_CMDLINE ∉ s.init.calls
  kept : s.board.warmboot = warmboot ∨ s.board.warmboot = none
  init : .system_exec recovery_argv ∈ s.init.calls → Entitled warmboot s
  unpacked : recovery_argv ∈ s.board.ran → Pressed s.codes ∨
    contains (warmboot.getD []) WARMBOOT_RECOVERY ∧ s.board.Unlinked
  child : Reports s.codes s.child
  polls : Polls s
  killed : ∀ pid ∈ s.killed,0 < pid

theorem opened_counts {s next : KeyCheck.State} {device : String} {opening : KeyCheck.Opening}
    (opened : KeyCheck.open_device s device opening = some next) : next.event_count = s.event_count := by
  unfold KeyCheck.open_device at opened
  split at opened
  · cases Option.some.inj opened
    rfl
  all_goals
    split at opened
    · cases opened
    · cases Option.some.inj opened
      rfl

theorem closed_counts (s : KeyCheck.State) (device : String) (code : Int) :
    (KeyCheck.close_device s device).event_count = s.event_count ∧
      ((KeyCheck.close_device s device).phase = .exited code → s.phase = .exited code) := by
  unfold KeyCheck.close_device
  split
  · exact ⟨rfl,fun crashed => by cases crashed⟩
  · exact ⟨rfl,id⟩

def Leaves (action : KeyCheck.Action) (next : KeyCheck.State) : Prop :=
  next.event_count = 0 ∧ ∀ code, next.phase = .exited code → code = 1 ∨
    code = 42 ∧ ∃ key, action = .read true key ∧
      (key = KeyCheck.KEY_VOLUMEDOWN ∨ key = KeyCheck.KEY_VOLUMEUP)

theorem leaves_phase {s next : KeyCheck.State} (action : KeyCheck.Action)
    (counted : next.event_count = 0) (phase : s.phase = next.phase)
    (running : ∀ code, s.phase ≠ .exited code) : Leaves action next := by
  refine ⟨counted,?_⟩
  intro code left
  exact absurd (phase.trans left) (running code)

theorem after_poll_leaves {s : KeyCheck.State} (action : KeyCheck.Action)
    (counted : s.event_count = 0) : Leaves action (KeyCheck.afterPoll s) := by
  unfold KeyCheck.afterPoll
  split
  · exact ⟨counted,fun code left => by cases left⟩
  · refine ⟨counted,?_⟩
    intro code left
    dsimp only at left
    split at left <;> cases left

theorem after_read_leaves {s : KeyCheck.State} (i : Nat) (complete : Bool) (key : UInt16)
    (counted : s.event_count = 0) :
    Leaves (.read complete key) (KeyCheck.afterRead s i complete key) := by
  unfold KeyCheck.afterRead
  split
  · refine ⟨counted,?_⟩
    intro code left
    cases left
    exact .inl rfl
  · rename_i full
    split
    · rename_i volume
      refine ⟨counted,?_⟩
      intro code left
      cases left
      cases complete with
      | false => exact absurd rfl full
      | true => exact .inr ⟨rfl,key,rfl,volume⟩
    · exact ⟨counted,fun code left => by cases left⟩

theorem keycheck_leaves {s next : KeyCheck.State} {action : KeyCheck.Action}
    (counted : s.event_count = 0) (moved : KeyCheck.step s action = some next) :
    Leaves action next := by
  cases action with
  | inotify_add_watch succeeds =>
    simp only [KeyCheck.step] at moved
    split at moved
    · cases Option.some.inj moved
      refine ⟨counted,?_⟩
      intro code left
      cases succeeds with
      | false =>
        cases left
        exact .inl rfl
      | true => cases left
    · cases moved
  | opendirFails =>
    simp only [KeyCheck.step] at moved
    split at moved
    · cases Option.some.inj moved
      refine ⟨counted,?_⟩
      intro code left
      cases left
      exact .inl rfl
    · cases moved
  | readdir d_name opening =>
    simp only [KeyCheck.step] at moved
    split at moved
    · rename_i scanning
      have running : ∀ code, s.phase ≠ .exited code := by
        intro code left
        rw [scanning] at left
        cases left
      split at moved
      · cases Option.some.inj moved
        exact leaves_phase _ counted rfl running
      · obtain ⟨-,-,phase,-⟩ := KeyCheck.opened_device moved
        exact leaves_phase _ ((opened_counts moved).trans counted) phase.symm running
    · cases moved
  | closedir =>
    simp only [KeyCheck.step] at moved
    split at moved
    · cases Option.some.inj moved
      exact ⟨counted,fun code left => by cases left⟩
    · cases moved
  | poll revents =>
    simp only [KeyCheck.step] at moved
    split at moved
    · cases Option.some.inj moved
      exact after_poll_leaves _ counted
    · cases moved
  | pollFails =>
    simp only [KeyCheck.step] at moved
    split at moved
    · cases Option.some.inj moved
      exact after_poll_leaves _ counted
    · cases moved
  | read_notify batch =>
    simp only [KeyCheck.step] at moved
    split at moved
    · cases Option.some.inj moved
      exact ⟨counted,fun code left => by cases left⟩
    · cases moved
  | event opening =>
    simp only [KeyCheck.step] at moved
    split at moved
    · rename_i event pending phase
      split at moved
      · cases Option.some.inj moved
        exact ⟨counted,fun code left => by cases left⟩
      · split at moved
        · obtain ⟨-,-,phase,-⟩ := KeyCheck.opened_device moved
          exact leaves_phase _ ((opened_counts moved).trans counted) phase.symm
            (fun code left => by cases left)
        · cases Option.some.inj moved
          refine ⟨(closed_counts _ _ 0).1.trans counted,?_⟩
          intro code left
          cases (closed_counts _ _ code).2 left
    · cases moved
  | read complete key =>
    simp only [KeyCheck.step] at moved
    split at moved
    · split at moved
      · cases moved
      · split at moved
        · cases Option.some.inj moved
          exact after_read_leaves (s := {s with reads := _}) _ complete key counted
        · cases moved
    · cases moved
  | «continue» =>
    simp only [KeyCheck.step] at moved
    split at moved
    · cases Option.some.inj moved
      exact ⟨counted,fun code left => by cases left⟩
    · split at moved
      · cases Option.some.inj moved
        exact ⟨counted,fun code left => by cases left⟩
      · split at moved
        · cases moved
        · cases Option.some.inj moved
          exact ⟨counted,fun code left => by cases left⟩
    · cases moved

theorem perform_warmboot (board : Board) (succeeds : Bool) (call : Call) :
    (board.perform succeeds call).warmboot = board.warmboot ∨
      (board.perform succeeds call).warmboot = none ∧ call = .unlink WARMBOOT_CMDLINE := by
  cases call with
  | unlink path =>
    simp only [Board.perform]
    split
    · rename_i here
      cases succeeds with
      | true => exact .inr ⟨rfl,by rw [here.1]⟩
      | false => exact .inl rfl
    · exact .inl rfl
  | mount source target filesystemtype | umount target | system_exec argv =>
    cases succeeds <;> exact .inl rfl
  | write_int path value =>
    simp only [Board.perform]
    split <;> exact .inl rfl
  | _ => exact .inl rfl

theorem perform_undeleted {board : Board} (kept : board.undeleted) (succeeds : Bool) (call : Call) :
    (board.perform succeeds call).undeleted := by
  cases call with
  | unlink path =>
    simp only [Board.perform]
    split
    · cases succeeds with
      | true => exact kept
      | false => simp [kept]
    · exact kept
  | mount source target filesystemtype | umount target | system_exec argv =>
    cases succeeds <;> exact kept
  | write_int path value =>
    simp only [Board.perform]
    split <;> exact kept
  | _ => exact kept

theorem perform_unlinked {board : Board} (unlinked : board.Unlinked) (succeeds : Bool) (call : Call) :
    (board.perform succeeds call).Unlinked := by
  cases unlinked with
  | inl gone =>
    cases perform_warmboot board succeeds call with
    | inl same => exact .inl (same.trans gone)
    | inr removed => exact .inl removed.1
  | inr kept => exact .inr (perform_undeleted kept succeeds call)

theorem perform_ran {board : Board} {succeeds : Bool} {call : Call} {argv : List String}
    (ran : argv ∈ (board.perform succeeds call).ran) : argv ∈ board.ran ∨ call = .system_exec argv := by
  cases call with
  | system_exec other =>
    cases succeeds with
    | false => exact .inl ran
    | true =>
      cases List.mem_append.mp ran with
      | inl before => exact .inl before
      | inr new =>
        rw [List.mem_singleton.mp new]
        exact .inr rfl
  | mount source target filesystemtype | umount target =>
    cases succeeds <;> exact .inl ran
  | unlink path =>
    simp only [Board.perform] at ran
    split at ran
    · cases succeeds <;> exact .inl ran
    · exact .inl ran
  | write_int path value =>
    simp only [Board.perform] at ran
    split at ran <;> exact .inl ran
  | _ => exact .inl ran

theorem guarded_step {board : Board} {call : Call} {rest : List Call} (succeeds : Bool)
    (mounted : "/cache" ∈ board.mounted) (guard : guarded (call::rest)) :
    (board.perform succeeds call).Unlinked ∨
      "/cache" ∈ (board.perform succeeds call).mounted ∧ guarded rest := by
  cases call with
  | unlink path =>
    simp only [Board.perform]
    split
    · cases succeeds with
      | true => exact .inl (.inl rfl)
      | false =>
        left
        cases file : board.warmboot with
        | none => exact .inl rfl
        | some content => exact .inr (by simp)
    · rename_i other
      refine .inr ⟨mounted,?_⟩
      simp only [guarded,Bool.or_eq_true,decide_eq_true_eq] at guard
      cases guard with
      | inl here => exact absurd ⟨here,mounted⟩ other
      | inr later => exact later
  | umount target => cases guard
  | system_exec argv =>
    simp only [guarded,Bool.and_eq_true] at guard
    cases succeeds <;> exact .inr ⟨mounted,guard.2⟩
  | mount source target filesystemtype =>
    cases succeeds with
    | false => exact .inr ⟨mounted,guard⟩
    | true => exact .inr ⟨List.mem_cons_of_mem _ mounted,guard⟩
  | write_int path value =>
    simp only [Board.perform]
    split <;> exact .inr ⟨mounted,guard⟩
  | _ => exact .inr ⟨mounted,guard⟩

theorem called_cases (m : Main) (call : Call) (rest : List Call) (succeeds : Bool) :
    m.called call rest succeeds = {m with calls := rest} ∨
      m.called call rest succeeds = {m with calls := [], stage := .replaced} := by
  cases call with
  | system_exec_inline argv =>
    cases succeeds with
    | false => exact .inl rfl
    | true => exact .inr rfl
  | _ => exact .inl rfl

theorem boot_execs {argc : Nat} {recoveryBoot : Bool} {argv : List String}
    (member : .system_exec argv ∈ boot argc recoveryBoot) :
    unpack (archive recoveryBoot) = .system_exec argv := by
  have others : .system_exec argv ∉ introduce recoveryBoot ∧ .system_exec argv ∉ finish argc := by
    constructor
    · cases recoveryBoot <;>
        simp [introduce,introduce_recovery,introduce_android,vibrate,led_color]
    · unfold finish launch
      split <;> simp [finish_init,outputs,vibrate,led_color]
  cases List.mem_append.mp member with
  | inl before => exact absurd before others.1
  | inr after =>
    cases List.mem_cons.mp after with
    | inl here => exact here.symm
    | inr later => exact absurd later others.2

theorem unpacks_recovery {argc : Nat} {recoveryBoot : Bool}
    (member : .system_exec recovery_argv ∈ boot argc recoveryBoot) : recoveryBoot = true := by
  cases recoveryBoot with
  | true => rfl
  | false =>
    have same := boot_execs member
    simp [unpack,archive,recovery_argv,SBIN_CPIO_ANDROID,SBIN_CPIO_RECOVERY] at same

theorem checked_pressed {m : Main} {status : Int} {codes : List UInt16}
    (reports : status = KEYCHECK_RECOVERY_BOOT ∨ status = KEYCHECK_RECOVERY_FOTA → Pressed codes)
    (member : .system_exec recovery_argv ∈ (m.checked status).calls) : Pressed codes := by
  have found := unpacks_recovery member
  rw [Bool.or_eq_true,beq_iff_eq,beq_iff_eq] at found
  exact reports found

theorem checked_other {m : Main} {status : Int} (boot : status ≠ KEYCHECK_RECOVERY_BOOT)
    (fota : status ≠ KEYCHECK_RECOVERY_FOTA) : .system_exec recovery_argv ∉ (m.checked status).calls := by
  intro member
  have none_pressed : Pressed [] := checked_pressed (by rintro (same | same) <;> contradiction) member
  simp [Pressed] at none_pressed

theorem start_justified (argc : Nat) (warmboot : Option Bytes) :
    Justified warmboot (start argc warmboot) := by
  refine ⟨?_,.inl rfl,?_,?_,trivial,trivial,?_⟩
  · intro _
    refine ⟨rfl,rfl,?_⟩
    show _ ∉ setup
    decide +kernel
  · intro member
    have never : .system_exec recovery_argv ∉ setup := by decide +kernel
    exact absurd member never
  · intro member
    cases member
  · intro pid member
    cases member

theorem Justified.child_moved {warmboot : Option Bytes} {s next : State}
    (justified : Justified warmboot s) (there : s.child ≠ .absent) (init : next.init = s.init)
    (codes : s.codes ⊆ next.codes)
    (kept : next.board.warmboot = s.board.warmboot ∨ next.board.warmboot = none)
    (unpacked : recovery_argv ∈ next.board.ran → recovery_argv ∈ s.board.ran)
    (unlinked : s.board.Unlinked → next.board.Unlinked) (killed : next.killed = s.killed) (child : Reports next.codes next.child) :
    Justified warmboot next := by
  refine ⟨?_,?_,?_,?_,child,?_,?_⟩
  · intro detecting
    rw [init] at detecting
    exact absurd (justified.fresh detecting).1 there
  · cases kept with
    | inl same =>
      rw [same]
      exact justified.kept
    | inr gone => exact .inr gone
  · intro member
    rw [init] at member
    cases justified.init member with
    | inl pressed => exact .inl (pressed.later codes)
    | inr asked => exact absurd asked.2.1 there
  · intro member
    cases justified.unpacked (unpacked member) with
    | inl pressed => exact .inl (pressed.later codes)
    | inr asked => exact .inr ⟨asked.1,unlinked asked.2⟩
  · have polls := justified.polls
    unfold Polls at polls ⊢
    rw [init]
    split at polls
    · exact absurd polls there
    · exact .inl (polls.resolve_right there)
    · exact .inl (polls.resolve_right there)
    · exact polls
    · exact polls
    · trivial
  · rw [killed]
    exact justified.killed

theorem Justified.called {warmboot : Option Bytes} {s : State} {call : Call} {rest : List Call}
    (justified : Justified warmboot s) (calls : s.init.calls = call::rest) (succeeds : Bool) :
    Justified warmboot
      {s with
        init := s.init.called call rest succeeds
        board := s.board.perform succeeds call} := by
  have kept : (s.board.perform succeeds call).warmboot = warmboot ∨
      (s.board.perform succeeds call).warmboot = none := by
    cases perform_warmboot s.board succeeds call with
    | inl same =>
      rw [same]
      exact justified.kept
    | inr removed => exact .inr removed.1
  have unpacked : recovery_argv ∈ (s.board.perform succeeds call).ran → Pressed s.codes ∨
      contains (warmboot.getD []) WARMBOOT_RECOVERY ∧ (s.board.perform succeeds call).Unlinked := by
    intro member
    cases perform_ran member with
    | inl before =>
      refine (justified.unpacked before).imp id ?_
      intro asked
      exact ⟨asked.1,perform_unlinked asked.2 succeeds call⟩
    | inr here =>
      refine (justified.init ?_).imp id ?_
      · rw [calls,here]
        exact List.mem_cons_self
      · intro asked
        refine ⟨asked.1,?_⟩
        cases asked.2.2 with
        | inl unlinked => exact perform_unlinked unlinked succeeds call
        | inr guard =>
          rw [calls,here] at guard
          simp [guarded] at guard
  have init : .system_exec recovery_argv ∈ rest → Entitled warmboot
      {s with
        init := {s.init with calls := rest}
        board := s.board.perform succeeds call} := by
    intro member
    have before : .system_exec recovery_argv ∈ s.init.calls := by
      rw [calls]
      exact List.mem_cons_of_mem _ member
    refine (justified.init before).imp id ?_
    intro asked
    refine ⟨asked.1,asked.2.1,?_⟩
    cases asked.2.2 with
    | inl unlinked => exact .inl (perform_unlinked unlinked succeeds call)
    | inr guard =>
      rw [calls] at guard
      exact guarded_step succeeds guard.1 guard.2
  cases called_cases s.init call rest succeeds with
  | inl same =>
    rw [same]
    refine ⟨?_,kept,init,unpacked,justified.child,justified.polls,justified.killed⟩
    intro detecting
    obtain ⟨absent,before,never⟩ := justified.fresh detecting
    rw [calls] at never
    refine ⟨absent,?_,fun member => never (List.mem_cons_of_mem _ member)⟩
    cases perform_warmboot s.board succeeds call with
    | inl kept => exact kept.trans before
    | inr removed =>
      rw [removed.2] at never
      exact absurd List.mem_cons_self never
  | inr replaced =>
    rw [replaced]
    refine ⟨?_,kept,?_,unpacked,justified.child,trivial,justified.killed⟩
    · intro detecting
      cases detecting
    · intro member
      cases member

theorem Justified.init_moved {warmboot : Option Bytes} {s next : State}
    (justified : Justified warmboot s) (board : next.board = s.board) (codes : next.codes = s.codes)
    (later : next.init.stage ≠ .detecting)
    (init : .system_exec recovery_argv ∈ next.init.calls → Entitled warmboot next)
    (child : Reports next.codes next.child) (polls : Polls next)
    (killed : ∀ pid ∈ next.killed,0 < pid) : Justified warmboot next := by
  refine ⟨fun detecting => absurd detecting later,?_,init,?_,child,polls,killed⟩
  · rw [board]
    exact justified.kept
  · rw [board,codes]
    exact justified.unpacked

theorem Justified.detected {warmboot : Option Bytes} {s : State} (justified : Justified warmboot s)
    (calls : s.init.calls = []) (detecting : s.init.stage = .detecting) :
    Justified warmboot {s with init := s.init.detected s.board.file_content} := by
  obtain ⟨absent,same,-⟩ := justified.fresh detecting
  cases found : contains s.board.file_content WARMBOOT_RECOVERY with
  | true =>
    have mounted : "/cache" ∈ s.board.mounted := by
      by_contra unmounted
      rw [Board.file_content,if_neg unmounted] at found
      exact absurd found (by decide)
    have content : s.board.file_content = warmboot.getD [] := by
      rw [Board.file_content,if_pos mounted,same]
    rw [content] at found
    rw [Main.detected,content,if_pos found]
    refine justified.init_moved rfl rfl nofun ?_ justified.child trivial justified.killed
    intro _
    exact .inr ⟨found,absent,.inr ⟨mounted,rfl⟩⟩
  | false =>
    rw [Main.detected,if_neg (by rw [found]; exact Bool.false_ne_true)]
    refine justified.init_moved rfl rfl nofun ?_ justified.child absent justified.killed
    intro member
    rw [calls] at member
    cases member

theorem entitled_nothing {warmboot : Option Bytes} {s : State} {calls : List Call}
    (empty : calls = []) (member : .system_exec recovery_argv ∈ calls) : Entitled warmboot s := by
  rw [empty] at member
  cases member

theorem Justified.alone {warmboot : Option Bytes} {s : State} {m : Main} {board : Board}
    {reply : Reply} (justified : Justified warmboot s) (moved : Alone s.init s.board reply m board) :
    Justified warmboot {s with init := m, board := board} := by
  have polls := justified.polls
  cases moved with
  | call calls succeeds _ => exact justified.called calls succeeds
  | detected calls stage => exact justified.detected calls stage
  | started calls stage time_start =>
    simp only [Polls,stage] at polls
    exact justified.init_moved rfl rfl nofun (entitled_nothing calls) justified.child polls
      justified.killed
  | @timed pid time_start calls stage time_cur =>
    simp only [Polls,stage] at polls
    by_cases early : time_cur - time_start < KEYCHECK_TIMEOUT
    · rw [Main.timed,if_pos early]
      exact justified.init_moved rfl rfl nofun (entitled_nothing calls) justified.child (.inl polls)
        justified.killed
    · rw [Main.timed,if_neg early]
      exact justified.init_moved rfl rfl nofun (entitled_nothing calls) justified.child polls
        justified.killed
  | returned calls stage =>
    exact justified.init_moved rfl rfl nofun (entitled_nothing calls) justified.child trivial
      justified.killed

theorem introduce_keycheck_execs (argv : List String) : .system_exec argv ∉ introduce_keycheck := by
  simp [introduce_keycheck,vibrate,led_color]

theorem Justified.waited {warmboot : Option Bytes} {s : State} {pid time_start : Int}
    (justified : Justified warmboot s) (calls : s.init.calls = [])
    (stage : s.init.stage = .waiting pid time_start) :
    Justified warmboot (waitpid s pid time_start) := by
  have polls := justified.polls
  have reports := justified.child
  simp only [Polls,stage] at polls
  have looping (there : s.child ≠ .absent) {child : Child} (child_reports : Reports s.codes child) :
      Justified warmboot
        {s with init := {s.init with stage := .looping pid time_start}, child := child} :=
    justified.init_moved rfl rfl nofun (entitled_nothing calls) child_reports
      (polls.resolve_right there) justified.killed
  have nobody {child : Child} (child_reports : Reports s.codes child) :
      Justified warmboot {s with init := s.init.checked (-1), child := child} := by
    refine justified.init_moved rfl rfl nofun ?_ child_reports trivial justified.killed
    intro member
    exact absurd member (checked_other (by decide) (by decide))
  unfold waitpid
  split
  · rename_i absent
    exact nobody justified.child
  · rename_i status zombie
    rw [zombie] at reports
    unfold Main.waited
    split
    · refine justified.init_moved rfl rfl nofun ?_ trivial trivial justified.killed
      intro member
      exact .inl (checked_pressed reports member)
    · split
      · exact nobody trivial
      · exact looping (by rw [zombie]; exact nofun) trivial
  · rename_i present _
    exact looping present justified.child

theorem step_init {warmboot : Option Bytes} {s next : State} {reply : Reply}
    (justified : Justified warmboot s) (moved : InitStep s reply next) : Justified warmboot next := by
  have polls := justified.polls
  cases moved with
  | alone moved => exact justified.alone moved
  | unforked calls stage =>
    simp only [Polls,stage] at polls
    refine justified.init_moved rfl rfl nofun ?_ justified.child (.inr polls) justified.killed
    intro member
    exact absurd member (introduce_keycheck_execs _)
  | forked calls stage positive =>
    refine justified.init_moved rfl rfl nofun ?_ trivial (.inl positive) justified.killed
    intro member
    exact absurd member (introduce_keycheck_execs _)
  | waited calls stage => exact justified.waited calls stage
  | killed calls stage =>
    simp only [Polls,stage] at polls
    refine justified.init_moved rfl rfl nofun ?_ justified.child trivial ?_
    · intro member
      exact absurd member (checked_other (by decide) (by decide))
    · intro pid member
      cases List.mem_append.mp member with
      | inl before => exact justified.killed pid before
      | inr here =>
        rw [List.mem_singleton.mp here]
        exact polls

-- The child is main once more: it never gets as far as the recovery.
theorem main_reports {codes : List UInt16} {m next : Main} {board after : Board}
    {reply : Reply} (reports : Reports codes (.main m)) (moved : Alone m board reply next after) :
    Reports codes (.main next) ∧ (recovery_argv ∈ after.ran → recovery_argv ∈ board.ran) := by
  obtain ⟨never,stage⟩ := reports
  cases moved with
  | @call call rest calls succeeds _ =>
    rw [calls] at never
    refine ⟨?_,?_⟩
    · cases called_cases m call rest succeeds with
      | inl same =>
        rw [same]
        exact ⟨fun member => never (List.mem_cons_of_mem _ member),stage⟩
      | inr replaced =>
        rw [replaced]
        exact ⟨List.not_mem_nil,trivial⟩
    · intro ran
      cases perform_ran ran with
      | inl before => exact before
      | inr here =>
        rw [here] at never
        exact absurd List.mem_cons_self never
  | detected calls detecting =>
    rw [detecting] at stage
    cases stage
  | started calls timing time_start => exact ⟨⟨never,trivial⟩,id⟩
  | timed calls looping time_cur =>
    rw [looping] at stage
    cases stage
  | returned calls booting => exact ⟨⟨never,trivial⟩,id⟩

theorem step_child {warmboot : Option Bytes} {s next : State} {m : Main} {reply : Reply}
    (justified : Justified warmboot s) (main : s.child = .main m)
    (moved : childStep s m reply = some next) : Justified warmboot next := by
  have there : s.child ≠ .absent := by rw [main]; exact nofun
  have reports := justified.child
  rw [main] at reports
  unfold childStep at moved
  split at moved
  · cases Option.some.inj moved
    have checked : Reports s.codes (.main (m.checked (-1))) :=
      ⟨checked_other (by decide) (by decide),trivial⟩
    exact justified.child_moved there rfl (List.Subset.refl _) (.inl rfl) id id rfl checked
  · rename_i killing
    have stage := reports.2
    rw [killing] at stage
    cases stage
  · obtain ⟨⟨after,board⟩,alone,rfl⟩ := Option.map_eq_some_iff.mp moved
    have kept : board.warmboot = s.board.warmboot ∨ board.warmboot = none := by
      cases alone_cases alone with
      | @call call _ _ succeeds _ =>
        exact (perform_warmboot s.board succeeds call).imp id And.left
      | _ => exact .inl rfl
    have unlinked : s.board.Unlinked → board.Unlinked := by
      intro before
      cases alone_cases alone with
      | @call call _ _ succeeds _ => exact perform_unlinked before succeeds call
      | _ => exact before
    obtain ⟨child,unpacked⟩ := main_reports reports (alone_cases alone)
    exact justified.child_moved there rfl (List.Subset.refl _) kept unpacked unlinked rfl child

theorem exited_status {code : Int} {codes : List UInt16} (left : code = 1 ∨ code = 42 ∧ Pressed codes) :
    exited code = KEYCHECK_RECOVERY_BOOT ∨ exited code = KEYCHECK_RECOVERY_FOTA → Pressed codes := by
  intro found
  cases left with
  | inl one =>
    rw [one] at found
    exact absurd found (by decide)
  | inr key => exact key.2

theorem step_keycheck {warmboot : Option Bytes} {s : State} {check next : KeyCheck.State}
    {action : KeyCheck.Action} (justified : Justified warmboot s) (running : s.child = .keycheck check)
    (moved : KeyCheck.step check action = some next) :
    Justified warmboot {s with child := .keycheck next, codes := codes s action} := by
  have there : s.child ≠ .absent := by rw [running]; exact nofun
  have reports := justified.child
  rw [running] at reports
  obtain ⟨counted,leaves⟩ := keycheck_leaves reports.1 moved
  refine justified.child_moved there rfl (codes_grow s action) (.inl rfl) id id rfl ⟨counted,?_⟩
  intro code left
  refine (leaves code left).imp id ?_
  rintro ⟨same,key,rfl,volume⟩
  refine ⟨same,?_⟩
  have read : key ∈ codes s (.read true key) :=
    List.mem_append_right _ (List.mem_singleton_self key)
  cases volume with
  | inl down =>
    rw [down] at read ⊢
    exact .inl read
  | inr up =>
    rw [up] at read ⊢
    exact .inr read

theorem Justified.ended {warmboot : Option Bytes} {s : State} {status : Int}
    (justified : Justified warmboot s) (there : s.child ≠ .absent)
    (reports : status = KEYCHECK_RECOVERY_BOOT ∨ status = KEYCHECK_RECOVERY_FOTA → Pressed s.codes) :
    Justified warmboot {s with child := .zombie status} :=
  justified.child_moved there rfl (List.Subset.refl _) (.inl rfl) id id rfl reports

theorem step_justified {warmboot : Option Bytes} {s next : State} {action : Action}
    (justified : Justified warmboot s) (moved : step s action = some next) :
    Justified warmboot next := by
  cases action with
  | init reply => exact step_init justified (init_cases moved)
  | execv nfd =>
    cases nfd with
    | some nfd =>
      simp only [step] at moved
      split at moved
      · rename_i forked
        cases Option.some.inj moved
        have there : s.child ≠ .absent := by rw [forked]; exact nofun
        exact justified.child_moved there rfl (List.Subset.refl _) (.inl rfl) id id rfl ⟨rfl,nofun⟩
      · cases moved
    | none =>
      simp only [step] at moved
      split at moved
      · rename_i forked
        cases Option.some.inj moved
        have there : s.child ≠ .absent := by rw [forked]; exact nofun
        exact justified.child_moved there rfl (List.Subset.refl _) (.inl rfl) id id rfl
          ⟨introduce_keycheck_execs _,trivial⟩
      · cases moved
  | keycheck action =>
    simp only [step] at moved
    split at moved
    · rename_i check running
      obtain ⟨after,stepped,rfl⟩ := Option.map_eq_some_iff.mp moved
      exact step_keycheck justified running stepped
    · cases moved
  | child reply =>
    simp only [step] at moved
    split at moved
    · rename_i m main
      exact step_child justified main moved
    · cases moved
  | exit =>
    simp only [step] at moved
    split at moved
    · rename_i check running
      have there : s.child ≠ .absent := by rw [running]; exact nofun
      have reports := justified.child
      rw [running] at reports
      split at moved
      · rename_i code left
        cases Option.some.inj moved
        exact justified.ended there (exited_status (reports.2 code left))
      · cases Option.some.inj moved
        exact justified.ended there (fun found => absurd found (by decide))
      · cases moved
    · rename_i main
      have there : s.child ≠ .absent := by rw [main]; exact nofun
      cases Option.some.inj moved
      exact justified.ended there (fun found => absurd found (by decide))
    · cases moved
  | terminate =>
    simp only [step] at moved
    split at moved
    · split at moved
      · cases moved
      · cases moved
      · rename_i there _
        cases Option.some.inj moved
        exact justified.ended there (fun found => absurd found (by decide))
    · cases moved

theorem run_justified {argc : Nat} {warmboot : Option Bytes} {actions : List Action} {s : State}
    (ran : run step (start argc warmboot) actions = some s) : Justified warmboot s :=
  run_invariant (Justified warmboot) (fun _ _ _ => step_justified) (start_justified argc warmboot) ran

-- A recovery is unpacked for a volume key or for the warmboot file only, and kill
-- is never given 0 or -1, which would reach init and everything it has started.
theorem recovery_asked {argc : Nat} {warmboot : Option Bytes} {actions : List Action} {s : State}
    (ran : run step (start argc warmboot) actions = some s) :
    (recovery_argv ∈ s.board.ran → Pressed s.codes ∨
      WARMBOOT_RECOVERY <:+: c_str (warmboot.getD [])) ∧ ∀ pid ∈ s.killed,0 < pid := by
  have justified := run_justified ran
  refine ⟨?_,justified.killed⟩
  intro unpacked
  refine (justified.unpacked unpacked).imp id ?_
  intro asked
  exact (strstr_found _ _).mp asked.1

def settle : List Call → Board → Board
  | [],board => board
  | .system_exec_inline _::_,board => board
  | call::rest,board => settle rest (board.perform true call)

theorem settle_called {m : Main} {call : Call} {rest : List Call} (board : Board) :
    settle (m.called call rest true).calls (board.perform true call) = settle (call::rest) board := by
  cases call <;> rfl

def attribute_paths : List String :=
  ["/sys/class/leds/red/brightness","/sys/class/leds/green/brightness",
    "/sys/class/leds/blue/brightness","/sys/class/timed_output/vibrator/enable"]

structure Ready (warmboot : Option Bytes) (board : Board) : Prop where
  mounted : board.mounted = ["/cache","/sys","/proc"]
  ran : board.ran = []
  warmboot : board.warmboot = warmboot

structure Left (recoveryBoot : Bool) (warmboot : Option Bytes) (board : Board) : Prop where
  mounted : board.mounted = []
  ran : board.ran = [[EXEC_TOYBOX,"cpio","-i","-F",archive recoveryBoot]]
  dark : ∀ path ∈ attribute_paths,board.attributes path = 0
  warmboot : board.warmboot = if recoveryBoot then none else warmboot

theorem setup_ready (warmboot : Option Bytes) : Ready warmboot (settle setup ⟨[],warmboot,false,fun _ => 0,[]⟩) := by
  refine ⟨rfl,rfl,rfl⟩

theorem introduced_ready {warmboot : Option Bytes} {board : Board} (ready : Ready warmboot board) :
    Ready warmboot (settle introduce_keycheck board) := by
  obtain ⟨mounted,ran,same⟩ := ready
  constructor <;>
    simp [introduce_keycheck,vibrate,led_color,settle,Board.perform,mounted,ran,same]

theorem settle_append {front : List Call} (returns : ∀ argv, .system_exec_inline argv ∉ front)
    (back : List Call) (board : Board) :
    settle (front ++ back) board = settle back (settle front board) := by
  induction front generalizing board with
  | nil => rfl
  | cons call rest ih =>
    have tail := ih (fun argv member => returns argv (List.mem_cons_of_mem _ member))
    cases call with
    | system_exec_inline argv => exact absurd List.mem_cons_self (returns argv)
    | _ => exact tail _

theorem introduce_settles {warmboot : Option Bytes} {board : Board} (recoveryBoot : Bool)
    (ready : Ready warmboot board) :
    Ready (if recoveryBoot then none else warmboot) (settle (introduce recoveryBoot) board) := by
  obtain ⟨mounted,ran,same⟩ := ready
  cases recoveryBoot <;> constructor <;>
    simp [introduce,introduce_recovery,introduce_android,vibrate,led_color,settle,Board.perform,
      mounted,ran,same]

theorem finish_mounted {board : Board} (argc : Nat) (mounted : board.mounted = ["/cache","/sys","/proc"]) :
    (settle (finish argc) board).mounted = [] ∧
      (settle (finish argc) board).warmboot = board.warmboot ∧
      (settle (finish argc) board).ran = board.ran := by
  unfold finish launch
  split <;>
    simp [finish_init,outputs,vibrate,led_color,settle,Board.perform,mounted,WARMBOOT_CMDLINE,EXEC_TOYBOX]

theorem finish_dark {board : Board} (argc : Nat) (mounted : board.mounted = ["/cache","/sys","/proc"])
    {path : String} (member : path ∈ attribute_paths) :
    (settle (finish argc) board).attributes path = 0 := by
  simp only [attribute_paths,List.mem_cons,List.not_mem_nil,or_false] at member
  unfold finish launch
  obtain rfl | rfl | rfl | rfl := member <;> split <;>
    simp [finish_init,outputs,vibrate,led_color,settle,Board.perform,mounted,WARMBOOT_CMDLINE,
      EXEC_TOYBOX,Function.update]

theorem boot_left {warmboot : Option Bytes} {board : Board} (argc : Nat) (recoveryBoot : Bool)
    (ready : Ready warmboot board) : Left recoveryBoot warmboot (settle (boot argc recoveryBoot) board) := by
  have introduced := introduce_settles recoveryBoot ready
  have returns : ∀ argv, .system_exec_inline argv ∉ introduce recoveryBoot := by
    intro argv
    cases recoveryBoot <;>
      simp [introduce,introduce_recovery,introduce_android,vibrate,led_color]
  rw [boot,settle_append returns]
  generalize settle (introduce recoveryBoot) board = after at introduced
  have given := introduced.mounted
  have unpacked := @finish_mounted (after.perform true (unpack (archive recoveryBoot))) argc given
  refine ⟨unpacked.1,?_,?_,unpacked.2.1.trans introduced.warmboot⟩
  · refine unpacked.2.2.trans ?_
    simp [unpack,Board.perform,introduced.ran]
  · intro path member
    exact @finish_dark (after.perform true (unpack (archive recoveryBoot))) argc given path member

def smooth : Action → Bool
  | .init (.done succeeds) => succeeds
  | .execv nfd => nfd.isSome
  | _ => true

def Smooth (_ : State) (action : Action) : Prop := smooth action

def asked (warmboot : Option Bytes) : Bool := contains (warmboot.getD []) WARMBOOT_RECOVERY

structure Readies (warmboot : Option Bytes) (m : Main) (board : Board) : Prop where
  returns : ∀ argv,.system_exec_inline argv ∉ m.calls
  ready : Ready warmboot (settle m.calls board)

def Heads (warmboot : Option Bytes) (m : Main) (board : Board) : Prop :=
  match m.stage with
  | .detecting => Readies warmboot m board
  | .booting recoveryBoot =>
    Left recoveryBoot warmboot (settle m.calls board) ∧ (asked warmboot → recoveryBoot)
  | .returned | .replaced =>
    m.calls = [] ∧ ∃ recoveryBoot, Left recoveryBoot warmboot board ∧ (asked warmboot → recoveryBoot)
  | _ => Readies warmboot m board ∧ asked warmboot = false

theorem Readies.called {warmboot : Option Bytes} {m : Main} {board : Board} {call : Call}
    {rest : List Call} (readies : Readies warmboot m board) (calls : m.calls = call::rest) :
    (m.called call rest true).stage = m.stage ∧
      Readies warmboot (m.called call rest true) (board.perform true call) := by
  obtain ⟨returns,ready⟩ := readies
  rw [calls] at returns ready
  have here : ∀ argv,call ≠ .system_exec_inline argv := by
    intro argv same
    rw [same] at returns
    exact returns argv List.mem_cons_self
  have later : m.called call rest true = {m with calls := rest} := by
    cases call with
    | system_exec_inline argv => exact absurd rfl (here argv)
    | _ => rfl
  rw [←settle_called (m := m)] at ready
  rw [later] at ready ⊢
  exact ⟨rfl,fun argv member => returns argv (List.mem_cons_of_mem _ member),ready⟩

theorem heads_called {warmboot : Option Bytes} {m : Main} {board : Board} {call : Call}
    {rest : List Call} (heads : Heads warmboot m board) (calls : m.calls = call::rest) :
    Heads warmboot (m.called call rest true) (board.perform true call) := by
  unfold Heads at heads ⊢
  cases stage : m.stage with
  | detecting =>
    rw [stage] at heads
    obtain ⟨same,readies⟩ := heads.called calls
    rw [same,stage]
    exact readies
  | booting recoveryBoot =>
    rw [stage] at heads
    obtain ⟨left,recovery⟩ := heads
    rw [calls] at left
    cases call with
    | system_exec_inline argv => exact ⟨rfl,recoveryBoot,left,recovery⟩
    | _ =>
      simp only [Main.called,stage]
      exact ⟨left,recovery⟩
  | returned | replaced =>
    rw [stage] at heads
    cases calls.symm.trans heads.1
  | forking | timing pid | waiting pid time_start | looping pid time_start | killing pid =>
    rw [stage] at heads
    obtain ⟨same,readies⟩ := heads.1.called calls
    rw [same,stage]
    exact ⟨readies,heads.2⟩

theorem heads_checked {warmboot : Option Bytes} {m : Main} {board : Board} (status : Int)
    (ready : Ready warmboot board) (unasked : asked warmboot = false) :
    Heads warmboot (m.checked status) board := by
  refine ⟨boot_left m.argc _ ready,?_⟩
  intro found
  rw [unasked] at found
  cases found

theorem Readies.now {warmboot : Option Bytes} {m : Main} {board : Board}
    (readies : Readies warmboot m board) (calls : m.calls = []) : Ready warmboot board := by
  have ready := readies.ready
  rw [calls] at ready
  exact ready

theorem heads_detected {warmboot : Option Bytes} {m : Main} {board : Board}
    (readies : Readies warmboot m board) (calls : m.calls = []) :
    Heads warmboot (m.detected board.file_content) board := by
  have ready := readies.now calls
  have content : board.file_content = warmboot.getD [] := by
    rw [Board.file_content,ready.warmboot,ready.mounted,if_pos List.mem_cons_self]
  rw [content]
  by_cases found : contains (warmboot.getD []) WARMBOOT_RECOVERY = true
  · rw [Main.detected,if_pos found]
    exact ⟨boot_left m.argc true ready,fun _ => rfl⟩
  · rw [Main.detected,if_neg found]
    exact ⟨⟨readies.returns,readies.ready⟩,Bool.eq_false_of_not_eq_true found⟩

theorem heads_forked {warmboot : Option Bytes} {m : Main} {board : Board} (pid : Int)
    (readies : Readies warmboot m board) (calls : m.calls = []) (unasked : asked warmboot = false) :
    Heads warmboot (m.forked pid) board := by
  refine ⟨⟨?_,introduced_ready (readies.now calls)⟩,unasked⟩
  simp [Main.forked,introduce_keycheck,vibrate,led_color]

theorem heads_alone {warmboot : Option Bytes} {m next : Main} {board after : Board} {reply : Reply}
    (heads : Heads warmboot m board) (smooth : ∀ succeeds,reply = .done succeeds → succeeds = true)
    (moved : Alone m board reply next after) : Heads warmboot next after := by
  cases moved with
  | call calls succeeds answer =>
    rw [smooth succeeds answer]
    exact heads_called heads calls
  | detected calls stage =>
    simp only [Heads,stage] at heads
    exact heads_detected heads calls
  | started calls stage time_start =>
    simp only [Heads,stage] at heads
    exact ⟨⟨heads.1.returns,heads.1.ready⟩,heads.2⟩
  | @timed pid time_start calls stage time_cur =>
    simp only [Heads,stage] at heads
    unfold Main.timed
    split <;> exact ⟨⟨heads.1.returns,heads.1.ready⟩,heads.2⟩
  | @returned recoveryBoot calls stage =>
    simp only [Heads,stage] at heads
    obtain ⟨left,recovery⟩ := heads
    rw [calls] at left
    exact ⟨calls,recoveryBoot,left,recovery⟩

structure Settling (warmboot : Option Bytes) (s : State) : Prop where
  heads : Heads warmboot s.init s.board
  child : ∀ m, s.child ≠ .main m

theorem settling_waited {warmboot : Option Bytes} {s : State} {pid time_start : Int}
    (settling : Settling warmboot s) (calls : s.init.calls = [])
    (stage : s.init.stage = .waiting pid time_start) :
    Settling warmboot (waitpid s pid time_start) := by
  obtain ⟨heads,child⟩ := settling
  simp only [Heads,stage] at heads
  have waited (_pid status : Int) : Heads warmboot (s.init.waited pid time_start _pid status) s.board := by
    unfold Main.waited
    split
    · exact heads_checked status (heads.1.now calls) heads.2
    · split
      · exact heads_checked (-1) (heads.1.now calls) heads.2
      · exact ⟨⟨heads.1.returns,heads.1.ready⟩,heads.2⟩
  unfold waitpid
  split
  · exact ⟨waited (-1) (-1),child⟩
  · exact ⟨waited s.child_pid _,nofun⟩
  · exact ⟨waited 0 (-1),child⟩

theorem step_settling {warmboot : Option Bytes} {s next : State} {action : Action}
    (settling : Settling warmboot s) (smoothly : Smooth s action) (moved : step s action = some next) :
    Settling warmboot next := by
  obtain ⟨heads,child⟩ := settling
  cases action with
  | init reply =>
    cases init_cases moved with
    | alone alone =>
      refine ⟨heads_alone heads ?_ alone,child⟩
      intro succeeds answer
      rw [answer] at smoothly
      exact smoothly
    | unforked calls stage =>
      simp only [Heads,stage] at heads
      exact ⟨heads_forked _ heads.1 calls heads.2,child⟩
    | forked calls stage positive =>
      simp only [Heads,stage] at heads
      exact ⟨heads_forked _ heads.1 calls heads.2,nofun⟩
    | waited calls stage => exact settling_waited ⟨heads,child⟩ calls stage
    | killed calls stage =>
      simp only [Heads,stage] at heads
      exact ⟨heads_checked 0 (heads.1.now calls) heads.2,child⟩
  | execv nfd =>
    cases nfd with
    | none => cases smoothly
    | some nfd =>
      simp only [step] at moved
      split at moved
      · cases Option.some.inj moved
        exact ⟨heads,nofun⟩
      · cases moved
  | keycheck action =>
    simp only [step] at moved
    split at moved
    · obtain ⟨after,stepped,rfl⟩ := Option.map_eq_some_iff.mp moved
      exact ⟨heads,nofun⟩
    · cases moved
  | child reply =>
    simp only [step] at moved
    cases moved
  | exit =>
    simp only [step] at moved
    split at moved
    · split at moved
      · cases Option.some.inj moved
        exact ⟨heads,nofun⟩
      · cases Option.some.inj moved
        exact ⟨heads,nofun⟩
      · cases moved
    · rename_i main
      exact absurd main (child _)
    · cases moved
  | terminate =>
    simp only [step] at moved
    split at moved
    · split at moved
      · cases moved
      · cases moved
      · cases Option.some.inj moved
        exact ⟨heads,nofun⟩
    · cases moved

theorem start_settling (argc : Nat) (warmboot : Option Bytes) :
    Settling warmboot (start argc warmboot) := by
  refine ⟨⟨?_,setup_ready warmboot⟩,nofun⟩
  have never : setup.all (fun call => match call with | .system_exec_inline _ => false | _ => true) := by
    decide +kernel
  intro argv member
  exact absurd (List.all_eq_true.mp never _ member) Bool.false_ne_true

-- A smooth boot that main is done with has unpacked one ramdisk, the recovery's
-- where the warmboot file asks for it; it leaves no light on and nothing mounted.
theorem boot_settles {argc : Nat} {warmboot : Option Bytes} {actions : List Action} {s : State}
    (smoothly : Obeys step Smooth (start argc warmboot) actions)
    (ran : run step (start argc warmboot) actions = some s)
    (done : s.init.stage = .returned ∨ s.init.stage = .replaced) :
    ∃ recoveryBoot, Left recoveryBoot warmboot s.board ∧ (asked warmboot → recoveryBoot) ∧
      (recoveryBoot → Pressed s.codes ∨ asked warmboot) := by
  have settling : Settling warmboot s :=
    obeys_invariant (Settling warmboot) (fun _ _ _ => step_settling) (start_settling argc warmboot)
      smoothly ran
  have heads := settling.heads
  have settled : ∃ recoveryBoot, Left recoveryBoot warmboot s.board ∧ (asked warmboot → recoveryBoot) := by
    cases done with
    | inl returned =>
      simp only [Heads,returned] at heads
      exact heads.2
    | inr replaced =>
      simp only [Heads,replaced] at heads
      exact heads.2
  obtain ⟨recoveryBoot,left,recovery⟩ := settled
  refine ⟨recoveryBoot,left,recovery,?_⟩
  intro found
  have unpacked : recovery_argv ∈ s.board.ran := by
    rw [left.ran,found]
    exact List.mem_cons_self
  exact ((run_justified ran).unpacked unpacked).imp id And.left

theorem smooth_obeys {s : State} {actions : List Action} (smoothly : actions.all smooth) :
    Obeys step Smooth s actions := by
  induction actions generalizing s with
  | nil => trivial
  | cons action rest ih =>
    rw [List.all_cons,Bool.and_eq_true] at smoothly
    exact ⟨smoothly.1,fun next _ => ih smoothly.2⟩

def calls (n : Nat) : List Action := List.replicate n (.init (.done true))

def keycheck_starts : List Action :=
  [.init (.fork (some 7)),.execv (some 3),.keycheck (.inotify_add_watch true),
    .keycheck (.readdir "event0" (.opens 4 0 true))]

def key_read : List Action :=
  [.init (.time 100),.init (.done true),.keycheck .closedir,.keycheck (.poll [0,1]),
    .init (.time 101),.keycheck (.read true 115),.exit]

def pressed : List Action := calls 29 ++ keycheck_starts ++ calls 4 ++ key_read ++ calls 21

theorem pressed_boots : (run step (start 1 none) pressed).map
    (fun s => (s.init.stage,s.board.ran,s.codes)) = some (.replaced,[recovery_argv],[115]) := by
  decide +kernel

theorem recovery_asked_pressed : ∃ s,run step (start 1 none) pressed = some s ∧
    recovery_argv ∈ s.board.ran ∧ Pressed s.codes := by
  obtain ⟨s,reached,ends⟩ := Option.map_eq_some_iff.mp pressed_boots
  obtain ⟨-,unpacked,-⟩ := Prod.mk.inj ends |>.imp id Prod.mk.inj
  have here : recovery_argv ∈ s.board.ran := by
    rw [unpacked]
    exact List.mem_cons_self
  refine ⟨s,reached,here,((recovery_asked reached).1 here).resolve_right ?_⟩
  decide

theorem boot_settles_pressed : ∃ s,run step (start 1 none) pressed = some s ∧ Left true none s.board := by
  obtain ⟨s,reached,ends⟩ := Option.map_eq_some_iff.mp pressed_boots
  obtain ⟨replaced,unpacked,-⟩ := Prod.mk.inj ends |>.imp id Prod.mk.inj
  have smoothly : Obeys step Smooth (start 1 none) pressed := smooth_obeys (by decide)
  obtain ⟨recoveryBoot,left,-,-⟩ := boot_settles smoothly reached (.inr replaced)
  cases recoveryBoot with
  | true => exact ⟨s,reached,left⟩
  | false =>
    have android := left.ran
    rw [unpacked] at android
    exact absurd android (by decide)

-- The phone from one boot to the next: what is on the cache's partition, how many
-- requests there were that ask for the recovery, how many boots have unpacked it
-- without a volume key, and in how many the file could not be deleted.
structure Phone where
  warmboot : Option Bytes
  requests : Nat
  keyless : Nat
  undeleted : Nat
  deriving DecidableEq, Repr

inductive Event where
  | pre_recovery (args : Bytes)
  | postrecoveryboot
  | boot (argc : Nat) (actions : List Action)
  deriving DecidableEq, Repr

instance (codes : List UInt16) : Decidable (Pressed codes) :=
  inferInstanceAs (Decidable (_ ∨ _))

-- echo ends the line. A boot stops anywhere, where the power is lost.
def Phone.step (phone : Phone) : Event → Option Phone
  | .pre_recovery args =>
    let warmboot := some (args ++ [10])
    some {phone with
      warmboot := warmboot
      requests := phone.requests + if asked warmboot then 1 else 0}
  | .postrecoveryboot => some {phone with warmboot := none}
  | .boot argc actions => (run Boot.step (start argc phone.warmboot) actions).map fun s =>
    {phone with
      warmboot := s.board.warmboot
      keyless := phone.keyless + if recovery_argv ∈ s.board.ran ∧ ¬Pressed s.codes then 1 else 0
      undeleted := phone.undeleted + if s.board.undeleted then 1 else 0}

def pending (warmboot : Option Bytes) : Nat := if asked warmboot then 1 else 0

theorem phone_step {phone next : Phone} {event : Event} {bound : Nat}
    (counted : phone.keyless + pending phone.warmboot ≤ phone.requests + phone.undeleted + bound)
    (moved : phone.step event = some next) :
    next.keyless + pending next.warmboot ≤ next.requests + next.undeleted + bound := by
  cases event with
  | pre_recovery args =>
    cases Option.some.inj moved
    dsimp only [pending] at counted ⊢
    omega
  | postrecoveryboot =>
    cases Option.some.inj moved
    have nothing : pending none = 0 := rfl
    dsimp only
    omega
  | boot argc actions =>
    obtain ⟨s,ran,rfl⟩ := Option.map_eq_some_iff.mp moved
    have justified := run_justified ran
    have nothing : pending none = 0 := rfl
    have left : pending s.board.warmboot ≤ pending phone.warmboot := by
      cases justified.kept with
      | inl same => rw [same]
      | inr gone => rw [gone,nothing]; exact Nat.zero_le _
    dsimp only
    by_cases keyless : recovery_argv ∈ s.board.ran ∧ ¬Pressed s.codes
    · obtain ⟨wanted,unlinked⟩ := (justified.unpacked keyless.1).resolve_left keyless.2
      have one : pending phone.warmboot = 1 := if_pos wanted
      rw [if_pos keyless]
      cases unlinked with
      | inl gone =>
        rw [gone,nothing]
        omega
      | inr kept =>
        rw [if_pos kept]
        omega
    · rw [if_neg keyless]
      omega

-- Over any boots and requests, each request gives at most one boot into the
-- recovery that nobody has pressed a key for, and one more for each boot that could
-- not delete the file: main does not look whether it could.
theorem recoveries_requested {warmboot : Option Bytes} {events : List Event} {phone : Phone}
    (ran : run Phone.step ⟨warmboot,0,0,0⟩ events = some phone) :
    phone.keyless ≤ phone.requests + pending warmboot + phone.undeleted := by
  have counted := run_invariant
    (fun phone => phone.keyless + pending phone.warmboot ≤
      phone.requests + phone.undeleted + pending warmboot)
    (fun _ _ _ => phone_step) (by dsimp only; omega) ran
  omega

def requested : List Event :=
  [.pre_recovery (bytes "recovery"),.boot 1 (calls 49),.boot 1 ((calls 29).concat (.init (.fork none)))]

theorem recoveries_requested_once :
    run Phone.step ⟨none,0,0,0⟩ requested = some ⟨none,1,1,0⟩ ∧ 1 ≤ 1 + pending none + 0 := by
  have ran : run Phone.step ⟨none,0,0,0⟩ requested = some ⟨none,1,1,0⟩ := by decide +kernel
  exact ⟨ran,recoveries_requested ran⟩

end SemcMsm7x30.Boot

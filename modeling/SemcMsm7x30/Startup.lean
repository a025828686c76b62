import SemcMsm7x30.EventLoop

namespace SemcMsm7x30.Startup
open PartialMachine EventLoop

-- Where RIL_startEventLoop is: before the call, before the mutex, in
-- pthread_create, behind it with the id not stored yet, at the head of its loop, in
-- pthread_cond_wait, woken there, at done, and back. `created` is what
-- pthread_create answered.
inductive Caller where
  | outside
  | locking
  | creating
  | storing
  | testing
  | waiting
  | woken
  | unlocking (created : Bool)
  | returned (created : Bool)
  deriving DecidableEq

-- Where eventLoop is, named by what it has done last.
inductive Stage (E : Type) where
  | absent
  | created
  | initialised
  | locked
  | announced
  | unlocked
  | piped (fd : Int)
  | set
  | added
  | triggered
  | looping (loop : Loop E)
  | ended

inductive Party where
  | caller
  | eventLoop
  deriving DecidableEq

def Caller.holds : Caller → Prop
  | .creating | .storing | .testing | .unlocking _ => True
  | _ => False

def Caller.early : Caller → Prop
  | .outside | .locking | .creating | .unlocking false | .returned false => True
  | _ => False

def Caller.back : Caller → Prop
  | .unlocking true | .returned true => True
  | _ => False

section Stages
variable {E : Type}

def Stage.holds : Stage E → Prop
  | .locked | .announced => True
  | _ => False

def Stage.known : Stage E → Prop
  | .absent | .created | .initialised | .locked => False
  | _ => True

def Stage.ready : Stage E → Prop
  | .absent | .created => False
  | _ => True

def Stage.gathering : Stage E → Prop
  | .absent | .created | .looping _ => False
  | _ => True

def Stage.wired : Stage E → Prop
  | .piped _ | .set | .added | .triggered | .looping _ => True
  | _ => False

def Stage.place : Stage E → Loop E
  | .looping loop => loop
  | _ => .top

end Stages

-- `s_fdWakeupWrite` is false while the variable is still 0, and `stray` counts the
-- bytes that went to that descriptor. `own` counts the bytes the loop thread sent to
-- itself, and `calls` are the library calls made up to the loop.
structure State (E T : Type) where
  caller : Caller
  stage : Stage E
  s_startupMutex : Option Party
  s_started : Bool
  s_tid_dispatch : Bool
  s_fdWakeupWrite : Bool
  lib : Lists E
  pipe : Nat
  stray : Nat
  own : Nat
  adding : T → Option E
  calls : List (LibraryCall E)

def initial {E T : Type} (lib : Lists E) : State E T :=
  ⟨.outside,.absent,none,false,false,false,lib,0,0,0,fun _ => none,[]⟩

inductive Action (E T : Type) where
  | call
  | pthread_mutex_lock (party : Party)
  | pthread_mutex_unlock (party : Party)
  | pthread_create (succeeds : Bool)
  | stored
  | test
  | wake
  | ril_event_init
  | broadcast
  | makePipe (fd : Int)
  | pipeFails
  | ril_event_set
  | ril_event_add
  | ownTrigger
  | ril_event_loop
  | loop (action : EventLoop.Action E T)
  | thread (t : T) (op : LibraryCall E)
  | trigger (t : T)

section Machine
variable {E T : Type} [DecidableEq E] [DecidableEq T]

def State.view (s : State E T) : EventLoop.State E T := ⟨s.lib,s.stage.place,s.pipe,s.adding⟩

def ofLoop : EventLoop.Action E T → Bool
  | .thread _ _ | .trigger _ => false
  | _ => true

def lock (s : State E T) : Party → Option (State E T)
  | .caller =>
    match s.caller with
    | .locking => some {s with caller := .creating,s_startupMutex := some .caller}
    | .woken => some {s with caller := .testing,s_startupMutex := some .caller}
    | _ => none
  | .eventLoop =>
    match s.stage with
    | .initialised => some {s with stage := .locked,s_startupMutex := some .eventLoop}
    | _ => none

def unlock (s : State E T) : Party → Option (State E T)
  | .caller =>
    match s.caller with
    | .unlocking created => some {s with caller := .returned created,s_startupMutex := none}
    | _ => none
  | .eventLoop =>
    match s.stage with
    | .announced => some {s with stage := .unlocked,s_startupMutex := none}
    | _ => none

-- pthread_cond_wait lets the mutex go and may return for no reason. The id is
-- compared by triggerEvLoop.
def step (wakeup : E) (s : State E T) : Action E T → Option (State E T)
  | .call =>
    if s.caller = .outside then some {s with caller := .locking,s_started := false} else none
  | .pthread_mutex_lock party => if s.s_startupMutex = none then lock s party else none
  | .pthread_mutex_unlock party => unlock s party
  | .pthread_create succeeds =>
    if s.caller = .creating then
      if succeeds then some {s with caller := .storing,stage := .created}
      else some {s with caller := .unlocking false}
    else none
  | .stored =>
    if s.caller = .storing then some {s with caller := .testing,s_tid_dispatch := true} else none
  | .test =>
    if s.caller = .testing then
      if s.s_started then some {s with caller := .unlocking true}
      else some {s with caller := .waiting,s_startupMutex := none}
    else none
  | .wake => if s.caller = .waiting then some {s with caller := .woken} else none
  | .ril_event_init =>
    match s.stage with
    | .created => some {s with stage := .initialised,lib := Lists.empty s.lib.table []}
    | _ => none
  | .broadcast =>
    match s.stage with
    | .locked =>
      some {s with
        stage := .announced
        s_started := true
        caller := if s.caller = .waiting then .woken else s.caller}
    | _ => none
  | .makePipe fd =>
    match s.stage with
    | .unlocked => some {s with stage := .piped fd,s_fdWakeupWrite := true}
    | _ => none
  | .pipeFails =>
    match s.stage with
    | .unlocked => some {s with stage := .ended}
    | _ => none
  | .ril_event_set =>
    match s.stage with
    | .piped fd =>
      some {s with
        stage := .set
        lib := s.lib.call (.eventSet wakeup fd true)
        calls := s.calls ++ [.eventSet wakeup fd true]}
    | _ => none
  | .ril_event_add =>
    match s.stage with
    | .set =>
      some {s with
        stage := .added
        lib := s.lib.call (.eventAdd wakeup)
        calls := s.calls ++ [.eventAdd wakeup]}
    | _ => none
  | .ownTrigger =>
    match s.stage with
    | .added =>
      if s.s_tid_dispatch then some {s with stage := .triggered}
      else some {s with stage := .triggered,pipe := s.pipe+1,own := s.own+1}
    | _ => none
  | .ril_event_loop =>
    match s.stage with
    | .triggered => some {s with stage := .looping .top}
    | _ => none
  | .loop action =>
    match s.stage with
    | .looping _ =>
      if ofLoop action then
        (EventLoop.step wakeup s.view action).map fun next =>
          {s with stage := .looping next.loop,lib := next.lib,pipe := next.pipe}
      else none
    | _ => none
  | .thread t op =>
    match s.caller with
    | .returned _ =>
      if s.adding t = none ∧ clockRead op then
        some {s with
          lib := s.lib.call op
          adding := Function.update s.adding t (announced op)
          calls := s.calls ++ [op]}
      else none
    | _ => none
  | .trigger t =>
    match s.adding t with
    | some _ =>
      let s := {s with adding := Function.update s.adding t none}
      if s.s_fdWakeupWrite then some {s with pipe := s.pipe+1} else some {s with stray := s.stray+1}
    | none => none

end Machine

section Property
variable {E T : Type} [DecidableEq E] [DecidableEq T]

-- The library is called as the loop needs it, and the wakeup event and the
-- descriptor of the new pipe are the loop's own.
def Condition (wakeup : E) (s : State E T) : Action E T → Prop
  | .thread _ op => Proper s.lib op
  | .loop action => CallsProper s.view action
  | .ril_event_set => s.lib.Free wakeup
  | .ril_event_add => Proper s.lib (.eventAdd wakeup)
  | _ => True

structure Handshake (s : State E T) : Prop where
  caller : s.s_startupMutex = some .caller ↔ s.caller.holds
  eventLoop : s.s_startupMutex = some .eventLoop ↔ s.stage.holds
  early : s.stage = .absent ↔ s.caller.early
  storing : s.caller = .storing → ¬s.stage.holds ∧ ¬s.stage.known
  stored : ¬s.caller.early → s.caller = .storing ∨ s.s_tid_dispatch = true
  started : s.s_started = true ↔ s.stage.known
  waiting : s.caller = .waiting → s.s_started = false
  back : s.caller.back → s.s_started = true

-- What the lists hold when the loop begins is what the calls put there, none before
-- they were initialised. No wakeup is lost, the caller does not sleep through the
-- signal, and the loop thread never writes to its own pipe.
structure Started (s : State E T) : Prop where
  collected : s.stage.gathering → ∃ table, s.lib = s.calls.foldl Lists.call (Lists.empty table [])
  initialised : s.caller = .returned true → s.stage.ready
  nothingLost : NoLostWakeup s.view
  signalled : s.caller = .waiting → s.s_started = false
  silent : s.own = 0

structure Serving (s : State E T) : Prop where
  sound : s.stage.ready → Sound s.view
  collected : s.stage.gathering → ∃ table, s.lib = s.calls.foldl Lists.call (Lists.empty table [])
  uncalled : s.calls = [] ∨ s.stage.known ∨ s.caller = .returned false
  wired : s.stage.wired → s.s_fdWakeupWrite = true
  silent : s.own = 0

end Property

section Handshaking
variable {E T : Type} {s next : State E T}

theorem initial_handshake (lib : Lists E) : Handshake (initial lib : State E T) := by
  constructor <;> simp [initial,Caller.holds,Stage.holds,Caller.early,Stage.known,Caller.back]

theorem Handshake.onwards (kept : Handshake s) (caller : next.caller = s.caller)
    (mutex : next.s_startupMutex = s.s_startupMutex) (started : next.s_started = s.s_started)
    (tid : next.s_tid_dispatch = s.s_tid_dispatch) (before : s.stage.known)
    (after : next.stage.known) (free : s.stage.holds ↔ next.stage.holds) : Handshake next := by
  have present : s.stage ≠ .absent := by
    intro absent
    rw [absent] at before
    exact before
  have still : next.stage ≠ .absent := by
    intro absent
    rw [absent] at after
    exact after
  refine ⟨?_,?_,?_,?_,?_,?_,?_,?_⟩
  · rw [mutex,caller]
    exact kept.caller
  · rw [mutex,kept.eventLoop]
    exact free
  · rw [caller]
    exact ⟨fun absent => absurd absent still,fun early => absurd (kept.early.mpr early) present⟩
  · intro storing
    rw [caller] at storing
    exact absurd before (kept.storing storing).2
  · rw [caller,tid]
    exact kept.stored
  · rw [started,kept.started]
    exact ⟨fun _ => after,fun _ => before⟩
  · rw [caller,started]
    exact kept.waiting
  · rw [caller,started]
    exact kept.back

theorem Handshake.same (kept : Handshake s) (caller : next.caller = s.caller)
    (stage : next.stage = s.stage) (mutex : next.s_startupMutex = s.s_startupMutex)
    (started : next.s_started = s.s_started) (tid : next.s_tid_dispatch = s.s_tid_dispatch) :
    Handshake next := by
  refine ⟨?_,?_,?_,?_,?_,?_,?_,?_⟩ <;> simp only [caller,stage,mutex,started,tid]
  · exact kept.caller
  · exact kept.eventLoop
  · exact kept.early
  · exact kept.storing
  · exact kept.stored
  · exact kept.started
  · exact kept.waiting
  · exact kept.back

theorem lock_handshake {party : Party} (kept : Handshake s) (free : s.s_startupMutex = none)
    (moved : lock s party = some next) : Handshake next := by
  have idle : ¬s.caller.holds := by
    rw [←kept.caller,free]
    simp
  have unheld : ¬s.stage.holds := by
    rw [←kept.eventLoop,free]
    simp
  cases party with
  | caller =>
    simp only [lock] at moved
    split at moved
    · rename_i place
      cases moved
      have absent := kept.early.mpr (by rw [place]; trivial)
      have quiet := kept.started
      rw [absent] at quiet
      constructor <;> simp [absent,Caller.holds,Stage.holds,Caller.early,Caller.back,quiet]
    · rename_i place
      cases moved
      have present := kept.early
      have stored := kept.stored
      have started := kept.started
      rw [place] at present stored
      simp only [Caller.early,iff_false,not_false_eq_true,true_implies,reduceCtorEq,false_or]
        at present stored
      constructor <;>
        simp [present,stored,started,unheld,Caller.holds,Caller.early,Caller.back]
    · cases moved
  | eventLoop =>
    simp only [lock] at moved
    split at moved
    · rename_i place
      cases moved
      have present := kept.early
      have started := kept.started
      rw [place] at present started
      simp only [reduceCtorEq,false_iff,Stage.known,iff_false,Bool.not_eq_true] at present started
      have notStoring : s.caller ≠ .storing := by
        intro storing
        rw [storing] at idle
        exact idle trivial
      refine ⟨?_,?_,?_,?_,kept.stored,?_,kept.waiting,kept.back⟩
      · simp [idle]
      · simp [Stage.holds]
      · simp [present]
      · exact fun storing => absurd storing notStoring
      · simp [started,Stage.known]
    · cases moved

theorem unlock_handshake {party : Party} (kept : Handshake s)
    (moved : unlock s party = some next) : Handshake next := by
  cases party with
  | caller =>
    simp only [unlock] at moved
    split at moved
    · rename_i created place
      cases moved
      have held := kept.caller.mpr (by rw [place]; trivial)
      have unheld : ¬s.stage.holds := by
        rw [←kept.eventLoop,held]
        simp
      have present := kept.early
      have stored := kept.stored
      have started := kept.started
      have back := kept.back
      rw [place] at present stored back
      cases created <;> simp only [Caller.early,Caller.back] at present stored back <;>
        constructor <;>
        simp_all [Caller.holds,Caller.early,Caller.back]
    · cases moved
  | eventLoop =>
    simp only [unlock] at moved
    split at moved
    · rename_i place
      cases moved
      have held := kept.eventLoop.mpr (by rw [place]; trivial)
      have idle : ¬s.caller.holds := by
        rw [←kept.caller,held]
        simp
      have present := kept.early
      have started := kept.started
      rw [place] at present started
      refine ⟨by simp [idle],by simp [Stage.holds],?_,?_,kept.stored,?_,kept.waiting,kept.back⟩
      · simpa using present
      · intro storing
        rw [storing] at idle
        exact absurd trivial idle
      · simpa [Stage.known] using started
    · cases moved

variable [DecidableEq E] [DecidableEq T]

theorem call_handshake {wakeup : E} (kept : Handshake s)
    (moved : step wakeup s .call = some next) : Handshake next := by
  simp only [step] at moved
  split at moved
  · rename_i place
    cases moved
    have absent := kept.early.mpr (by rw [place]; trivial)
    have free := kept.caller
    rw [place] at free
    have unheld := kept.eventLoop
    rw [absent] at unheld
    constructor <;> simp_all [Caller.holds,Stage.holds,Caller.early,Caller.back,Stage.known]
  · cases moved

theorem create_handshake {wakeup : E} {succeeds : Bool} (kept : Handshake s)
    (moved : step wakeup s (.pthread_create succeeds) = some next) : Handshake next := by
  simp only [step] at moved
  split at moved
  · rename_i place
    have absent := kept.early.mpr (by rw [place]; trivial)
    have held := kept.caller.mpr (by rw [place]; trivial)
    have quiet := kept.started
    rw [absent] at quiet
    split at moved <;> cases moved <;> constructor <;>
      simp_all [Caller.holds,Stage.holds,Caller.early,Caller.back,Stage.known]
  · cases moved

theorem stored_handshake {wakeup : E} (kept : Handshake s)
    (moved : step wakeup s .stored = some next) : Handshake next := by
  simp only [step] at moved
  split at moved
  · rename_i place
    cases moved
    have held := kept.caller.mpr (by rw [place]; trivial)
    have present := kept.early
    have behind := kept.storing place
    have started := kept.started
    rw [place] at present
    constructor <;> simp_all [Caller.holds,Caller.early,Caller.back]
  · cases moved

theorem test_handshake {wakeup : E} (kept : Handshake s)
    (moved : step wakeup s .test = some next) : Handshake next := by
  simp only [step] at moved
  split at moved
  · rename_i place
    have held := kept.caller.mpr (by rw [place]; trivial)
    have unheld : ¬s.stage.holds := by
      rw [←kept.eventLoop,held]
      simp
    have present := kept.early
    have stored := kept.stored
    have started := kept.started
    rw [place] at present stored
    split at moved <;> cases moved <;> constructor <;>
      simp_all [Caller.holds,Caller.early,Caller.back]
  · cases moved

theorem wake_handshake {wakeup : E} (kept : Handshake s)
    (moved : step wakeup s .wake = some next) : Handshake next := by
  simp only [step] at moved
  split at moved
  · rename_i place
    cases moved
    have free := kept.caller
    have unheld := kept.eventLoop
    have present := kept.early
    have stored := kept.stored
    have started := kept.started
    rw [place] at present stored free
    constructor <;> simp_all [Caller.holds,Caller.early,Caller.back]
  · cases moved

theorem broadcast_handshake {wakeup : E} (kept : Handshake s)
    (moved : step wakeup s .broadcast = some next) : Handshake next := by
  simp only [step] at moved
  split at moved
  · rename_i place
    cases moved
    have held := kept.eventLoop.mpr (by rw [place]; trivial)
    have idle : ¬s.caller.holds := by
      rw [←kept.caller,held]
      simp
    have present := kept.early
    have stored := kept.stored
    rw [place] at present
    constructor <;> cases caller : s.caller <;>
      simp_all [Caller.holds,Caller.early,Caller.back,Stage.holds,Stage.known]
  · cases moved

theorem init_handshake {wakeup : E} (kept : Handshake s)
    (moved : step wakeup s .ril_event_init = some next) : Handshake next := by
  simp only [step] at moved
  split at moved
  · rename_i place
    cases moved
    have unheld := kept.eventLoop
    have present := kept.early
    have started := kept.started
    rw [place] at unheld present started
    refine ⟨kept.caller,?_,?_,?_,kept.stored,?_,kept.waiting,kept.back⟩
    · simpa [Stage.holds] using unheld
    · simpa using present
    · exact fun _ => ⟨id,id⟩
    · simpa [Stage.known] using started
  · cases moved

theorem step_handshake {wakeup : E} {action : Action E T} (kept : Handshake s)
    (moved : step wakeup s action = some next) : Handshake next := by
  cases action with
  | pthread_mutex_lock party =>
    simp only [step] at moved
    split at moved
    · rename_i free
      exact lock_handshake kept free moved
    · cases moved
  | pthread_mutex_unlock party => exact unlock_handshake kept moved
  | call => exact call_handshake kept moved
  | pthread_create succeeds => exact create_handshake kept moved
  | stored => exact stored_handshake kept moved
  | test => exact test_handshake kept moved
  | wake => exact wake_handshake kept moved
  | broadcast => exact broadcast_handshake kept moved
  | ril_event_init => exact init_handshake kept moved
  | makePipe fd | pipeFails | ril_event_set | ril_event_add | ril_event_loop =>
    simp only [step] at moved
    split at moved
    · rename_i place
      cases moved
      refine kept.onwards rfl rfl rfl rfl ?_ trivial ?_ <;> rw [place]
      · trivial
      · exact ⟨fun held => held,fun held => held⟩
    · cases moved
  | ownTrigger =>
    simp only [step] at moved
    split at moved
    · rename_i place
      split at moved <;> cases moved
      all_goals
        refine kept.onwards rfl rfl rfl rfl ?_ trivial ?_ <;> rw [place]
        · trivial
        · exact ⟨fun held => held,fun held => held⟩
    · cases moved
  | loop action =>
    simp only [step] at moved
    split at moved
    · rename_i loop place
      split at moved
      · obtain ⟨later,_,rfl⟩ := Option.map_eq_some_iff.mp moved
        refine kept.onwards rfl rfl rfl rfl ?_ trivial ?_ <;> rw [place]
        · trivial
        · exact ⟨fun held => held,fun held => held⟩
      · cases moved
    · cases moved
  | thread t op =>
    simp only [step] at moved
    split at moved
    · split at moved
      · cases moved
        exact kept.same rfl rfl rfl rfl rfl
      · cases moved
    · cases moved
  | trigger t =>
    simp only [step] at moved
    split at moved
    · split at moved <;> cases moved <;> exact kept.same rfl rfl rfl rfl rfl
    · cases moved

end Handshaking

section Services
variable {E T : Type} {s next : State E T}

theorem known_ready {stage : Stage E} (known : stage.known) : stage.ready := by
  cases stage <;> trivial

theorem empty_sound (table : Table E) (pipe : Nat) (adding : T → Option E) :
    Sound ⟨Lists.empty table [],.top,pipe,adding⟩ := by
  refine ⟨empty_valid table [],?_,?_,rfl⟩
  · constructor <;> simp [Lists.empty,Table.Single,Table.Indexed,Table.Distinct,Table.Watched]
  · intro ev listed
    cases listed

variable [DecidableEq E]

theorem own_call_sound {lib : Lists E} {pipe : Nat} {adding : T → Option E} (op : LibraryCall E)
    (sound : Sound (⟨lib,.top,pipe,adding⟩ : EventLoop.State E T)) (proper : Proper lib op)
    (clock : clockRead op) : Sound (⟨lib.call op,.top,pipe,adding⟩ : EventLoop.State E T) := by
  have allowed := proper_allowed proper
  exact ⟨call_valid sound.valid allowed,call_consistent sound.table proper,
    call_normal proper clock sound.normal,(call_listed allowed).1.trans sound.place⟩

theorem collected_call {calls : List (LibraryCall E)} {lib : Lists E} (op : LibraryCall E)
    (collected : ∃ table, lib = calls.foldl Lists.call (Lists.empty table [])) :
    ∃ table, lib.call op = (calls ++ [op]).foldl Lists.call (Lists.empty table []) := by
  obtain ⟨table,rfl⟩ := collected
  exact ⟨table,by rw [List.foldl_append]; rfl⟩

theorem Serving.onwards (kept : Serving s) (lib : next.lib = s.lib) (calls : next.calls = s.calls)
    (own : next.own = s.own) (sound : next.stage.ready → Sound next.view)
    (after : next.stage.known) (gathering : next.stage.gathering → s.stage.gathering)
    (wired : next.stage.wired → next.s_fdWakeupWrite = true) : Serving next := by
  refine ⟨sound,?_,.inr (.inl after),wired,own.trans kept.silent⟩
  intro gathers
  rw [lib,calls]
  exact kept.collected (gathering gathers)

theorem Serving.aside (kept : Serving s) (lib : next.lib = s.lib) (calls : next.calls = s.calls)
    (own : next.own = s.own) (stage : next.stage = s.stage) (pipe : next.pipe = s.pipe)
    (adding : next.adding = s.adding) (write : next.s_fdWakeupWrite = s.s_fdWakeupWrite)
    (caller : s.caller ≠ .returned false) : Serving next := by
  refine ⟨?_,?_,?_,?_,own.trans kept.silent⟩
  · intro ready
    rw [stage] at ready
    have sound := kept.sound ready
    unfold State.view at sound ⊢
    rw [lib,stage,pipe,adding]
    exact sound
  · rw [stage,lib,calls]
    exact kept.collected
  · rw [calls,stage]
    rcases kept.uncalled with none | known | failed
    · exact .inl none
    · exact .inr (.inl known)
    · exact absurd failed caller
  · rw [stage,write]
    exact kept.wired

theorem lock_serving {party : Party} (kept : Serving s) (moved : lock s party = some next) :
    Serving next := by
  cases party with
  | caller =>
    simp only [lock] at moved
    split at moved
    · rename_i place
      cases moved
      exact kept.aside rfl rfl rfl rfl rfl rfl rfl (by simp [place])
    · rename_i place
      cases moved
      exact kept.aside rfl rfl rfl rfl rfl rfl rfl (by simp [place])
    · cases moved
  | eventLoop =>
    simp only [lock] at moved
    split at moved
    · rename_i place
      cases moved
      have sound := kept.sound (by rw [place]; trivial)
      have collected := kept.collected (by rw [place]; trivial)
      have uncalled := kept.uncalled
      rw [State.view,place] at sound
      rw [place] at uncalled
      refine ⟨fun _ => sound,fun _ => collected,?_,fun wired => absurd wired id,kept.silent⟩
      rcases uncalled with none | known | failed
      · exact .inl none
      · exact absurd known id
      · exact .inr (.inr failed)
    · cases moved

theorem unlock_serving {party : Party} (kept : Serving s) (moved : unlock s party = some next) :
    Serving next := by
  cases party with
  | caller =>
    simp only [unlock] at moved
    split at moved
    · rename_i created place
      cases moved
      exact kept.aside rfl rfl rfl rfl rfl rfl rfl (by simp [place])
    · cases moved
  | eventLoop =>
    simp only [unlock] at moved
    split at moved
    · rename_i place
      cases moved
      have sound := kept.sound (by rw [place]; trivial)
      rw [State.view,place] at sound
      refine kept.onwards rfl rfl rfl (fun _ => sound) trivial ?_ (fun wired => absurd wired id)
      rw [place]
      exact fun _ => trivial
    · cases moved

theorem initial_serving (lib : Lists E) : Serving (initial lib : State E T) :=
  ⟨fun ready => absurd ready id,fun gathers => absurd gathers id,.inl rfl,
    fun wired => absurd wired id,rfl⟩

theorem Serving.started (kept : Serving s) (agreed : Handshake s) : Started s := by
  refine ⟨kept.collected,?_,?_,agreed.waiting,kept.silent⟩
  · intro returned
    exact known_ready (agreed.started.mp (agreed.back (by rw [returned]; trivial)))
  · intro rfds clock tv blocked
    have looping : s.stage = .looping (.blocked rfds clock tv) := by
      unfold State.view at blocked
      cases place : s.stage with
      | looping loop =>
        rw [place] at blocked
        exact congrArg Stage.looping blocked
      | _ =>
        rw [place] at blocked
        cases blocked
    have place := (kept.sound (by rw [looping]; trivial)).place
    rw [blocked] at place
    exact place.2

variable [DecidableEq T]

theorem loop_adding {wakeup : E} {action : EventLoop.Action E T} {s next : EventLoop.State E T}
    (own : ofLoop action = true) (moved : EventLoop.step wakeup s action = some next) :
    next.adding = s.adding := by
  cases action with
  | thread t op | trigger t => cases own
  | callback op | readPipe | finish =>
    simp only [EventLoop.step] at moved
    split at moved
    · split at moved <;> cases moved
      rfl
    · cases moved
  | _ =>
    simp only [EventLoop.step] at moved
    split at moved <;> cases moved
    rfl

theorem create_serving {wakeup : E} {succeeds : Bool} (agreed : Handshake s) (kept : Serving s)
    (moved : step wakeup s (.pthread_create succeeds) = some next) : Serving next := by
  simp only [step] at moved
  split at moved
  · rename_i place
    split at moved
    · cases moved
      have absent := agreed.early.mpr (by rw [place]; trivial)
      have uncalled := kept.uncalled
      rw [absent,place] at uncalled
      refine ⟨fun ready => absurd ready id,fun gathers => absurd gathers id,?_,
        fun wired => absurd wired id,kept.silent⟩
      rcases uncalled with none | known | failed
      · exact .inl none
      · exact absurd known id
      · cases failed
    · cases moved
      exact kept.aside rfl rfl rfl rfl rfl rfl rfl (by simp [place])
  · cases moved

theorem init_serving {wakeup : E} (agreed : Handshake s) (kept : Serving s)
    (moved : step wakeup s .ril_event_init = some next) : Serving next := by
  simp only [step] at moved
  split at moved
  · rename_i place
    cases moved
    have none : s.calls = [] := by
      rcases kept.uncalled with none | known | failed
      · exact none
      · rw [place] at known
        exact absurd known id
      · have absent := agreed.early.mpr (by rw [failed]; trivial)
        cases place.symm.trans absent
    refine ⟨fun _ => empty_sound s.lib.table s.pipe s.adding,fun _ => ⟨s.lib.table,?_⟩,
      .inl none,fun wired => absurd wired id,kept.silent⟩
    rw [none]
    rfl
  · cases moved

theorem set_serving {wakeup : E} (kept : Serving s) (condition : Condition wakeup s .ril_event_set)
    (moved : step wakeup s .ril_event_set = some next) : Serving next := by
  simp only [step] at moved
  split at moved
  · rename_i fd place
    cases moved
    have sound := kept.sound (by rw [place]; trivial)
    have collected := kept.collected (by rw [place]; trivial)
    rw [State.view,place] at sound
    exact ⟨fun _ => own_call_sound (.eventSet wakeup fd true) sound condition trivial,
      fun _ => collected_call (.eventSet wakeup fd true) collected,.inr (.inl trivial),
      fun _ => kept.wired (by rw [place]; trivial),kept.silent⟩
  · cases moved

theorem add_serving {wakeup : E} (kept : Serving s) (condition : Condition wakeup s .ril_event_add)
    (moved : step wakeup s .ril_event_add = some next) : Serving next := by
  simp only [step] at moved
  split at moved
  · rename_i place
    cases moved
    have sound := kept.sound (by rw [place]; trivial)
    have collected := kept.collected (by rw [place]; trivial)
    rw [State.view,place] at sound
    exact ⟨fun _ => own_call_sound (.eventAdd wakeup) sound condition trivial,
      fun _ => collected_call (.eventAdd wakeup) collected,.inr (.inl trivial),
      fun _ => kept.wired (by rw [place]; trivial),kept.silent⟩
  · cases moved

theorem ownTrigger_serving {wakeup : E} (agreed : Handshake s) (kept : Serving s)
    (moved : step wakeup s .ownTrigger = some next) : Serving next := by
  simp only [step] at moved
  split at moved
  · rename_i place
    have late : ¬s.caller.early := by
      rw [←agreed.early,place]
      simp
    have stored : s.s_tid_dispatch = true := by
      rcases agreed.stored late with storing | stored
      · have behind := (agreed.storing storing).2
        rw [place] at behind
        exact absurd trivial behind
      · exact stored
    rw [if_pos stored] at moved
    cases moved
    have sound := kept.sound (by rw [place]; trivial)
    rw [State.view,place] at sound
    refine kept.onwards rfl rfl rfl (fun _ => sound) trivial ?_ ?_
    · rw [place]
      exact fun _ => trivial
    · exact fun _ => kept.wired (by rw [place]; trivial)
  · cases moved

theorem loop_serving {wakeup : E} {action : EventLoop.Action E T} (kept : Serving s)
    (condition : Condition wakeup s (.loop action)) (moved : step wakeup s (.loop action) = some next) :
    Serving next := by
  simp only [step] at moved
  split at moved
  · rename_i loop place
    split at moved
    · rename_i own
      obtain ⟨later,inner,rfl⟩ := Option.map_eq_some_iff.mp moved
      have sound := step_sound (kept.sound (by rw [place]; trivial)) condition inner
      refine ⟨fun _ => ?_,fun gathers => absurd gathers id,.inr (.inl trivial),
        fun _ => kept.wired (by rw [place]; trivial),kept.silent⟩
      have adding : later.adding = s.adding := loop_adding own inner
      show Sound ⟨later.lib,later.loop,later.pipe,s.adding⟩
      rw [←adding]
      exact sound
    · cases moved
  · cases moved

theorem thread_serving {wakeup : E} {t : T} {op : LibraryCall E} (agreed : Handshake s)
    (kept : Serving s) (condition : Condition wakeup s (.thread t op))
    (moved : step wakeup s (.thread t op) = some next) : Serving next := by
  simp only [step] at moved
  split at moved
  · rename_i created place
    split at moved
    · rename_i guard
      cases moved
      refine ⟨?_,?_,?_,kept.wired,kept.silent⟩
      · exact fun ready => thread_sound (kept.sound ready) condition guard.1 guard.2
      · exact fun gathers => collected_call op (kept.collected gathers)
      · cases created with
        | true => exact .inr (.inl (agreed.started.mp (agreed.back (by rw [place]; trivial))))
        | false => exact .inr (.inr place)
    · cases moved
  · cases moved

theorem trigger_serving {wakeup : E} {t : T} (kept : Serving s)
    (moved : step wakeup s (.trigger t) = some next) : Serving next := by
  simp only [step] at moved
  split at moved
  · split at moved
    · cases moved
      exact ⟨fun ready => trigger_sound t (kept.sound ready),kept.collected,kept.uncalled,
        kept.wired,kept.silent⟩
    · rename_i unwired
      cases moved
      refine ⟨fun ready => ?_,kept.collected,kept.uncalled,kept.wired,kept.silent⟩
      have top : s.stage.place = .top := by
        cases place : s.stage with
        | looping loop => exact absurd (kept.wired (by rw [place]; trivial)) unwired
        | _ => rfl
      have sound := kept.sound ready
      unfold State.view at sound ⊢
      rw [top] at sound
      show Sound ⟨s.lib,s.stage.place,s.pipe,_⟩
      rw [top]
      exact ⟨sound.valid,sound.table,sound.normal,sound.place⟩
  · cases moved

theorem step_serving {wakeup : E} {action : Action E T} (agreed : Handshake s) (kept : Serving s)
    (condition : Condition wakeup s action) (moved : step wakeup s action = some next) :
    Serving next := by
  cases action with
  | pthread_mutex_lock party =>
    simp only [step] at moved
    split at moved
    · exact lock_serving kept moved
    · cases moved
  | pthread_mutex_unlock party => exact unlock_serving kept moved
  | call | stored | wake =>
    simp only [step] at moved
    split at moved
    · rename_i place
      cases moved
      exact kept.aside rfl rfl rfl rfl rfl rfl rfl (by simp [place])
    · cases moved
  | test =>
    simp only [step] at moved
    split at moved
    · rename_i place
      split at moved <;> cases moved <;> exact kept.aside rfl rfl rfl rfl rfl rfl rfl (by simp [place])
    · cases moved
  | pthread_create succeeds => exact create_serving agreed kept moved
  | ril_event_init => exact init_serving agreed kept moved
  | broadcast | makePipe fd | pipeFails =>
    simp only [step] at moved
    split at moved
    · rename_i place
      cases moved
      have sound := kept.sound (by rw [place]; trivial)
      rw [State.view,place] at sound
      refine kept.onwards rfl rfl rfl (fun _ => sound) trivial ?_ ?_
      · rw [place]
        exact fun _ => trivial
      · first | exact fun wired => absurd wired id | exact fun _ => rfl
    · cases moved
  | ril_event_loop =>
    simp only [step] at moved
    split at moved
    · rename_i place
      cases moved
      have sound := kept.sound (by rw [place]; trivial)
      rw [State.view,place] at sound
      refine kept.onwards rfl rfl rfl (fun _ => sound) trivial (fun gathers => absurd gathers id) ?_
      exact fun _ => kept.wired (by rw [place]; trivial)
    · cases moved
  | ril_event_set => exact set_serving kept condition moved
  | ril_event_add => exact add_serving kept condition moved
  | ownTrigger => exact ownTrigger_serving agreed kept moved
  | loop action => exact loop_serving kept condition moved
  | thread t op => exact thread_serving agreed kept condition moved
  | trigger t => exact trigger_serving kept moved

theorem startup_serves (wakeup : E) (lib : Lists E) (actions : List (Action E T)) (s : State E T)
    (condition : Obeys (step wakeup) (Condition wakeup) (initial lib) actions)
    (ran : run (step wakeup) (initial lib) actions = some s) : Started s := by
  have both : Handshake s ∧ Serving s := by
    refine obeys_invariant (fun s => Handshake s ∧ Serving s) ?_
      ⟨initial_handshake lib,initial_serving lib⟩ condition ran
    intro s action next kept meets moved
    exact ⟨step_handshake kept.1 moved,step_serving kept.1 kept.2 meets moved⟩
  exact both.2.started both.1

end Services

-- A thread adds its event, and writes to descriptor 0, before there is a pipe.
def hasty : List (Action (Fin 3) Unit) :=
  [.call,.pthread_mutex_lock .caller,.pthread_create true,.ril_event_init,.stored,.test,
    .pthread_mutex_lock .eventLoop,.broadcast,.pthread_mutex_unlock .eventLoop,
    .pthread_mutex_lock .caller,.test,.pthread_mutex_unlock .caller,
    .thread () (.eventSet ⟨1,by decide⟩ 7 false),.thread () (.eventAdd ⟨1,by decide⟩),
    .trigger (),.makePipe 5,
    .ril_event_set,.ril_event_add,.ownTrigger,.ril_event_loop,.loop .copyFds,
    .loop (.calcNextTimeout ⟨0,0⟩),.loop .select]

theorem startup_serves_hasty : ∃ s : State (Fin 3) Unit,
    run (step 0) (initial (Lists.empty blankTable [])) hasty = some s ∧
      s.stage.place = .blocked {5,7} ⟨0,0⟩ none ∧ s.stray = 1 ∧ s.pipe = 0 ∧ Started s := by
  refine ⟨_,rfl,rfl,rfl,rfl,startup_serves 0 (Lists.empty blankTable []) hasty _ ?_ rfl⟩
  refine obeys_step rfl trivial (obeys_step rfl trivial (obeys_step rfl trivial (obeys_step rfl trivial
    (obeys_step rfl trivial (obeys_step rfl trivial (obeys_step rfl trivial (obeys_step rfl trivial
    (obeys_step rfl trivial (obeys_step rfl trivial (obeys_step rfl trivial (obeys_step rfl trivial
    (obeys_step rfl ?_ (obeys_step rfl ?_ (obeys_step rfl trivial (obeys_step rfl trivial
    (obeys_step rfl ?_ (obeys_step rfl ?_ (obeys_step rfl trivial (obeys_step rfl trivial
    (obeys_step rfl trivial (obeys_step rfl trivial (obeys_step rfl trivial
    trivial))))))))))))))))))))))
  · exact ⟨⟨by decide,by decide⟩,by decide⟩
  · exact ⟨⟨⟨by decide,by decide⟩,by decide⟩,by decide⟩
  · exact ⟨⟨by decide,by decide⟩,by decide⟩
  · exact ⟨⟨⟨by decide,by decide⟩,by decide⟩,by decide⟩

end SemcMsm7x30.Startup

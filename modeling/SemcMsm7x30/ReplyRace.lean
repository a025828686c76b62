import SemcMsm7x30.PartialMachine
import SemcMsm7x30.RilTypes

namespace SemcMsm7x30.ReplyRace
open PartialMachine

-- `conn` is history: the connection the request was received on.
structure Request where
  number : Nat
  socket_id : SocketId
  conn : Nat
  deriving DecidableEq, Repr

structure Pending where
  request : Request
  cancelled : Bool
  deriving DecidableEq, Repr

-- A vendor thread inside RIL_onRequestComplete, after checkAndDequeueRequestInfo,
-- after the test of pRI->cancelled, and after sendResponseRaw has read fdCommand.
inductive Pc where
  | idle
  | dequeued (pending : Pending)
  | tested (request : Request)
  | haveFd (request : Request) (fd : Nat)
  deriving DecidableEq, Repr

inductive Loop where
  | idle
  | closed (socket : SocketId)
  | rearmed (socket : SocketId)
  deriving DecidableEq, Repr

-- `refersTo` is the kernel's descriptor table: the connection a descriptor
-- number stands for at the moment. `V` names the vendor threads.
structure State (V : Type) where
  fdCommand : SocketId → Option Nat
  refersTo : Nat → Option Nat
  listening : SocketId → Bool
  pendingRequests : SocketId → List Pending
  nextConn : Nat
  nextRequest : Nat
  loop : Loop
  pc : V → Pc
  written : List (Request × Nat)

def initial (V : Type) : State V :=
  ⟨fun _ => none,fun _ => none,fun _ => true,fun _ => [],0,0,.idle,fun _ => .idle,[]⟩

inductive Action (V : Type) where
  | receive (socket : SocketId)
  | close (socket : SocketId)
  | rearm
  | sweep
  | accept (socket : SocketId) (fd : Nat)
  | dequeue (v : V) (request : Request)
  | test (v : V)
  | readFd (v : V)
  | write (v : V)
  deriving DecidableEq, Repr

section Machine
variable {V : Type} [DecidableEq V]

def goto (s : State V) (v : V) (pc : Pc) : State V := {s with pc := Function.update s.pc v pc}

def receive (s : State V) (socket : SocketId) : Option (State V) :=
  match s.loop,s.fdCommand socket with
  | .idle,some fd =>
    match s.refersTo fd with
    | none => none
    | some conn =>
      some {s with
        nextRequest := s.nextRequest+1
        pendingRequests := Function.update s.pendingRequests socket
          (⟨⟨s.nextRequest,socket,conn⟩,false⟩ :: s.pendingRequests socket)}
  | _,_ => none

def closeConnection (s : State V) (socket : SocketId) : Option (State V) :=
  match s.loop,s.fdCommand socket with
  | .idle,some fd =>
    some {s with
      refersTo := Function.update s.refersTo fd none
      fdCommand := Function.update s.fdCommand socket none
      loop := .closed socket}
  | _,_ => none

def sweepPending (s : State V) (socket : SocketId) : State V :=
  {s with
    pendingRequests := Function.update s.pendingRequests socket
      ((s.pendingRequests socket).map fun p => {p with cancelled := true})
    loop := .idle}

-- The listen event is non-persistent: it leaves the watch table when it fires.
def acceptConnection (s : State V) (socket : SocketId) (fd : Nat) : State V :=
  {s with
    listening := Function.update s.listening socket false
    refersTo := Function.update s.refersTo fd (some s.nextConn)
    fdCommand := Function.update s.fdCommand socket (some fd)
    nextConn := s.nextConn+1}

def takePending (s : State V) (v : V) (pending : Pending) : State V :=
  let socket := pending.request.socket_id
  let rest := (s.pendingRequests socket).erase pending
  goto {s with pendingRequests := Function.update s.pendingRequests socket rest} v (.dequeued pending)

def step (s : State V) : Action V → Option (State V)
  | .receive socket => receive s socket
  | .close socket => closeConnection s socket
  | .rearm =>
    match s.loop with
    | .closed socket =>
      some {s with listening := Function.update s.listening .socket1 true,loop := .rearmed socket}
    | _ => none
  | .sweep =>
    match s.loop with
    | .rearmed socket => some (sweepPending s socket)
    | _ => none
  | .accept socket fd =>
    if s.loop = .idle ∧ s.listening socket ∧ s.refersTo fd = none then
      some (acceptConnection s socket fd)
    else none
  | .dequeue v request =>
    match s.pc v,(s.pendingRequests request.socket_id).find? (·.request = request) with
    | .idle,some pending => some (takePending s v pending)
    | _,_ => none
  | .test v =>
    match s.pc v with
    | .dequeued pending => some (goto s v (if pending.cancelled then .idle else .tested pending.request))
    | _ => none
  | .readFd v =>
    match s.pc v with
    | .tested request =>
      match s.fdCommand request.socket_id with
      | none => some (goto s v .idle)
      | some fd => some (goto s v (.haveFd request fd))
    | _ => none
  | .write v =>
    match s.pc v with
    | .haveFd request fd =>
      match s.refersTo fd with
      | none => some (goto s v .idle)
      | some conn => some (goto {s with written := s.written ++ [(request,conn)]} v .idle)
    | _ => none

end Machine

def NeverCrosses (s : State V) : Prop := ∀ sent ∈ s.written, sent.2 = sent.1.conn

-- No completion is caught by the new connection: none of the socket's requests
-- is on its way, uncancelled, to reading fdCommand, and no thread that has read
-- the number the new connection gets is still to write.
def Clear (socket : SocketId) (fd : Nat) : Pc → Prop
  | .idle => True
  | .dequeued pending => pending.cancelled = true ∨ pending.request.socket_id ≠ socket
  | .tested request => request.socket_id ≠ socket
  | .haveFd _ old => old ≠ fd

def AcceptsClear (s : State V) : Action V → Prop
  | .accept socket fd =>
    (∀ p ∈ s.pendingRequests socket, p.cancelled = true) ∧ ∀ v, Clear socket fd (s.pc v)
  | _ => True

def Home (s : State V) (request : Request) : Prop :=
  ∀ fd, s.fdCommand request.socket_id = some fd → s.refersTo fd = some request.conn

def PcOk (s : State V) : Pc → Prop
  | .idle => True
  | .dequeued pending => pending.request.conn < s.nextConn ∧
      (pending.cancelled = false → Home s pending.request)
  | .tested request => request.conn < s.nextConn ∧ Home s request
  | .haveFd request fd => request.conn < s.nextConn ∧
      ∀ conn, s.refersTo fd = some conn → conn = request.conn

structure Valid (s : State V) : Prop where
  live : ∀ socket fd, s.fdCommand socket = some fd → (s.refersTo fd).isSome
  distinct : ∀ i j fd, s.fdCommand i = some fd → s.fdCommand j = some fd → i = j
  known : ∀ fd conn, s.refersTo fd = some conn → conn < s.nextConn
  queued : ∀ socket, ∀ p ∈ s.pendingRequests socket, p.request.socket_id = socket ∧
    p.request.conn < s.nextConn ∧ (p.cancelled = false → Home s p.request)
  swept : ∀ socket, s.fdCommand socket = none → s.loop ≠ .closed socket →
    s.loop ≠ .rearmed socket → ∀ p ∈ s.pendingRequests socket, p.cancelled = true
  threads : ∀ v, PcOk s (s.pc v)
  home : NeverCrosses s

theorem initial_valid : Valid (initial V) := by
  constructor <;> simp [initial,PcOk,NeverCrosses]

section Sockets
variable {V : Type} {s next : State V}

theorem receive_valid {socket : SocketId} (valid : Valid s) (moved : receive s socket = some next) :
    Valid next := by
  cases position : s.loop with
  | closed _ | rearmed _ => simp [receive,position] at moved
  | idle =>
    cases connected : s.fdCommand socket with
    | none => simp [receive,position,connected] at moved
    | some fd =>
      cases refers : s.refersTo fd with
      | none => simp [receive,position,connected,refers] at moved
      | some conn =>
        simp only [receive,position,connected,refers,Option.some.injEq] at moved
        subst moved
        refine ⟨valid.live,valid.distinct,valid.known,?_,?_,valid.threads,valid.home⟩
        · intro other p present
          by_cases same : other = socket
          · subst same
            simp only [Function.update_self] at present
            rcases List.mem_cons.mp present with rfl | old
            · refine ⟨rfl,valid.known fd conn refers,fun _ fd' at_ => ?_⟩
              have equal : fd' = fd := Option.some.inj (at_.symm.trans connected)
              exact equal ▸ refers
            · exact valid.queued other p old
          · simp only [Function.update_of_ne same] at present
            exact valid.queued other p present
        · intro other unconnected _ _ p present
          have different : other ≠ socket := by
            rintro rfl
            simp [connected] at unconnected
          simp only [Function.update_of_ne different] at present
          exact valid.swept other unconnected (by simp [position]) (by simp [position]) p present

theorem home_after_close {socket : SocketId} {fd : Nat} {request : Request} (valid : Valid s)
    (connected : s.fdCommand socket = some fd) (home : Home s request) :
    Home {s with
      refersTo := Function.update s.refersTo fd none
      fdCommand := Function.update s.fdCommand socket none
      loop := .closed socket} request := by
  intro fd' at_
  by_cases same : request.socket_id = socket
  · simp [same] at at_
  · simp only [Function.update_of_ne same] at at_
    have different : fd' ≠ fd := by
      rintro rfl
      exact same (valid.distinct _ _ _ at_ connected)
    simpa [different] using home fd' at_

theorem close_valid {socket : SocketId} (valid : Valid s)
    (moved : closeConnection s socket = some next) : Valid next := by
  cases position : s.loop with
  | closed _ | rearmed _ => simp [closeConnection,position] at moved
  | idle =>
    cases connected : s.fdCommand socket with
    | none => simp [closeConnection,position,connected] at moved
    | some fd =>
      simp only [closeConnection,position,connected,Option.some.injEq] at moved
      subst moved
      refine ⟨?_,?_,?_,?_,?_,?_,valid.home⟩
      · intro other fd' at_
        by_cases same : other = socket
        · simp [same] at at_
        · simp only [Function.update_of_ne same] at at_
          have different : fd' ≠ fd := by
            rintro rfl
            exact same (valid.distinct _ _ _ at_ connected)
          simpa [different] using valid.live other fd' at_
      · intro i j fd' atI atJ
        by_cases sameI : i = socket
        · simp [sameI] at atI
        · by_cases sameJ : j = socket
          · simp [sameJ] at atJ
          · simp only [Function.update_of_ne sameI,Function.update_of_ne sameJ] at atI atJ
            exact valid.distinct i j fd' atI atJ
      · intro fd' conn refers
        by_cases same : fd' = fd
        · simp [same] at refers
        · simp only [Function.update_of_ne same] at refers
          exact valid.known fd' conn refers
      · intro other p present
        obtain ⟨owner,older,home⟩ := valid.queued other p present
        exact ⟨owner,older,fun live => home_after_close valid connected (home live)⟩
      · intro other unconnected notClosed _ p present
        have different : other ≠ socket := by rintro rfl; exact notClosed rfl
        simp only [Function.update_of_ne different] at unconnected
        exact valid.swept other unconnected (by simp [position]) (by simp [position]) p present
      · intro v
        have old := valid.threads v
        cases at_ : s.pc v with
        | idle => trivial
        | dequeued p =>
          rw [at_] at old
          exact ⟨old.1,fun live => home_after_close valid connected (old.2 live)⟩
        | tested request =>
          rw [at_] at old
          exact ⟨old.1,home_after_close valid connected old.2⟩
        | haveFd request fd' =>
          rw [at_] at old
          refine ⟨old.1,fun conn refers => ?_⟩
          by_cases same : fd' = fd
          · simp [same] at refers
          · simp only [Function.update_of_ne same] at refers
            exact old.2 conn refers

theorem rearm_valid {socket : SocketId} (valid : Valid s) (position : s.loop = .closed socket) :
    Valid {s with listening := Function.update s.listening .socket1 true,loop := .rearmed socket} := by
  refine ⟨valid.live,valid.distinct,valid.known,valid.queued,?_,valid.threads,valid.home⟩
  intro other unconnected _ notRearmed
  have different : other ≠ socket := by rintro rfl; exact notRearmed rfl
  exact valid.swept other unconnected (by simp [position,different.symm]) (by simp [position])

theorem sweep_valid {socket : SocketId} (valid : Valid s) (position : s.loop = .rearmed socket) :
    Valid (sweepPending s socket) := by
  refine ⟨valid.live,valid.distinct,valid.known,?_,?_,valid.threads,valid.home⟩
  · intro other p present
    by_cases same : other = socket
    · subst same
      simp only [sweepPending,Function.update_self,List.mem_map] at present
      obtain ⟨old,listed,rfl⟩ := present
      obtain ⟨owner,older,_⟩ := valid.queued other old listed
      exact ⟨owner,older,fun live => absurd live (by simp)⟩
    · simp only [sweepPending,Function.update_of_ne same] at present
      exact valid.queued other p present
  · intro other unconnected _ _ p present
    by_cases same : other = socket
    · subst same
      simp only [sweepPending,Function.update_self,List.mem_map] at present
      obtain ⟨old,_,rfl⟩ := present
      rfl
    · simp only [sweepPending,Function.update_of_ne same] at present
      exact valid.swept other unconnected (by simp [position]) (by simp [position,Ne.symm same]) p
        present

theorem home_after_accept {socket : SocketId} {fd : Nat} {request : Request} (valid : Valid s)
    (free : s.refersTo fd = none) (other : request.socket_id ≠ socket) (home : Home s request) :
    Home (acceptConnection s socket fd) request := by
  intro fd' at_
  simp only [acceptConnection,Function.update_of_ne other] at at_
  have different : fd' ≠ fd := by
    rintro rfl
    simpa [free] using valid.live _ _ at_
  simpa [acceptConnection,different] using home fd' at_

theorem accept_valid {socket : SocketId} {fd : Nat} (valid : Valid s)
    (free : s.refersTo fd = none) (settled : s.loop = .idle)
    (clear : AcceptsClear s (.accept socket fd)) : Valid (acceptConnection s socket fd) := by
  obtain ⟨allCancelled,noneCaught⟩ := clear
  have unused : ∀ other, s.fdCommand other ≠ some fd := by
    intro other at_
    simpa [free] using valid.live other fd at_
  refine ⟨?_,?_,?_,?_,?_,?_,valid.home⟩
  · intro other fd' at_
    by_cases same : fd' = fd
    · simp [acceptConnection,same]
    · by_cases own : other = socket
      · simp [acceptConnection,own,Ne.symm same] at at_
      · simp only [acceptConnection,Function.update_of_ne own] at at_
        simpa [acceptConnection,same] using valid.live other fd' at_
  · intro i j fd' atI atJ
    by_cases sameI : i = socket <;> by_cases sameJ : j = socket
    · exact sameI.trans sameJ.symm
    · subst sameI
      simp only [acceptConnection,Function.update_self,Function.update_of_ne sameJ,
        Option.some.injEq] at atI atJ
      exact absurd (atI ▸ atJ) (unused j)
    · subst sameJ
      simp only [acceptConnection,Function.update_self,Function.update_of_ne sameI,
        Option.some.injEq] at atI atJ
      exact absurd (atJ ▸ atI) (unused i)
    · simp only [acceptConnection,Function.update_of_ne sameI,Function.update_of_ne sameJ] at atI atJ
      exact valid.distinct i j fd' atI atJ
  · intro fd' conn refers
    by_cases same : fd' = fd
    · simp only [acceptConnection,same,Function.update_self,Option.some.injEq] at refers
      exact refers ▸ Nat.lt_succ_self _
    · simp only [acceptConnection,Function.update_of_ne same] at refers
      exact Nat.lt_succ_of_lt (valid.known fd' conn refers)
  · intro other p present
    obtain ⟨owner,older,home⟩ := valid.queued other p present
    refine ⟨owner,Nat.lt_succ_of_lt older,fun live => ?_⟩
    have different : p.request.socket_id ≠ socket := by
      intro same
      have cancelled := allCancelled p (same ▸ owner ▸ present)
      simp [live] at cancelled
    exact home_after_accept valid free different (home live)
  · intro other unconnected _ _ p present
    have different : other ≠ socket := by
      rintro rfl
      simp [acceptConnection] at unconnected
    simp only [acceptConnection,Function.update_of_ne different] at unconnected
    exact valid.swept other unconnected (by simp [settled]) (by simp [settled]) p present
  · intro v
    have old := valid.threads v
    have kept := noneCaught v
    change PcOk _ (s.pc v)
    cases at_ : s.pc v with
    | idle => trivial
    | dequeued p =>
      rw [at_] at old kept
      refine ⟨Nat.lt_succ_of_lt old.1,fun live => ?_⟩
      rcases kept with cancelled | different
      · simp [live] at cancelled
      · exact home_after_accept valid free different (old.2 live)
    | tested request =>
      rw [at_] at old kept
      exact ⟨Nat.lt_succ_of_lt old.1,home_after_accept valid free kept old.2⟩
    | haveFd request fd' =>
      rw [at_] at old kept
      refine ⟨Nat.lt_succ_of_lt old.1,fun conn refers => ?_⟩
      simp only [acceptConnection,Function.update_of_ne kept] at refers
      exact old.2 conn refers

end Sockets

section Threads
variable {V : Type} [DecidableEq V] {s next : State V}

theorem goto_threads {v : V} {pc : Pc} (threads : ∀ u, PcOk s (s.pc u)) (here : PcOk s pc) (u : V) :
    PcOk s ((goto s v pc).pc u) := by
  by_cases same : u = v
  · subst same; simpa [goto] using here
  · simpa [goto,same] using threads u

theorem goto_valid {v : V} {pc : Pc} (valid : Valid s) (here : PcOk s pc) : Valid (goto s v pc) :=
  ⟨valid.live,valid.distinct,valid.known,valid.queued,valid.swept,goto_threads valid.threads here,
    valid.home⟩

theorem dequeue_valid {v : V} {pending : Pending} (valid : Valid s)
    (listed : pending ∈ s.pendingRequests pending.request.socket_id) :
    Valid (takePending s v pending) := by
  have remains : ∀ socket p, p ∈ (takePending s v pending).pendingRequests socket →
      p ∈ s.pendingRequests socket := by
    intro socket p present
    by_cases same : socket = pending.request.socket_id
    · subst same
      simp only [takePending,goto,Function.update_self] at present
      exact List.mem_of_mem_erase present
    · simpa [takePending,goto,same] using present
  refine ⟨valid.live,valid.distinct,valid.known,fun socket p present => ?_,
    fun socket unconnected notClosed notRearmed p present => ?_,?_,valid.home⟩
  · exact valid.queued socket p (remains socket p present)
  · exact valid.swept socket unconnected notClosed notRearmed p (remains socket p present)
  · have here : PcOk s (.dequeued pending) := (valid.queued _ pending listed).2
    exact goto_threads valid.threads here

theorem test_valid {v : V} {pending : Pending} (valid : Valid s) (at_ : s.pc v = .dequeued pending) :
    Valid (goto s v (if pending.cancelled then .idle else .tested pending.request)) := by
  have old := valid.threads v
  rw [at_] at old
  cases cancelled : pending.cancelled with
  | true => exact goto_valid valid trivial
  | false => exact goto_valid valid ⟨old.1,old.2 cancelled⟩

theorem readFd_valid {v : V} {request : Request} {fd : Nat} (valid : Valid s)
    (at_ : s.pc v = .tested request) (connected : s.fdCommand request.socket_id = some fd) :
    Valid (goto s v (.haveFd request fd)) := by
  have old := valid.threads v
  rw [at_] at old
  refine goto_valid valid ⟨old.1,fun conn refers => ?_⟩
  exact Option.some.inj (refers.symm.trans (old.2 fd connected))

theorem write_valid {v : V} {request : Request} {fd conn : Nat} (valid : Valid s)
    (at_ : s.pc v = .haveFd request fd) (refers : s.refersTo fd = some conn) :
    Valid (goto {s with written := s.written ++ [(request,conn)]} v .idle) := by
  have old := valid.threads v
  rw [at_] at old
  have own : conn = request.conn := old.2 conn refers
  refine goto_valid ⟨valid.live,valid.distinct,valid.known,valid.queued,valid.swept,valid.threads,?_⟩
    trivial
  intro sent present
  rcases List.mem_append.mp present with before | new
  · exact valid.home sent before
  · rw [List.mem_singleton.mp new]
    exact own

theorem step_valid {action : Action V} (valid : Valid s) (clear : AcceptsClear s action)
    (moved : step s action = some next) : Valid next := by
  cases action with
  | receive socket => exact receive_valid valid moved
  | close socket => exact close_valid valid moved
  | rearm =>
    simp only [step] at moved
    split at moved
    · rename_i socket position
      cases moved
      exact rearm_valid valid position
    · cases moved
  | sweep =>
    simp only [step] at moved
    split at moved
    · rename_i socket position
      cases moved
      exact sweep_valid valid position
    · cases moved
  | accept socket fd =>
    simp only [step] at moved
    split at moved
    · rename_i enabled
      cases moved
      exact accept_valid valid enabled.2.2 enabled.1 clear
    · cases moved
  | dequeue v request =>
    simp only [step] at moved
    split at moved
    · rename_i pending at_ found
      cases moved
      have same : pending.request = request := by simpa using List.find?_some found
      subst same
      exact dequeue_valid valid (List.mem_of_find?_eq_some found)
    · cases moved
  | test v =>
    simp only [step] at moved
    split at moved
    · rename_i pending at_
      cases moved
      exact test_valid valid at_
    · cases moved
  | readFd v =>
    simp only [step] at moved
    split at moved
    · rename_i request at_
      split at moved
      · cases moved
        exact goto_valid valid trivial
      · rename_i fd connected
        cases moved
        exact readFd_valid valid at_ connected
    · cases moved
  | write v =>
    simp only [step] at moved
    split at moved
    · rename_i request fd at_
      split at moved
      · cases moved
        exact goto_valid valid trivial
      · rename_i conn refers
        cases moved
        exact write_valid valid at_ refers
    · cases moved

theorem run_valid {actions : List (Action V)} (obeyed : Obeys step AcceptsClear (initial V) actions)
    (ran : run step (initial V) actions = some s) : Valid s :=
  obeys_invariant Valid (fun _ _ _ valid clear moved => step_valid valid clear moved) initial_valid
    obeyed ran

def Crosses (s : State V) : Prop :=
  ∃ rest later, run step s rest = some later ∧ ¬ NeverCrosses later

theorem crosses_after {a : Action V} (moved : step s a = some next)
    (crosses : Crosses next) : Crosses s := by
  obtain ⟨rest,later,ran,crossed⟩ := crosses
  exact ⟨a :: rest,later,by simpa [run,moved] using ran,crossed⟩

theorem haveFd_crosses {v : V} {request : Request} {fd conn : Nat}
    (at_ : s.pc v = .haveFd request fd) (refers : s.refersTo fd = some conn)
    (foreign : conn ≠ request.conn) : Crosses s := by
  have moved : step s (.write v) =
      some (goto {s with written := s.written ++ [(request,conn)]} v .idle) := by
    simp only [step,at_,refers]
  refine crosses_after moved ⟨[],_,rfl,fun never => ?_⟩
  exact foreign (never (request,conn) (by simp [goto]))

theorem tested_crosses {v : V} {request : Request} {fd conn : Nat}
    (at_ : s.pc v = .tested request) (connected : s.fdCommand request.socket_id = some fd)
    (refers : s.refersTo fd = some conn) (foreign : conn ≠ request.conn) : Crosses s := by
  have moved : step s (.readFd v) = some (goto s v (.haveFd request fd)) := by
    simp only [step,at_,connected]
  have arrived : (goto s v (.haveFd request fd)).pc v = .haveFd request fd := by simp [goto]
  exact crosses_after moved (haveFd_crosses arrived refers foreign)

theorem dequeued_crosses {v : V} {pending : Pending} {fd conn : Nat}
    (at_ : s.pc v = .dequeued pending) (live : pending.cancelled = false)
    (connected : s.fdCommand pending.request.socket_id = some fd)
    (refers : s.refersTo fd = some conn) (foreign : conn ≠ pending.request.conn) : Crosses s := by
  have moved : step s (.test v) = some (goto s v (.tested pending.request)) := by
    simp [step,at_,live]
  have arrived : (goto s v (.tested pending.request)).pc v = .tested pending.request := by
    simp [goto]
  exact crosses_after moved (tested_crosses arrived connected refers foreign)

-- The condition leaves out only connections that do catch a thread: whatever
-- the state, a caught thread can go on to write to the new connection.
theorem caught_crosses {socket : SocketId} {fd : Nat} {v : V} (valid : Valid s)
    (caught : ¬ Clear socket fd (s.pc v)) : Crosses (acceptConnection s socket fd) := by
  have old := valid.threads v
  have connected : (acceptConnection s socket fd).fdCommand socket = some fd := by
    simp [acceptConnection]
  have refers : (acceptConnection s socket fd).refersTo fd = some s.nextConn := by
    simp [acceptConnection]
  cases at_ : s.pc v with
  | idle => simp [at_,Clear] at caught
  | dequeued p =>
    simp only [at_,Clear,not_or,Bool.not_eq_true,ne_eq,not_not] at caught
    rw [at_] at old
    exact dequeued_crosses at_ caught.1 (caught.2 ▸ connected) refers old.1.ne'
  | tested request =>
    simp only [at_,Clear,ne_eq,not_not] at caught
    rw [at_] at old
    exact tested_crosses at_ (caught ▸ connected) refers old.1.ne'
  | haveFd request old_fd =>
    simp only [at_,Clear,ne_eq,not_not] at caught
    rw [at_] at old
    exact haveFd_crosses at_ (caught ▸ refers) old.1.ne'

-- Where no new connection catches a completion, no reply leaves the connection
-- its request came in on; and a connection that catches a thread loses it.
theorem replies_stay_home :
    (∀ (actions : List (Action V)) (s : State V), Obeys step AcceptsClear (initial V) actions →
      run step (initial V) actions = some s → NeverCrosses s) ∧
    (∀ (actions : List (Action V)) (s next : State V) (socket : SocketId) (fd : Nat) (v : V),
      Obeys step AcceptsClear (initial V) actions → run step (initial V) actions = some s →
      step s (.accept socket fd) = some next → ¬ Clear socket fd (s.pc v) → Crosses next) := by
  refine ⟨fun actions s obeyed ran => (run_valid obeyed ran).home,?_⟩
  intro actions s next socket fd v obeyed ran moved caught
  simp only [step] at moved
  split at moved
  · cases moved
    exact caught_crosses (run_valid obeyed ran) caught
  · cases moved

theorem reconnect_after_reply_stays_home :
    ∃ s : State Unit, run step (initial Unit) [.accept .socket1 9,.receive .socket1,
        .dequeue () ⟨0,.socket1,0⟩,.test (),.readFd (),.write (),.close .socket1,.rearm,.sweep,
        .accept .socket1 9] = some s ∧ s.written.length = 1 ∧ NeverCrosses s := by
  refine ⟨_,rfl,rfl,(replies_stay_home (V := Unit)).1 [.accept .socket1 9,.receive .socket1,
    .dequeue () ⟨0,.socket1,0⟩,.test (),.readFd (),.write (),.close .socket1,.rearm,.sweep,
    .accept .socket1 9] _ ?_ rfl⟩
  have noneQueued : ∀ p ∈ ([] : List Pending), p.cancelled = true := by simp
  exact obeys_step rfl ⟨noneQueued,fun _ => trivial⟩ (obeys_step rfl trivial (obeys_step rfl trivial
    (obeys_step rfl trivial (obeys_step rfl trivial (obeys_step rfl trivial (obeys_step rfl trivial
    (obeys_step rfl trivial (obeys_step rfl trivial
    (obeys_step rfl ⟨noneQueued,fun _ => trivial⟩ trivial)))))))))

end Threads

-- The request is dequeued and found uncancelled before the sweep, and fdCommand
-- is read after the next accept.
theorem reply_crosses_reconnect :
    ∃ s : State Unit, run step (initial Unit) [.accept .socket1 9,.receive .socket1,
        .dequeue () ⟨0,.socket1,0⟩,.test (),.close .socket1,.rearm,.sweep,.accept .socket1 9,
        .readFd (),.write ()] = some s ∧ ¬ NeverCrosses s := by
  refine ⟨_,rfl,?_⟩
  intro never
  have equal := never (⟨0,.socket1,0⟩,1) (List.mem_singleton.mpr rfl)
  exact absurd equal (by decide)

end SemcMsm7x30.ReplyRace

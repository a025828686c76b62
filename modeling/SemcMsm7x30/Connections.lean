import SemcMsm7x30.EventLists
import SemcMsm7x30.FrameWriter

namespace SemcMsm7x30.Connections
open PartialMachine FrameWriter

inductive Ev where
  | wakeup
  | debug
  | listen (socket : SocketId)
  | commands (socket : SocketId)
  deriving DecidableEq, Repr

-- `pending` is pending_list, the events whose callbacks firePending still has to call.
-- `openFds` are the descriptors open in the process. `started` is history.
structure State where
  table : Table Ev
  pending : List Ev
  fdListen : SocketId → Int
  fdCommand : SocketId → Int
  openFds : Finset Int
  started : SocketId → Bool

structure Send where
  size : Nat
  writes : List Written

inductive Accepted where
  | failed
  | rejected (fd : Nat)
  | phone (fd : Nat) (sends : List Send)

inductive DebugCommand where
  | failed
  | badArguments (fd : Nat)
  | run (fd : Nat) (command sim_id : Int) (sends : List Send)

-- What select() came back with.
structure Selected where
  rfds : Finset Int
  n : Int

-- `selected` is there where the callback is the first of a round of ril_event_loop.
inductive Action where
  | startListen (socket : SocketId) (fd : Nat)
  | processWakeupCallback (selected : Option Selected)
  | listenCallback (socket : SocketId) (selected : Option Selected) (outcome : Accepted)
  | processCommandsCallback (socket : SocketId) (selected : Option Selected) (sends : List Send)
      (ended : Bool)
  | sendResponseRaw (socket : SocketId) (send : Send)
  | debugCallback (selected : Option Selected) (outcome : DebugCommand)

def blockingWrite : List Written → Nat → Option (Bool × List Written)
  | writes,0 => some (true,writes)
  | [],_+1 => none
  | .bytes count :: rest,left+1 =>
    if count ≤ left+1 then blockingWrite rest (left+1-count) else none
  | .retry :: rest,left+1 => blockingWrite rest (left+1)
  | .error :: rest,_+1 => some (false,rest)

section Functions
variable (simCount : Nat)

def close (s : State) (fd : Int) : State := {s with openFds := s.openFds.erase fd}

def opened (s : State) (fd : Nat) : State := {s with openFds := insert (fd : Int) s.openFds}

def sendResponseRaw (s : State) (socket : SocketId) (send : Send) : Option State :=
  let fd := s.fdCommand (socketHook simCount socket)
  if fd < 0 ∨ MAX_COMMAND_BYTES < send.size then
    if send.writes = [] then some s else none
  else
    match blockingWrite send.writes 4 with
    | none => none
    | some (false,rest) => if rest = [] then some (close s fd) else none
    | some (true,rest) =>
      match blockingWrite rest send.size with
      | none => none
      | some (ok,rest) => if rest = [] then some (if ok then s else close s fd) else none

def sendAll (s : State) (socket : SocketId) (sends : List Send) : Option State :=
  run (fun s send => sendResponseRaw simCount s socket send) s sends

def withLists (s : State) (p : Lists Ev) : State := {s with table := p.table,pending := p.pending}

-- All reported events are taken before the first callback is called.
def processReadReadies (s : State) (selected : Selected) : State :=
  withLists s (Lists.processReadReadies ⟨s.table,[],s.pending,[]⟩ selected.rfds selected.n)

def firePending (s : State) (ev : Ev) : Option State :=
  match s.pending with
  | [] => none
  | first :: rest => if first = ev then some {s with pending := rest} else none

def ril_event_loop (s : State) (ev : Ev) : Option Selected → Option State
  | none => firePending s ev
  | some selected => if s.pending = [] then firePending (processReadReadies s selected) ev else none

def addEvent (s : State) (ev : Ev) : State := {s with table := ril_event_add s.table ev}

def setEvent (s : State) (ev : Ev) (fd : Int) (persist : Bool) : State :=
  {s with table := ril_event_set s.table ev fd persist}

-- A descriptor the kernel hands out is not open yet.
def startListen (s : State) (socket : SocketId) (fd : Nat) : Option State :=
  if socket.number < simCount ∧ s.started socket = false ∧ (fd : Int) ∉ s.openFds then
    let s := {opened s fd with
      fdListen := Function.update s.fdListen socket fd
      started := Function.update s.started socket true}
    -- non-persistent so we can accept only one connection at a time
    some (addEvent (setEvent s (.listen socket) fd false) (.listen socket))
  else none

def listenCallback (s : State) (socket : SocketId) : Accepted → Option State
  | .failed => some (addEvent s (.listen socket))
  | .rejected fd =>
    if (fd : Int) ∉ s.openFds then some (addEvent (close (opened s fd) fd) (.listen socket)) else none
  | .phone fd sends =>
    if (fd : Int) ∉ s.openFds then
      let s := {opened s fd with fdCommand := Function.update s.fdCommand socket fd}
      -- onNewCommandConnect does the sends
      sendAll simCount (addEvent (setEvent s (.commands socket) fd true) (.commands socket)) socket sends
    else none

-- `ended` is end of stream or a fatal error. The event re-armed then is always
-- that of the first socket.
def processCommandsCallback (s : State) (socket : SocketId) (sends : List Send) (ended : Bool) :
    Option State :=
  let fd := (s.table.event (.commands socket)).fd
  match sendAll simCount s socket sends with
  | none => none
  | some s =>
    if ended then
      let s := {close s fd with fdCommand := Function.update s.fdCommand socket (-1)}
      some (addEvent {s with table := ril_event_del s.table (.commands socket)} (.listen .socket1))
    else some s

def debugSocket (sim_id : Int) : SocketId :=
  if sim_id = 1 ∧ 2 ≤ simCount then .socket2
  else if sim_id = 2 ∧ 3 ≤ simCount then .socket3
  else if sim_id = 3 ∧ 4 ≤ simCount then .socket4
  else .socket1

def hangUp (s : State) (socket : SocketId) : State :=
  {close s (s.fdCommand socket) with fdCommand := Function.update s.fdCommand socket (-1)}

def powerOff (s : State) (socket : SocketId) : State :=
  if socket = .socket1 ∧ 0 < s.fdCommand .socket1 then hangUp s .socket1
  else if simCount = 2 ∧ socket = .socket2 ∧ 0 < s.fdCommand .socket2 then hangUp s .socket2
  else s

-- The other commands only issue local requests. Bad arguments leak the accepted
-- descriptor.
def debugCallback (s : State) : DebugCommand → Option State
  | .failed => some s
  | .badArguments fd => if (fd : Int) ∉ s.openFds then some (opened s fd) else none
  | .run fd command sim_id sends =>
    if (fd : Int) ∉ s.openFds then
      let socket := debugSocket simCount sim_id
      if command = 2 then
        (sendAll simCount (opened s fd) socket sends).map (close · fd)
      else if sends ≠ [] then none
      else if command = 1 then some (close (powerOff simCount (opened s fd) socket) fd)
      else some (close (opened s fd) fd)
    else none

-- The callback of the wakeup event only empties its pipe.
def step (s : State) : Action → Option State
  | .startListen socket fd => startListen simCount s socket fd
  | .processWakeupCallback selected => ril_event_loop s .wakeup selected
  | .listenCallback socket selected outcome =>
    (ril_event_loop s (.listen socket) selected).bind (listenCallback simCount · socket outcome)
  | .processCommandsCallback socket selected sends ended =>
    (ril_event_loop s (.commands socket) selected).bind
      (processCommandsCallback simCount · socket sends ended)
  | .sendResponseRaw socket send => sendResponseRaw simCount s socket send
  | .debugCallback selected outcome =>
    (ril_event_loop s .debug selected).bind (debugCallback simCount · outcome)

end Functions

-- The event loop has added its wakeup event and RIL_register the debug port.
def initial (event : Ev → RilEvent) (wakeup debug : Nat) : State :=
  let s : State := ⟨⟨event,fun _ => none,∅,0⟩,[],fun _ => -1,fun _ => -1,
    {(wakeup : Int),(debug : Int)},fun _ => false⟩
  let s := addEvent (setEvent s .wakeup wakeup true) .wakeup
  addEvent (setEvent s .debug debug true) .debug

def Wired (s : State) (socket : SocketId) : Prop :=
  (0 ≤ s.fdCommand socket ↔ s.fdCommand socket ∈ s.openFds ∧
    s.table.Watched (.commands socket) ∧
    (s.table.event (.commands socket)).fd = s.fdCommand socket) ∧
  (s.fdCommand socket < 0 ↔ s.table.Watched (.listen socket))

def WritesOk (sends : List Send) : Prop := ∀ send ∈ sends, .error ∉ send.writes

-- The steps that do not run into one of the three defects: a hard write error, a
-- disconnect of a socket other than the first, and a power-off over the debug
-- port while the socket has a client.
def Clean (simCount : Nat) (s : State) : Action → Prop
  | .startListen _ _ | .processWakeupCallback _ => True
  | .listenCallback _ _ (.phone _ sends) => WritesOk sends
  | .listenCallback _ _ _ => True
  | .processCommandsCallback socket _ sends ended =>
    WritesOk sends ∧ (ended = true → socket = .socket1)
  | .sendResponseRaw _ send => .error ∉ send.writes
  | .debugCallback _ (.run _ command sim_id sends) => WritesOk sends ∧
    (command = 1 →
      ¬ (debugSocket simCount sim_id = .socket1 ∧ 0 < s.fdCommand .socket1) ∧
      ¬ (simCount = 2 ∧ debugSocket simCount sim_id = .socket2 ∧ 0 < s.fdCommand .socket2))
  | .debugCallback _ _ => True

def Action.selected : Action → Option Selected
  | .startListen _ _ | .sendResponseRaw _ _ => none
  | .processWakeupCallback selected | .listenCallback _ selected _
  | .processCommandsCallback _ selected _ _ | .debugCallback selected _ => selected

-- No reported listen_event stands in the table behind another reported event, so that
-- it would have to wait for that event's callback.
def Prompt (s : State) (action : Action) : Prop :=
  ∀ selected, action.selected = some selected →
    ∀ socket, .listen socket ∉ (s.table.ready selected.rfds slots).tail

def owner : Ev → Fin 6
  | .wakeup => 0
  | .debug => 1
  | .listen .socket1 | .commands .socket1 => 2
  | .listen .socket2 | .commands .socket2 => 3
  | .listen .socket3 | .commands .socket3 => 4
  | .listen .socket4 | .commands .socket4 => 5

def Ev.persistent : Ev → Bool
  | .listen _ => false
  | .wakeup | .debug | .commands _ => true

structure TableSound (t : Table Ev) : Prop where
  single : t.Single
  indexed : t.Indexed
  persist : ∀ ev, t.Watched ev → (t.event ev).persist = ev.persistent
  exclusive : ∀ a b, t.Watched a → t.Watched b → owner a = owner b → a = b

section Tables
variable {t : Table Ev} {ev : Ev}

theorem freeSlot_some (sound : TableSound t) : ∃ free, t.freeSlot = some free := by
  cases found : t.freeSlot with
  | some free => exact ⟨free,rfl⟩
  | none =>
    have full : ∀ i, ∃ ev, t.watch_table i = some ev := by
      intro i
      have taken := List.find?_eq_none.mp found i (List.mem_finRange i)
      exact Option.isSome_iff_exists.mp (by simpa [Option.isSome_iff_ne_none] using taken)
    choose holder held using full
    have injective : Function.Injective fun i => owner (holder i) := by
      intro i j same
      have equal := sound.exclusive _ _ ⟨i,held i⟩ ⟨j,held j⟩ same
      exact sound.single i j (holder i) (held i) (equal ▸ held j)
    have small := Fintype.card_le_of_injective _ injective
    rw [Fintype.card_fin,Fintype.card_fin] at small
    exact absurd small (by decide)

theorem add_tableSound (sound : TableSound t) (persist : (t.event ev).persist = ev.persistent)
    (vacant : ∀ other, t.Watched other → owner other ≠ owner ev) :
    TableSound (ril_event_add t ev) ∧
      ∀ other, (ril_event_add t ev).Watched other ↔ t.Watched other ∨ other = ev := by
  have fresh : ¬ t.Watched ev := fun watched => vacant ev watched rfl
  obtain ⟨free,found⟩ := freeSlot_some sound
  refine ⟨⟨add_single sound.single fresh,add_indexed sound.indexed fresh,?_,?_⟩,
    fun other => add_watched_iff found⟩
  · intro other watched
    rw [(add_sameFields t ev other).persist]
    rcases add_watched watched with before | rfl
    · exact sound.persist other before
    · exact persist
  · intro a b watchedA watchedB same
    rcases add_watched watchedA with oldA | rfl
    · rcases add_watched watchedB with oldB | rfl
      · exact sound.exclusive a b oldA oldB same
      · exact absurd same (vacant a oldA)
    · rcases add_watched watchedB with oldB | rfl
      · exact absurd same.symm (vacant b oldB)
      · rfl

theorem remove_tableSound {place : Fin MAX_FD_EVENTS} (sound : TableSound t)
    (held : t.watch_table place = some ev) : TableSound (removeWatch t ev place) := by
  have before : ∀ other, (removeWatch t ev place).Watched other → t.Watched other :=
    fun other watched => ((removeWatch_watched sound.single held).mp watched).1
  refine ⟨removeWatch_single sound.single ev place,
    removeWatch_indexed sound.single sound.indexed held,?_,?_⟩
  · intro other watched
    rw [(removeWatch_sameFields t ev place other).persist]
    exact sound.persist other (before other watched)
  · exact fun a b watchedA watchedB => sound.exclusive a b (before a watchedA) (before b watchedB)

theorem swap_tableSound {middle : Table Ev} {old : Ev} (sound : TableSound t)
    (watched : t.Watched old) (same : owner old = owner ev) (between : TableSound middle)
    (left : ∀ other, middle.Watched other ↔ t.Watched other ∧ other ≠ old)
    (persist : (middle.event ev).persist = ev.persistent) :
    TableSound (ril_event_add middle ev) ∧ ∀ other, (ril_event_add middle ev).Watched other ↔
      (t.Watched other ∧ other ≠ old) ∨ other = ev := by
  obtain ⟨added,slots⟩ := add_tableSound between persist (fun other still equal => by
    obtain ⟨before,differs⟩ := (left other).mp still
    exact differs (sound.exclusive other old before watched (equal.trans same.symm)))
  exact ⟨added,fun other => by rw [slots,left]⟩

theorem set_tableSound (sound : TableSound t) (unwatched : ¬ t.Watched ev) (fd : Int)
    (persist : Bool) : TableSound (ril_event_set t ev fd persist) := by
  refine ⟨sound.single,update_indexed sound.indexed unwatched,?_,sound.exclusive⟩
  intro other watched
  have differs : other ≠ ev := fun same => unwatched (same ▸ watched)
  have same : SameFields t (ril_event_set t ev fd persist) other := update_sameFields differs
  rw [same.persist]
  exact sound.persist other watched

structure Installed (t next : Table Ev) (ev : Ev) (fd : Int) : Prop where
  sound : TableSound next
  watched : ∀ other, next.Watched other ↔ t.Watched other ∨ other = ev
  kept : ∀ other, other ≠ ev → SameFields t next other
  fd : (next.event ev).fd = fd
  persist : (next.event ev).persist = ev.persistent

theorem set_add_installed (persist : Bool) (sound : TableSound t) (unwatched : ¬ t.Watched ev)
    (fd : Int) (fits : persist = ev.persistent)
    (vacant : ∀ other, t.Watched other → owner other ≠ owner ev) :
    Installed t (ril_event_add (ril_event_set t ev fd persist) ev) ev fd := by
  have written : ((ril_event_set t ev fd persist).event ev).persist = ev.persistent := by
    simp [ril_event_set,Table.update,fits]
  have fields := add_sameFields (ril_event_set t ev fd persist) ev
  obtain ⟨added,watched⟩ := add_tableSound (set_tableSound sound unwatched fd _) written vacant
  refine ⟨added,watched,?_,?_,(fields ev).persist.trans written⟩
  · intro other differs
    have unset : SameFields t (ril_event_set t ev fd persist) other := update_sameFields differs
    exact unset.trans (fields other)
  · refine (fields ev).fd.trans ?_
    simp [ril_event_set,Table.update]

end Tables

structure Sound (s : State) : Prop where
  table : TableSound s.table
  nonneg : ∀ fd ∈ s.openFds, 0 ≤ fd
  apart : ∀ i j, 0 ≤ s.fdCommand i → s.fdCommand i = s.fdCommand j → i = j
  up : ∀ i, 0 ≤ s.fdCommand i → s.started i = true ∧ s.fdCommand i ∈ s.openFds ∧
    s.table.Watched (.commands i) ∧ (s.table.event (.commands i)).fd = s.fdCommand i
  down : ∀ i, s.fdCommand i < 0 → ¬ s.table.Watched (.commands i) ∧
    (s.table.Watched (.listen i) ∨ .listen i ∈ s.pending ↔ s.started i = true)
  taken : ∀ i, .listen i ∈ s.pending → s.fdCommand i < 0 ∧ ¬ s.table.Watched (.listen i)
  kept : ∀ i, .commands i ∈ s.pending → s.table.Watched (.commands i)
  nodup : s.pending.Nodup
  listener : ∀ i, s.started i = true → (s.table.event (.listen i)).persist = false

theorem owner_cases {ev : Ev} {socket : SocketId} (same : owner ev = owner (.listen socket)) :
    ev = .listen socket ∨ ev = .commands socket := by
  cases ev with
  | wakeup => cases socket <;> cases same
  | debug => cases socket <;> cases same
  | listen i => cases i <;> cases socket <;> first | exact .inl rfl | cases same
  | commands i => cases i <;> cases socket <;> first | exact .inr rfl | cases same

theorem owner_vacant {t : Table Ev} {socket : SocketId} (deaf : ¬ t.Watched (.listen socket))
    (idle : ¬ t.Watched (.commands socket)) :
    ∀ other, t.Watched other → owner other ≠ owner (.listen socket) := by
  intro other watched same
  rcases owner_cases same with rfl | rfl
  · exact deaf watched
  · exact idle watched

theorem owner_socket (i : SocketId) : owner (.listen i) = owner (.commands i) := by
  cases i <;> rfl

section Sockets
variable {s : State} {socket : SocketId}

theorem sound_commands (sound : Sound s) (watched : s.table.Watched (.commands socket)) :
    0 ≤ s.fdCommand socket := by
  by_contra negative
  exact (sound.down socket (not_le.mp negative)).1 watched

theorem sound_listen (sound : Sound s) (watched : s.table.Watched (.listen socket)) :
    s.fdCommand socket < 0 := by
  by_contra positive
  have up := (sound.up socket (not_lt.mp positive)).2.2.1
  have same := sound.table.exclusive _ _ watched up (owner_socket socket)
  cases same

theorem sound_wired (sound : Sound s) (started : s.started socket = true) :
    Wired s socket ↔ .listen socket ∉ s.pending := by
  constructor
  · intro wired waiting
    obtain ⟨free,deaf⟩ := sound.taken socket waiting
    exact deaf (wired.2.mp free)
  · intro idle
    refine ⟨⟨fun connected => ?_,fun connected => sound.nonneg _ connected.1⟩,?_,sound_listen sound⟩
    · exact (sound.up socket connected).2
    · intro free
      exact (((sound.down socket free).2).mpr started).resolve_right idle

end Sockets

section Writes

theorem blockingWrite_ok {writes rest : List Written} {left : Nat} {ok : Bool}
    (clean : .error ∉ writes) (wrote : blockingWrite writes left = some (ok,rest)) :
    ok = true ∧ .error ∉ rest := by
  induction writes generalizing left with
  | nil =>
    cases left with
    | zero =>
      cases wrote
      exact ⟨rfl,clean⟩
    | succ left => cases wrote
  | cons first others ih =>
    have later : .error ∉ others := fun present => clean (List.mem_cons_of_mem _ present)
    cases left with
    | zero =>
      simp only [blockingWrite,Option.some.injEq,Prod.mk.injEq] at wrote
      obtain ⟨rfl,rfl⟩ := wrote
      exact ⟨rfl,clean⟩
    | succ left =>
      cases first with
      | bytes count =>
        simp only [blockingWrite] at wrote
        split at wrote
        · exact ih later wrote
        · cases wrote
      | retry => exact ih later wrote
      | error => exact absurd List.mem_cons_self clean

theorem sendResponseRaw_ok {simCount : Nat} {s next : State} {socket : SocketId} {send : Send}
    (clean : .error ∉ send.writes) (sent : sendResponseRaw simCount s socket send = some next) :
    next = s := by
  simp only [sendResponseRaw] at sent
  split at sent
  · split at sent
    · exact (Option.some.inj sent).symm
    · cases sent
  · split at sent
    · cases sent
    · rename_i header
      exact absurd (blockingWrite_ok clean header).1 (by simp)
    · rename_i rest header
      have later := (blockingWrite_ok clean header).2
      split at sent
      · cases sent
      · rename_i ok left body
        have good := (blockingWrite_ok later body).1
        subst good
        split at sent
        · exact (Option.some.inj sent).symm
        · cases sent

theorem sendAll_ok {simCount : Nat} {s next : State} {socket : SocketId} {sends : List Send}
    (clean : WritesOk sends) (sent : sendAll simCount s socket sends = some next) : next = s := by
  induction sends generalizing s with
  | nil => exact (Option.some.inj sent).symm
  | cons send rest ih =>
    obtain ⟨middle,first,later⟩ := run_cons sent
    have same := sendResponseRaw_ok (clean send List.mem_cons_self) first
    subst same
    exact ih (fun other present => clean other (List.mem_cons_of_mem _ present)) later

end Writes

section Steps
variable {simCount : Nat} {s next : State} {socket : SocketId}

theorem sound_opened (sound : Sound s) (fd : Nat) : Sound (opened s fd) := by
  refine ⟨sound.table,?_,sound.apart,?_,sound.down,sound.taken,sound.kept,sound.nodup,sound.listener⟩
  · intro other present
    rcases Finset.mem_insert.mp present with rfl | before
    · exact Int.natCast_nonneg fd
    · exact sound.nonneg other before
  · intro i connected
    obtain ⟨started,isOpen,rest⟩ := sound.up i connected
    exact ⟨started,Finset.mem_insert_of_mem isOpen,rest⟩

theorem close_opened {fd : Nat} (fresh : (fd : Int) ∉ s.openFds) : close (opened s fd) fd = s := by
  simp [close,opened,Finset.erase_insert fresh]

theorem queueReady_sound {p : Lists Ev} {rev : Ev} {place : Fin MAX_FD_EVENTS}
    (sound : Sound (withLists s p)) (held : p.table.watch_table place = some rev)
    (fresh : rev ∉ p.pending) : Sound (withLists s (p.queueReady rev place)) := by
  have nodup : (p.pending ++ [rev]).Nodup := by
    rw [List.nodup_append_comm]
    exact List.nodup_cons.mpr ⟨fresh,sound.nodup⟩
  have persist := sound.table.persist rev ⟨place,held⟩
  cases listening : rev.persistent with
  | true =>
    have stays : withLists s (p.queueReady rev place) = withLists s {p with pending := p.pending ++ [rev]} := by
      have persistent : (p.table.event rev).persist = true := persist.trans listening
      simp [withLists,Lists.queueReady,persistent]
    have others : ∀ i, .listen i ∈ p.pending ++ [rev] → .listen i ∈ p.pending := by
      intro i present
      rcases List.mem_append.mp present with before | new
      · exact before
      · rw [← List.mem_singleton.mp new] at listening
        cases listening
    rw [stays]
    refine ⟨sound.table,sound.nonneg,sound.apart,sound.up,?_,?_,?_,nodup,sound.listener⟩
    · intro i negative
      obtain ⟨idle,heard⟩ := sound.down i negative
      refine ⟨idle,heard.symm.trans ?_ |>.symm⟩
      exact or_congr_right ⟨fun before => List.mem_append_left _ before,others i⟩
    · exact fun i present => sound.taken i (others i present)
    · intro i present
      rcases List.mem_append.mp present with before | new
      · exact sound.kept i before
      · rw [List.mem_singleton.mp new]
        exact ⟨place,held⟩
  | false =>
    obtain ⟨socket,rfl⟩ : ∃ socket, rev = .listen socket := by
      cases rev with
      | wakeup => cases listening
      | debug => cases listening
      | listen socket => exact ⟨socket,rfl⟩
      | commands socket => cases listening
    have leaves : withLists s (p.queueReady (.listen socket) place) = withLists s
        {p with table := removeWatch p.table (.listen socket) place,pending := p.pending ++ [.listen socket]} := by
      have once : (p.table.event (.listen socket)).persist = false := persist.trans listening
      simp [withLists,Lists.queueReady,once]
    have fields := removeWatch_sameFields p.table (.listen socket) place
    have left : ∀ ev, (removeWatch p.table (.listen socket) place).Watched ev ↔
        p.table.Watched ev ∧ ev ≠ .listen socket := fun _ => removeWatch_watched sound.table.single held
    have free := sound_listen sound ⟨place,held⟩
    rw [leaves]
    refine ⟨remove_tableSound sound.table held,sound.nonneg,sound.apart,?_,?_,?_,?_,nodup,?_⟩
    · intro i connected
      obtain ⟨started,isOpen,serving,same⟩ := sound.up i connected
      exact ⟨started,isOpen,(left _).mpr ⟨serving,by simp⟩,(fields _).fd.trans same⟩
    · intro i negative
      obtain ⟨idle,heard⟩ := sound.down i negative
      refine ⟨fun still => idle ((left _).mp still).1,Iff.trans ?_ heard⟩
      simp only [withLists,left,List.mem_append,List.mem_singleton]
      by_cases here : i = socket
      · subst here
        simp only [ne_eq,not_true_eq_false,and_false,or_true,true_iff]
        exact .inl ⟨place,held⟩
      · simp [here]
    · intro i present
      rcases List.mem_append.mp present with before | new
      · obtain ⟨negative,deaf⟩ := sound.taken i before
        exact ⟨negative,fun still => deaf ((left _).mp still).1⟩
      · cases List.mem_singleton.mp new
        exact ⟨free,fun still => ((left _).mp still).2 rfl⟩
    · intro i present
      rcases List.mem_append.mp present with before | new
      · exact (left _).mpr ⟨sound.kept i before,by simp⟩
      · cases List.mem_singleton.mp new
    · intro i started
      exact (fields _).persist.trans (sound.listener i started)

-- What is in the slots not scanned yet has not been queued.
theorem readReadies_sound {p : Lists Ev} {rfds : Finset Int} {places : List (Fin MAX_FD_EVENTS)}
    {n : Int} (nodup : places.Nodup) (sound : Sound (withLists s p))
    (fresh : ∀ i ∈ places, ∀ ev, p.table.watch_table i = some ev → ev ∉ p.pending) :
    Sound (withLists s (Lists.readReadies rfds places n p)) := by
  induction places generalizing p n with
  | nil => exact sound
  | cons i rest ih =>
    obtain ⟨notRest,restNodup⟩ := List.nodup_cons.mp nodup
    have restFresh : ∀ j ∈ rest, ∀ ev, p.table.watch_table j = some ev → ev ∉ p.pending :=
      fun j inside => fresh j (List.mem_cons_of_mem _ inside)
    unfold Lists.readReadies
    split
    · split
      · exact ih restNodup sound restFresh
      · rename_i rev held
        split
        · apply ih restNodup (queueReady_sound sound held (fresh i List.mem_cons_self rev held))
          intro j inside ev atJ queued
          have apart : j ≠ i := fun equal => notRest (equal ▸ inside)
          rw [(queueReady_table p rev i).1 j apart] at atJ
          rcases List.mem_append.mp queued with before | new
          · exact restFresh j inside ev atJ before
          · rw [List.mem_singleton.mp new] at atJ
            exact apart (sound.table.single j i rev atJ held)
        · exact ih restNodup sound restFresh
    · exact sound

theorem processReadReadies_sound {selected : Selected} (sound : Sound s) (returned : s.pending = []) :
    Sound (processReadReadies s selected) := by
  apply readReadies_sound slots_nodup (show Sound (withLists s ⟨s.table,[],s.pending,[]⟩) from sound)
  intro i _ ev _ queued
  rw [show (⟨s.table,[],s.pending,[]⟩ : Lists Ev).pending = s.pending from rfl,returned] at queued
  cases queued

theorem firePending_first {ev : Ev} (fired : firePending s ev = some next) :
    ∃ rest, s.pending = ev :: rest ∧ next = {s with pending := rest} := by
  unfold firePending at fired
  split at fired
  · cases fired
  · rename_i first rest queue
    split at fired
    · rename_i same
      cases fired
      exact ⟨rest,same ▸ queue,rfl⟩
    · cases fired

theorem loop_first {ev : Ev} {selected : Option Selected} (sound : Sound s)
    (came : ril_event_loop s ev selected = some next) :
    ∃ queued rest, Sound queued ∧ queued.pending = ev :: rest ∧ next = {queued with pending := rest} := by
  cases selected with
  | none =>
    obtain ⟨rest,first,rfl⟩ := firePending_first came
    exact ⟨s,rest,sound,first,rfl⟩
  | some selected =>
    simp only [ril_event_loop] at came
    split at came
    · rename_i returned
      obtain ⟨rest,first,rfl⟩ := firePending_first came
      exact ⟨_,rest,processReadReadies_sound sound returned,first,rfl⟩
    · cases came

theorem served_sound {ev : Ev} {rest : List Ev} (sound : Sound s) (first : s.pending = ev :: rest)
    (persistent : ev.persistent = true) : Sound {s with pending := rest} := by
  have later : ∀ other, other ∈ rest → other ∈ s.pending := by
    intro other present
    rw [first]
    exact List.mem_cons_of_mem _ present
  have listens : ∀ i, .listen i ∈ s.pending → .listen i ∈ rest := by
    intro i present
    rw [first] at present
    rcases List.mem_cons.mp present with same | waiting
    · rw [← same] at persistent
      cases persistent
    · exact waiting
  refine ⟨sound.table,sound.nonneg,sound.apart,sound.up,?_,?_,?_,?_,sound.listener⟩
  · intro i negative
    obtain ⟨idle,heard⟩ := sound.down i negative
    refine ⟨idle,?_⟩
    rw [← heard]
    exact or_congr_right ⟨later _,listens i⟩
  · exact fun i present => sound.taken i (later _ present)
  · exact fun i present => sound.kept i (later _ present)
  · have nodup := sound.nodup
    rw [first] at nodup
    exact (List.nodup_cons.mp nodup).2

section Listening
variable {rest : List Ev}

theorem taken_socket (sound : Sound s) (first : s.pending = .listen socket :: rest) :
    s.fdCommand socket < 0 ∧ s.started socket = true ∧ .listen socket ∉ rest ∧
      (∀ i, .commands i ∈ rest → s.table.Watched (.commands i)) ∧
      ∀ other, s.table.Watched other → owner other ≠ owner (.listen socket) := by
  have waiting : .listen socket ∈ s.pending := by
    rw [first]
    exact List.mem_cons_self
  obtain ⟨free,deaf⟩ := sound.taken socket waiting
  obtain ⟨idle,heard⟩ := sound.down socket free
  have nodup := sound.nodup
  rw [first] at nodup
  refine ⟨free,heard.mp (.inr waiting),(List.nodup_cons.mp nodup).1,?_,owner_vacant deaf idle⟩
  intro i present
  apply sound.kept i
  rw [first]
  exact List.mem_cons_of_mem _ present

theorem rest_listens (first : s.pending = .listen socket :: rest) {i : SocketId} (other : i ≠ socket) :
    .listen i ∈ rest ↔ .listen i ∈ s.pending := by
  rw [first]
  simp [other]

theorem rest_taken (sound : Sound s) (first : s.pending = .listen socket :: rest) {i : SocketId}
    (present : .listen i ∈ rest) : i ≠ socket ∧ s.fdCommand i < 0 ∧ ¬ s.table.Watched (.listen i) := by
  have nodup := sound.nodup
  rw [first] at nodup
  have differs : i ≠ socket := by
    rintro rfl
    exact (List.nodup_cons.mp nodup).1 present
  exact ⟨differs,sound.taken i ((rest_listens first differs).mp present)⟩

theorem rest_nodup (sound : Sound s) (first : s.pending = .listen socket :: rest) : rest.Nodup := by
  have nodup := sound.nodup
  rw [first] at nodup
  exact (List.nodup_cons.mp nodup).2

theorem relisten_sound (sound : Sound s) (first : s.pending = .listen socket :: rest) :
    Sound (addEvent {s with pending := rest} (.listen socket)) := by
  obtain ⟨free,started,_,serving,vacant⟩ := taken_socket sound first
  have persist : (s.table.event (.listen socket)).persist = Ev.persistent (.listen socket) :=
    sound.listener socket started
  obtain ⟨added,watched⟩ := add_tableSound sound.table persist vacant
  have fields := add_sameFields s.table (.listen socket)
  refine ⟨added,sound.nonneg,sound.apart,?_,?_,?_,?_,rest_nodup sound first,?_⟩
  · intro i connected
    obtain ⟨startedI,isOpen,held,same⟩ := sound.up i connected
    exact ⟨startedI,isOpen,(watched _).mpr (.inl held),(fields _).fd.trans same⟩
  · intro i negative
    obtain ⟨idle,heard⟩ := sound.down i negative
    refine ⟨fun still => ?_,?_⟩
    · rcases (watched _).mp still with before | wrong
      · exact idle before
      · cases wrong
    · by_cases here : i = socket
      · subst here
        exact iff_of_true (.inl ((watched _).mpr (.inr rfl))) started
      · refine Iff.trans ?_ heard
        simp only [addEvent,watched,Ev.listen.injEq,here,or_false,rest_listens first here]
  · intro i present
    obtain ⟨differs,negative,deaf⟩ := rest_taken sound first present
    refine ⟨negative,fun still => ?_⟩
    rcases (watched _).mp still with before | same
    · exact deaf before
    · cases same
      exact differs rfl
  · exact fun i present => (watched _).mpr (.inl (serving i present))
  · intro i listening
    exact (fields _).persist.trans (sound.listener i listening)

theorem accept_sound {fd : Nat} (sound : Sound s) (first : s.pending = .listen socket :: rest)
    (fresh : (fd : Int) ∉ s.openFds) :
    Sound (addEvent (setEvent
      {opened {s with pending := rest} fd with
        fdCommand := Function.update s.fdCommand socket fd} (.commands socket) fd true)
      (.commands socket)) := by
  obtain ⟨free,started,_,serving,vacant⟩ := taken_socket sound first
  obtain ⟨idle,_⟩ := sound.down socket free
  obtain ⟨added,watched,kept,numbered,_⟩ := set_add_installed true sound.table idle fd rfl
    (fun other held => (owner_socket socket) ▸ vacant other held)
  have others : ∀ i, 0 ≤ s.fdCommand i → s.fdCommand i ≠ fd := by
    intro i connected same
    exact fresh (same ▸ (sound.up i connected).2.1)
  have below : ∀ i, Function.update s.fdCommand socket (fd : Int) i < 0 →
      i ≠ socket ∧ s.fdCommand i < 0 := by
    intro i negative
    have here : i ≠ socket := by
      intro same
      rw [same,Function.update_self] at negative
      omega
    rw [Function.update_of_ne here] at negative
    exact ⟨here,negative⟩
  refine ⟨added,(sound_opened sound fd).nonneg,?_,?_,?_,?_,?_,rest_nodup sound first,?_⟩
  · intro i j connected same
    simp only [addEvent,setEvent,opened] at connected same
    by_cases hereI : i = socket
    · by_cases hereJ : j = socket
      · exact hereI.trans hereJ.symm
      · subst hereI
        rw [Function.update_self,Function.update_of_ne hereJ] at same
        rw [Function.update_self,same] at connected
        exact absurd same.symm (others j connected)
    · rw [Function.update_of_ne hereI] at connected same
      by_cases hereJ : j = socket
      · subst hereJ
        rw [Function.update_self] at same
        exact absurd same (others i connected)
      · rw [Function.update_of_ne hereJ] at same
        exact sound.apart i j connected same
  · intro i connected
    simp only [addEvent,setEvent,opened] at connected ⊢
    by_cases here : i = socket
    · subst here
      rw [Function.update_self]
      exact ⟨started,Finset.mem_insert_self _ _,(watched _).mpr (.inr rfl),numbered⟩
    · rw [Function.update_of_ne here] at connected ⊢
      obtain ⟨startedI,isOpen,held,same⟩ := sound.up i connected
      refine ⟨startedI,Finset.mem_insert_of_mem isOpen,(watched _).mpr (.inl held),?_⟩
      exact ((kept _ (by simp [here])).fd).trans same
  · intro i negative
    obtain ⟨here,free'⟩ := below i negative
    obtain ⟨idleI,heard⟩ := sound.down i free'
    simp only [addEvent,setEvent,opened]
    rw [watched,watched,rest_listens first here]
    simp only [reduceCtorEq,or_false,Ev.commands.injEq,here]
    exact ⟨idleI,heard⟩
  · intro i present
    obtain ⟨differs,negative,deaf⟩ := rest_taken sound first present
    simp only [addEvent,setEvent,opened]
    rw [watched,Function.update_of_ne differs]
    simp only [reduceCtorEq,or_false]
    exact ⟨negative,deaf⟩
  · exact fun i present => (watched _).mpr (.inl (serving i present))
  · intro i listening
    exact (kept _ (by simp)).persist.trans (sound.listener i listening)

end Listening

theorem startListen_sound {fd : Nat} (sound : Sound s)
    (moved : startListen simCount s socket fd = some next) : Sound next := by
  unfold startListen at moved
  split at moved
  · rename_i guard
    obtain ⟨_,fresh,_⟩ := guard
    cases moved
    have free : s.fdCommand socket < 0 := by
      by_contra connected
      rw [(sound.up socket (not_lt.mp connected)).1] at fresh
      cases fresh
    obtain ⟨idle,listening⟩ := sound.down socket free
    have silent : ¬ (s.table.Watched (.listen socket) ∨ .listen socket ∈ s.pending) := by
      rw [listening,fresh]
      simp
    obtain ⟨deaf,absent⟩ := not_or.mp silent
    obtain ⟨added,watched,kept,_,persist⟩ :=
      set_add_installed false sound.table deaf fd rfl (owner_vacant deaf idle)
    refine ⟨added,(sound_opened sound fd).nonneg,sound.apart,?_,?_,?_,?_,sound.nodup,?_⟩
    · intro i connected
      obtain ⟨started,isOpen,serving,same⟩ := sound.up i connected
      refine ⟨?_,Finset.mem_insert_of_mem isOpen,(watched _).mpr (.inl serving),
        (kept _ (by simp)).fd.trans same⟩
      by_cases here : i = socket
      · subst here
        exact Function.update_self ..
      · exact (Function.update_of_ne here ..).trans started
    · intro i negative
      obtain ⟨idleI,listeningI⟩ := sound.down i negative
      refine ⟨fun still => ?_,?_⟩
      · rcases (watched _).mp still with before | wrong
        · exact idleI before
        · cases wrong
      · by_cases here : i = socket
        · subst here
          have now : Function.update s.started i true i = true := Function.update_self ..
          exact ⟨fun _ => now,fun _ => .inl ((watched _).mpr (.inr rfl))⟩
        · have same : Function.update s.started socket true i = s.started i :=
            Function.update_of_ne here ..
          show (ril_event_add (ril_event_set s.table (.listen socket) fd false)
            (.listen socket)).Watched (.listen i) ∨ .listen i ∈ s.pending ↔
              Function.update s.started socket true i = true
          rw [watched,same,← listeningI]
          simp only [Ev.listen.injEq,here,or_false]
    · intro i present
      obtain ⟨negative,quiet⟩ := sound.taken i present
      refine ⟨negative,fun still => ?_⟩
      rcases (watched _).mp still with before | same
      · exact quiet before
      · cases same
        exact absent present
    · exact fun i present => (watched _).mpr (.inl (sound.kept i present))
    · intro i started
      by_cases here : i = socket
      · subst here
        exact persist
      · have before : s.started i = true := (Function.update_of_ne here ..).symm.trans started
        exact (kept _ (by simp [here])).persist.trans (sound.listener i before)
  · cases moved

theorem disconnect_sound (sound : Sound s) (serving : s.table.Watched (.commands .socket1))
    (served : .commands .socket1 ∉ s.pending) :
    Sound (addEvent
      {s with
        openFds := s.openFds.erase (s.table.event (.commands .socket1)).fd
        fdCommand := Function.update s.fdCommand .socket1 (-1)
        table := ril_event_del s.table (.commands .socket1)} (.listen .socket1)) := by
  obtain ⟨place,held⟩ := serving
  have connected := sound_commands sound ⟨place,held⟩
  obtain ⟨startedHere,_,_,fd⟩ := sound.up .socket1 connected
  have gone : ril_event_del s.table (.commands .socket1) =
      removeWatch s.table (.commands .socket1) place := del_eq sound.table.indexed held
  have persist : ((removeWatch s.table (.commands .socket1) place).event (.listen .socket1)).persist =
      Ev.persistent (.listen .socket1) := by
    rw [(removeWatch_sameFields s.table _ place _).persist]
    exact sound.listener .socket1 startedHere
  obtain ⟨added,watched⟩ := swap_tableSound sound.table ⟨place,held⟩ (owner_socket .socket1).symm
    (remove_tableSound sound.table held) (fun _ => removeWatch_watched sound.table.single held) persist
  have fields := fun ev => (removeWatch_sameFields s.table (.commands .socket1) place ev).trans
    (add_sameFields _ (.listen .socket1) ev)
  rw [gone,fd]
  have others : ∀ i, 0 ≤ Function.update s.fdCommand .socket1 (-1) i → i ≠ .socket1 := by
    intro i positive equal
    rw [equal,Function.update_self] at positive
    omega
  refine ⟨added,?_,?_,?_,?_,?_,?_,sound.nodup,?_⟩
  · intro other present
    exact sound.nonneg other (Finset.mem_of_mem_erase present)
  · intro i j positive same
    simp only [addEvent] at positive same
    have hereI := others i positive
    have hereJ := others j (le_of_le_of_eq positive same)
    rw [Function.update_of_ne hereI] at positive same
    rw [Function.update_of_ne hereJ] at same
    exact sound.apart i j positive same
  · intro i positive
    simp only [addEvent] at positive ⊢
    have here := others i positive
    rw [Function.update_of_ne here] at positive ⊢
    obtain ⟨started,isOpen,serving,same⟩ := sound.up i positive
    refine ⟨started,Finset.mem_erase.mpr ⟨?_,isOpen⟩,(watched _).mpr (.inl ⟨serving,by simp [here]⟩),
      (fields _).fd.trans same⟩
    intro equal
    exact here (sound.apart i .socket1 positive equal)
  · intro i negative
    simp only [addEvent] at negative ⊢
    rw [watched,watched]
    by_cases here : i = .socket1
    · subst here
      simp [startedHere]
    · rw [Function.update_of_ne here] at negative
      obtain ⟨idle,listening⟩ := sound.down i negative
      simp only [ne_eq,reduceCtorEq,not_false_eq_true,and_true,or_false,Ev.listen.injEq,here]
      exact ⟨fun still => idle still.1,listening⟩
  · intro i present
    obtain ⟨negative,deaf⟩ := sound.taken i present
    have here : i ≠ .socket1 := by
      rintro rfl
      omega
    simp only [addEvent]
    rw [watched,Function.update_of_ne here]
    simp only [ne_eq,reduceCtorEq,not_false_eq_true,and_true,or_false,Ev.listen.injEq,here]
    exact ⟨negative,deaf⟩
  · intro i present
    refine (watched _).mpr (.inl ⟨sound.kept i present,?_⟩)
    intro same
    cases same
    exact served present
  · intro i started
    exact (fields _).persist.trans (sound.listener i started)

theorem processCommandsCallback_sound {sends : List Send} {ended : Bool} (sound : Sound s)
    (serving : s.table.Watched (.commands socket)) (served : .commands socket ∉ s.pending)
    (clean : WritesOk sends) (first : ended = true → socket = .socket1)
    (moved : processCommandsCallback simCount s socket sends ended = some next) : Sound next := by
  unfold processCommandsCallback at moved
  split at moved
  · cases moved
  · rename_i after sent
    have same := sendAll_ok clean sent
    subst same
    split at moved
    · rename_i finished
      have here := first finished
      subst here
      cases moved
      exact disconnect_sound sound serving served
    · cases moved
      exact sound

theorem listenCallback_sound {outcome : Accepted} {rest : List Ev} (sound : Sound s)
    (first : s.pending = .listen socket :: rest)
    (clean : ∀ fd sends, outcome = .phone fd sends → WritesOk sends)
    (moved : listenCallback simCount {s with pending := rest} socket outcome = some next) :
    Sound next := by
  cases outcome with
  | failed =>
    cases moved
    exact relisten_sound sound first
  | rejected fd =>
    simp only [listenCallback] at moved
    split at moved
    · rename_i fresh
      have back : close (opened {s with pending := rest} fd) fd = {s with pending := rest} :=
        close_opened fresh
      rw [back] at moved
      cases moved
      exact relisten_sound sound first
    · cases moved
  | phone fd sends =>
    simp only [listenCallback] at moved
    split at moved
    · rename_i fresh
      have same := sendAll_ok (clean fd sends rfl) moved
      rw [same]
      exact accept_sound sound first fresh
    · cases moved

theorem powerOff_clean (unconnected : ¬ (socket = .socket1 ∧ 0 < s.fdCommand .socket1))
    (other : ¬ (simCount = 2 ∧ socket = .socket2 ∧ 0 < s.fdCommand .socket2)) :
    powerOff simCount s socket = s := by
  unfold powerOff
  rw [if_neg unconnected,if_neg other]

theorem debugCallback_sound {selected : Option Selected} {outcome : DebugCommand} (sound : Sound s)
    (clean : Clean simCount s (.debugCallback selected outcome))
    (moved : debugCallback simCount s outcome = some next) : Sound next := by
  cases outcome with
  | failed =>
    cases moved
    exact sound
  | badArguments fd =>
    simp only [debugCallback] at moved
    split at moved
    · cases moved
      exact sound_opened sound fd
    · cases moved
  | run fd command sim_id sends =>
    obtain ⟨writes,off⟩ := clean
    simp only [debugCallback] at moved
    split at moved
    · rename_i fresh
      have same : next = s := by
        split at moved
        · obtain ⟨after,sent,closed⟩ := Option.map_eq_some_iff.mp moved
          rw [sendAll_ok writes sent,close_opened fresh] at closed
          exact closed.symm
        · split at moved
          · cases moved
          · split at moved
            · rename_i asked
              obtain ⟨unconnected,other⟩ := off asked
              have idle : powerOff simCount (opened s fd) (debugSocket simCount sim_id) = opened s fd :=
                powerOff_clean unconnected other
              rw [idle,close_opened fresh] at moved
              exact (Option.some.inj moved).symm
            · rw [close_opened fresh] at moved
              exact (Option.some.inj moved).symm
      rw [same]
      exact sound
    · cases moved

theorem clean_loop {action : Action} {selected : Option Selected} {ev : Ev}
    (came : ril_event_loop s ev selected = some next) (clean : Clean simCount s action) :
    Clean simCount next action := by
  have same : next.fdCommand = s.fdCommand := by
    cases selected with
    | none =>
      obtain ⟨rest,_,rfl⟩ := firePending_first came
      rfl
    | some selected =>
      simp only [ril_event_loop] at came
      split at came
      · obtain ⟨rest,_,rfl⟩ := firePending_first came
        rfl
      · cases came
  cases action with
  | debugCallback selected outcome =>
    cases outcome with
    | run fd command sim_id sends =>
      simp only [Clean,same] at clean ⊢
      exact clean
    | failed => trivial
    | badArguments fd => trivial
  | startListen socket fd => trivial
  | processWakeupCallback selected => trivial
  | listenCallback socket selected outcome => cases outcome <;> exact clean
  | processCommandsCallback socket selected sends ended => exact clean
  | sendResponseRaw socket send => exact clean

theorem step_sound (s : State) (action : Action) (next : State) (sound : Sound s)
    (clean : Clean simCount s action) (moved : step simCount s action = some next) : Sound next := by
  cases action with
  | startListen socket fd => exact startListen_sound sound moved
  | processWakeupCallback selected =>
    obtain ⟨queued,rest,good,first,rfl⟩ := loop_first sound moved
    exact served_sound good first rfl
  | listenCallback socket selected outcome =>
    obtain ⟨middle,came,called⟩ := Option.bind_eq_some_iff.mp moved
    obtain ⟨queued,rest,good,first,rfl⟩ := loop_first sound came
    apply listenCallback_sound good first _ called
    intro fd sends accepted
    subst accepted
    exact clean
  | processCommandsCallback socket selected sends ended =>
    obtain ⟨middle,came,called⟩ := Option.bind_eq_some_iff.mp moved
    obtain ⟨queued,rest,good,first,rfl⟩ := loop_first sound came
    have waiting : .commands socket ∈ queued.pending := by
      rw [first]
      exact List.mem_cons_self
    have nodup := good.nodup
    rw [first] at nodup
    exact processCommandsCallback_sound (served_sound good first rfl) (good.kept socket waiting)
      (List.nodup_cons.mp nodup).1 clean.1 clean.2 called
  | sendResponseRaw socket send =>
    rw [sendResponseRaw_ok clean moved]
    exact sound
  | debugCallback selected outcome =>
    obtain ⟨middle,came,called⟩ := Option.bind_eq_some_iff.mp moved
    have unchanged := clean_loop came clean
    obtain ⟨queued,rest,good,first,rfl⟩ := loop_first sound came
    exact debugCallback_sound (served_sound good first rfl) unchanged called

end Steps

theorem empty_tableSound (event : Ev → RilEvent) : TableSound ⟨event,fun _ => none,∅,0⟩ := by
  have idle : ∀ ev, ¬ Table.Watched ⟨event,fun _ => none,∅,0⟩ ev := by
    intro ev watched
    obtain ⟨place,held⟩ := watched
    cases held
  refine ⟨?_,?_,fun ev watched => absurd watched (idle ev),fun a b watched => absurd watched (idle a)⟩
  · intro i j ev held
    cases held
  · intro i ev held
    cases held

theorem initial_sound (event : Ev → RilEvent) (wakeup debug : Nat) :
    Sound (initial event wakeup debug) := by
  have empty := empty_tableSound event
  have nobody : ∀ ev, ¬ Table.Watched ⟨event,fun _ => none,∅,0⟩ ev := by
    intro ev watched
    obtain ⟨place,held⟩ := watched
    cases held
  obtain ⟨first,one,_,_,_⟩ := set_add_installed true empty (nobody .wakeup) wakeup rfl
    (fun other watched => absurd watched (nobody other))
  have onlyWakeup : ∀ ev, (ril_event_add (ril_event_set ⟨event,fun _ => none,∅,0⟩ .wakeup wakeup true)
      .wakeup).Watched ev → ev = .wakeup ∧ owner ev ≠ owner .debug := by
    intro ev watched
    obtain rfl := ((one ev).mp watched).resolve_left (nobody ev)
    exact ⟨rfl,by decide⟩
  obtain ⟨second,two,_,_,_⟩ := set_add_installed true first
    (fun watched => (onlyWakeup .debug watched).2 rfl) debug rfl
    (fun other watched => (onlyWakeup other watched).2)
  have service : ∀ ev, (initial event wakeup debug).table.Watched ev → ev = .wakeup ∨ ev = .debug := by
    intro ev watched
    exact ((two ev).mp watched).imp_left fun before => (onlyWakeup ev before).1
  have free : ∀ i, (initial event wakeup debug).fdCommand i = -1 := fun _ => rfl
  have nothing : (initial event wakeup debug).pending = [] := rfl
  refine ⟨second,?_,?_,?_,?_,?_,?_,?_,?_⟩
  · intro fd present
    simp only [initial,addEvent,setEvent,Finset.mem_insert,Finset.mem_singleton] at present
    rcases present with rfl | rfl <;> exact Int.natCast_nonneg _
  · intro i j connected
    exact absurd connected (by simp [free])
  · intro i connected
    exact absurd connected (by simp [free])
  · intro i _
    refine ⟨fun watched => ?_,fun either => ?_,fun started => ?_⟩
    · rcases service _ watched with wrong | wrong <;> cases wrong
    · rcases either with watched | waiting
      · rcases service _ watched with wrong | wrong <;> cases wrong
      · cases waiting
    · cases started
  · intro i waiting
    cases waiting
  · intro i waiting
    cases waiting
  · rw [nothing]
    exact List.nodup_nil
  · intro i started
    cases started

section Rounds
variable {simCount : Nat} {s next : State}

def Heard (s : State) : Prop := ∀ socket, .listen socket ∉ s.pending

theorem sendAll_pending {socket : SocketId} {sends : List Send}
    (sent : sendAll simCount s socket sends = some next) : next.pending = s.pending := by
  apply run_invariant (fun reached => reached.pending = s.pending) _ rfl sent
  intro before send after same moved
  simp only [sendResponseRaw] at moved
  split at moved
  · split at moved
    · cases moved
      exact same
    · cases moved
  · split at moved
    · cases moved
    · split at moved
      · cases moved
        exact same
      · cases moved
    · split at moved
      · cases moved
      · split at moved
        · cases moved
          split <;> exact same
        · cases moved

theorem callback_pending {socket : SocketId} {outcome : Accepted}
    (moved : listenCallback simCount s socket outcome = some next) : next.pending = s.pending := by
  cases outcome with
  | failed =>
    cases moved
    rfl
  | rejected fd =>
    simp only [listenCallback] at moved
    split at moved
    · cases moved
      rfl
    · cases moved
  | phone fd sends =>
    simp only [listenCallback] at moved
    split at moved
    · have same := sendAll_pending moved
      exact same
    · cases moved

theorem commands_pending {socket : SocketId} {sends : List Send} {ended : Bool}
    (moved : processCommandsCallback simCount s socket sends ended = some next) :
    next.pending = s.pending := by
  unfold processCommandsCallback at moved
  split at moved
  · cases moved
  · rename_i after sent
    have same := sendAll_pending sent
    split at moved
    · cases moved
      exact same
    · cases moved
      exact same

theorem powerOff_pending (s : State) (socket : SocketId) :
    (powerOff simCount s socket).pending = s.pending := by
  unfold powerOff
  split
  · rfl
  · split <;> rfl

theorem debug_pending {outcome : DebugCommand} (moved : debugCallback simCount s outcome = some next) :
    next.pending = s.pending := by
  cases outcome with
  | failed =>
    cases moved
    rfl
  | badArguments fd =>
    simp only [debugCallback] at moved
    split at moved
    · cases moved
      rfl
    · cases moved
  | run fd command sim_id sends =>
    simp only [debugCallback] at moved
    split at moved
    · split at moved
      · obtain ⟨after,sent,closed⟩ := Option.map_eq_some_iff.mp moved
        have same := sendAll_pending sent
        rw [← closed]
        exact same
      · split at moved
        · cases moved
        · split at moved
          · cases moved
            exact powerOff_pending _ _
          · cases moved
            rfl
    · cases moved

theorem loop_heard {ev : Ev} {selected : Option Selected} (heard : Heard s)
    (prompt : ∀ chosen, selected = some chosen →
      ∀ socket, .listen socket ∉ (s.table.ready chosen.rfds slots).tail)
    (came : ril_event_loop s ev selected = some next) : Heard next := by
  intro socket waiting
  cases selected with
  | none =>
    obtain ⟨rest,first,rfl⟩ := firePending_first came
    apply heard socket
    rw [first]
    exact List.mem_cons_of_mem _ waiting
  | some chosen =>
    simp only [ril_event_loop] at came
    split at came
    · rename_i returned
      obtain ⟨rest,first,rfl⟩ := firePending_first came
      obtain ⟨queued,⟨later,ready⟩,listed⟩ : ∃ queued, queued <+: s.table.ready chosen.rfds slots ∧
          (processReadReadies s chosen).pending = s.pending ++ queued :=
        readReadies_prefix (p := ⟨s.table,[],s.pending,[]⟩) slots_nodup
      have taken : s.pending ++ queued = ev :: rest := listed.symm.trans first
      rw [returned,List.nil_append] at taken
      apply prompt chosen rfl socket
      rw [← ready,taken]
      exact List.mem_append_left later waiting
    · cases came

theorem step_heard (s : State) (action : Action) (next : State) (heard : Heard s)
    (prompt : Prompt s action) (moved : step simCount s action = some next) : Heard next := by
  unfold Heard
  cases action with
  | startListen socket fd =>
    simp only [step,startListen] at moved
    split at moved
    · cases moved
      exact heard
    · cases moved
  | processWakeupCallback selected => exact loop_heard heard prompt moved
  | listenCallback socket selected outcome =>
    obtain ⟨middle,came,called⟩ := Option.bind_eq_some_iff.mp moved
    rw [callback_pending called]
    exact loop_heard heard prompt came
  | processCommandsCallback socket selected sends ended =>
    obtain ⟨middle,came,called⟩ := Option.bind_eq_some_iff.mp moved
    rw [commands_pending called]
    exact loop_heard heard prompt came
  | sendResponseRaw socket send =>
    have alone : sendAll simCount s socket [send] = some next := by
      simp only [sendAll,run]
      rw [show sendResponseRaw simCount s socket send = some next from moved]
      rfl
    rw [sendAll_pending alone]
    exact heard
  | debugCallback selected outcome =>
    obtain ⟨middle,came,called⟩ := Option.bind_eq_some_iff.mp moved
    rw [debug_pending called]
    exact loop_heard heard prompt came

end Rounds

-- Without one of the defects a socket is only ever unwired while its taken
-- listen_event waits for another callback of the same round.
theorem sockets_stay_wired {simCount : Nat} {event : Ev → RilEvent} {wakeup debug : Nat}
    {actions : List Action} {s : State}
    (clean : Obeys (step simCount) (Clean simCount) (initial event wakeup debug) actions)
    (ran : run (step simCount) (initial event wakeup debug) actions = some s) (socket : SocketId)
    (started : s.started socket = true) :
    (Wired s socket ↔ .listen socket ∉ s.pending) ∧
      (Obeys (step simCount) Prompt (initial event wakeup debug) actions → Wired s socket) := by
  have sound := obeys_invariant Sound step_sound (initial_sound event wakeup debug) clean ran
  refine ⟨sound_wired sound started,fun prompt => ?_⟩
  have quiet : Heard (initial event wakeup debug) := fun _ waiting => nomatch waiting
  exact (sound_wired sound started).mpr (obeys_invariant Heard step_heard quiet prompt ran socket)

def unset : Ev → RilEvent := fun _ => ⟨-1,-1,false,⟨0,0⟩⟩

def reconnecting : List Action :=
  [.startListen .socket1 5,.listenCallback .socket1 (some ⟨{5},1⟩) (.phone 6 [⟨8,[.bytes 4,.bytes 8]⟩]),
    .processCommandsCallback .socket1 (some ⟨{6},1⟩) [] true]

theorem sockets_stay_wired_reconnecting :
    Obeys (step 1) (Clean 1) (initial unset 3 4) reconnecting ∧
      Obeys (step 1) Prompt (initial unset 3 4) reconnecting ∧
      ∃ s, run (step 1) (initial unset 3 4) reconnecting = some s ∧ Wired s .socket1 := by
  have clean : Obeys (step 1) (Clean 1) (initial unset 3 4) reconnecting := by
    refine obeys_step rfl trivial (obeys_step rfl ?_ (obeys_step rfl ?_ trivial))
    · intro send present
      cases List.mem_singleton.mp present
      decide
    · refine ⟨?_,fun _ => rfl⟩
      intro send present
      cases present
  have prompt : Obeys (step 1) Prompt (initial unset 3 4) reconnecting := by
    refine obeys_step rfl nofun (obeys_step rfl ?_ (obeys_step rfl ?_ trivial))
    · rintro _ ⟨⟩ socket waiting
      cases waiting
    · rintro _ ⟨⟩ socket waiting
      cases waiting
  exact ⟨clean,prompt,_,rfl,(sockets_stay_wired clean rfl .socket1 rfl).2 prompt⟩

-- Both sockets are reported at once: the second waits for the first's callback.
def together : List Action :=
  [.startListen .socket1 5,.startListen .socket2 6,
    .listenCallback .socket1 (some ⟨{5,6},2⟩) (.phone 7 [])]

example : (run (step 2) (initial unset 3 4) together).map (·.pending) = some [.listen .socket2] := by
  decide +kernel

-- The second phone process goes away: it is the first socket that is listened to
-- once more, and the second never again.
def secondLeaves : List Action :=
  [.startListen .socket1 5,.startListen .socket2 6,.listenCallback .socket2 (some ⟨{6},1⟩) (.phone 7 []),
    .processCommandsCallback .socket2 (some ⟨{7},1⟩) [] true]

theorem second_socket_deaf : ¬ ∀ simCount, 1 ≤ simCount → simCount ≤ 4 →
    ∀ (event : Ev → RilEvent) (wakeup debug : Nat) (actions : List Action) (s : State),
      run (step simCount) (initial event wakeup debug) actions = some s →
        ∀ socket, s.started socket = true → Wired s socket := by
  intro wired
  have second := wired 2 (by decide) (by decide) unset 3 4 secondLeaves _ rfl .socket2 rfl
  have listening := second.2.mp (by decide)
  exact absurd listening (by decide)

end SemcMsm7x30.Connections

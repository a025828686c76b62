import SemcMsm7x30.EventTable
import SemcMsm7x30.LinkRing
import SemcMsm7x30.PartialMachine

namespace SemcMsm7x30
open LinkRing

-- The nodes with link fields: the two list heads and the events.
inductive Node (E : Type) where
  | timer_list
  | pending_list
  | event (ev : E)
  deriving DecidableEq

-- `fired` is the history of callback calls, with the descriptor passed.
structure Heap (E : Type) where
  links : Links (Node E)
  table : Table E
  fired : List (E × Int)

inductive LibraryCall (E : Type) where
  | timerAdd (ev : E) (tv : Option Timeval) (now : Timeval)
  | eventAdd (ev : E)
  | eventDel (ev : E)
  | eventSet (ev : E) (fd : Int) (persist : Bool)

-- What the callbacks run by one firePending call, in the order they are run.
abbrev Script (E : Type) := Nat → List (LibraryCall E)

inductive LibraryOp (E : Type) where
  | call (op : LibraryCall E)
  | processTimeouts (now : Timeval)
  | processReadReadies (rfds : Finset Int) (n : Int)
  | firePending (script : Script E)

section Functions
variable {E : Type} [DecidableEq E]

def init_list (links : Links (Node E)) (list : Node E) : Links (Node E) :=
  (links.setNext list (some list)).setPrev list (some list)

def Heap.addToList (h : Heap E) (ev list : Node E) : Option (Heap E) :=
  (insertBefore h.links ev list).map fun links => {h with links := links}

def Heap.removeFromList (h : Heap E) (ev : Node E) : Option (Heap E) :=
  (unlink h.links ev).map fun links => {h with links := links}

def Heap.timeout (h : Heap E) : Node E → Timeval
  | .timer_list | .pending_list => ⟨0,0⟩
  | .event ev => (h.table.event ev).timeout

-- A loop that follows links gets fuel; running out of it is no result.
def expireTimers : Nat → Timeval → Heap E → Node E → Option (Heap E)
  | 0,_,_,_ => none
  | fuel+1,now,h,tev =>
    if tev ≠ .timer_list ∧ now.after (h.timeout tev) = true then
      (h.links.next tev).bind fun next =>
      (h.removeFromList tev).bind fun h =>
      (h.addToList tev .pending_list).bind fun h =>
      expireTimers fuel now h next
    else some h

def Heap.processTimeouts (fuel : Nat) (h : Heap E) (now : Timeval) : Option (Heap E) :=
  (h.links.next .timer_list).bind fun tev => expireTimers fuel now h tev

def queueReady (h : Heap E) (rev : E) (i : Fin MAX_FD_EVENTS) : Option (Heap E) :=
  (h.addToList (.event rev) .pending_list).map fun h =>
    if (h.table.event rev).persist = false then {h with table := removeWatch h.table rev i} else h

def readReadies (rfds : Finset Int) : List (Fin MAX_FD_EVENTS) → Int → Heap E → Option (Heap E)
  | [],_,h => some h
  | i :: rest,n,h =>
    if 0 < n then
      match h.table.watch_table i with
      | none => readReadies rfds rest n h
      | some rev =>
        if (h.table.event rev).fd ∈ rfds then
          (queueReady h rev i).bind (readReadies rfds rest (n-1))
        else readReadies rfds rest n h
    else some h

def Heap.processReadReadies (h : Heap E) (rfds : Finset Int) (n : Int) : Option (Heap E) :=
  readReadies rfds slots n h

def findPlace : Nat → Heap E → Timeval → Node E → Option (Node E)
  | 0,_,_,_ => none
  | fuel+1,h,timeout,list =>
    if (h.timeout list).before timeout = true ∧ list ≠ .timer_list then
      (h.links.next list).bind (findPlace fuel h timeout)
    else some list

def Heap.ril_timer_add (fuel : Nat) (h : Heap E) (ev : E) (tv : Option Timeval) (now : Timeval) :
    Option (Heap E) :=
  match tv with
  | none => some h
  | some tv =>
    (h.links.next .timer_list).bind fun list =>
    let h := {h with table := setTimer h.table ev now tv}
    (findPlace fuel h (timeradd now tv) list).bind (h.addToList (.event ev))

-- The links are cleared with the rest of the event.
def Heap.ril_event_set (h : Heap E) (ev : E) (fd : Int) (persist : Bool) : Heap E :=
  {h with
    links := (h.links.setNext (.event ev) none).setPrev (.event ev) none
    table := SemcMsm7x30.ril_event_set h.table ev fd persist}

def Heap.call (fuel : Nat) (h : Heap E) : LibraryCall E → Option (Heap E)
  | .timerAdd ev tv now => h.ril_timer_add fuel ev tv now
  | .eventAdd ev => some {h with table := ril_event_add h.table ev}
  | .eventDel ev => some {h with table := ril_event_del h.table ev}
  | .eventSet ev fd persist => some (h.ril_event_set ev fd persist)

-- The list heads have no callback.
def fireEvents (script : Script E) : Nat → Nat → Heap E → Node E → Option (Heap E)
  | 0,_,_,_ => none
  | _+1,_,h,.pending_list => some h
  | _+1,_,_,.timer_list => none
  | fuel+1,count,h,.event ev =>
    (h.links.next (.event ev)).bind fun next =>
    (h.removeFromList (.event ev)).bind fun h =>
    let h := {h with fired := h.fired ++ [(ev,(h.table.event ev).fd)]}
    (PartialMachine.run (Heap.call fuel) h (script count)).bind fun h =>
    fireEvents script fuel (count+1) h next

def Heap.firePending (fuel : Nat) (h : Heap E) (script : Script E) : Option (Heap E) :=
  (h.links.next .pending_list).bind (fireEvents script fuel 0 h)

def Heap.step (fuel : Nat) (h : Heap E) : LibraryOp E → Option (Heap E)
  | .call op => h.call fuel op
  | .processTimeouts now => h.processTimeouts fuel now
  | .processReadReadies rfds n => h.processReadReadies rfds n
  | .firePending script => h.firePending fuel script

def Heap.calcNextTimeout (h : Heap E) (now : Timeval) : Option (Option Timeval) :=
  (h.links.next .timer_list).map fun tev =>
    if tev = .timer_list then none
    else if (h.timeout tev).after now then some (timersub (h.timeout tev) now)
    else some ⟨0,0⟩

def ril_event_init (h : Heap E) : Heap E :=
  {h with
    links := init_list (init_list h.links .timer_list) .pending_list
    table := {h.table with readFds := ∅,watch_table := fun _ => none}}

-- One turn of ril_event_loop after select() reported `rfds`.
def turn (now : Timeval) (rfds : Finset Int) (script : Script E) : List (LibraryOp E) :=
  [.processTimeouts now,.processReadReadies rfds rfds.card,.firePending script]

end Functions

end SemcMsm7x30

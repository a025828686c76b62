import SemcMsm7x30.RilEvent

namespace SemcMsm7x30
open PartialMachine

-- The event library over plain lists: what ril_event.cpp is meant to compute.
structure Lists (E : Type) where
  table : Table E
  timers : List E
  pending : List E
  fired : List (E × Int)

section Functions
variable {E : Type} [DecidableEq E]

def Lists.empty (table : Table E) (fired : List (E × Int)) : Lists E :=
  ⟨{table with readFds := ∅,watch_table := fun _ => none},[],[],fired⟩

def Table.expired (t : Table E) (now : Timeval) (ev : E) : Bool := now.after (t.event ev).timeout

def Table.earlier (t : Table E) (timeout : Timeval) (ev : E) : Bool :=
  (t.event ev).timeout.before timeout

def Lists.processTimeouts (p : Lists E) (now : Timeval) : Lists E :=
  {p with
    timers := p.timers.dropWhile (p.table.expired now)
    pending := p.pending ++ p.timers.takeWhile (p.table.expired now)}

def Lists.queueReady (p : Lists E) (rev : E) (i : Fin MAX_FD_EVENTS) : Lists E :=
  {p with
    pending := p.pending ++ [rev]
    table := if (p.table.event rev).persist = false then removeWatch p.table rev i else p.table}

def Lists.readReadies (rfds : Finset Int) : List (Fin MAX_FD_EVENTS) → Int → Lists E → Lists E
  | [],_,p => p
  | i :: rest,n,p =>
    if 0 < n then
      match p.table.watch_table i with
      | none => readReadies rfds rest n p
      | some rev =>
        if (p.table.event rev).fd ∈ rfds then readReadies rfds rest (n-1) (p.queueReady rev i)
        else readReadies rfds rest n p
    else p

def Lists.processReadReadies (p : Lists E) (rfds : Finset Int) (n : Int) : Lists E :=
  readReadies rfds slots n p

def Lists.timerAdd (p : Lists E) (ev : E) (tv : Option Timeval) (now : Timeval) : Lists E :=
  match tv with
  | none => p
  | some tv =>
    let table := setTimer p.table ev now tv
    {p with
      table := table
      timers := p.timers.takeWhile (table.earlier (timeradd now tv)) ++
        ev :: p.timers.dropWhile (table.earlier (timeradd now tv))}

def Lists.call (p : Lists E) : LibraryCall E → Lists E
  | .timerAdd ev tv now => p.timerAdd ev tv now
  | .eventAdd ev => {p with table := ril_event_add p.table ev}
  | .eventDel ev => {p with table := ril_event_del p.table ev}
  | .eventSet ev fd persist => {p with table := ril_event_set p.table ev fd persist}

def Lists.fire (p : Lists E) (ev : E) (rest : List E) : Lists E :=
  {p with pending := rest,fired := p.fired ++ [(ev,(p.table.event ev).fd)]}

def Lists.calls (p : Lists E) (ops : List (LibraryCall E)) : Lists E := ops.foldl Lists.call p

def fireAll (script : Script E) : Nat → List E → Lists E → Lists E
  | _,[],p => p
  | count,ev :: rest,p => fireAll script (count+1) rest ((p.fire ev rest).calls (script count))

def Lists.firePending (p : Lists E) (script : Script E) : Lists E := fireAll script 0 p.pending p

def Lists.calcNextTimeout (p : Lists E) (now : Timeval) : Option Timeval :=
  match p.timers with
  | [] => none
  | tev :: _ =>
    if (p.table.event tev).timeout.after now then some (timersub (p.table.event tev).timeout now)
    else some ⟨0,0⟩

def Lists.apply (p : Lists E) : LibraryOp E → Lists E
  | .call op => p.call op
  | .processTimeouts now => p.processTimeouts now
  | .processReadReadies rfds n => p.processReadReadies rfds n
  | .firePending script => p.firePending script

def Lists.Unlisted (p : Lists E) (ev : E) : Prop := ev ∉ p.timers ∧ ev ∉ p.pending

def Lists.Free (p : Lists E) (ev : E) : Prop := p.Unlisted ev ∧ ¬ p.table.Watched ev

def CallAllowed (p : Lists E) : LibraryCall E → Prop
  | .timerAdd ev (some _) _ => p.Free ev
  | .timerAdd _ none _ => True
  | .eventAdd ev => p.Free ev
  | .eventDel _ => True
  | .eventSet ev _ _ => p.Unlisted ev

def CallsAllowed (p : Lists E) (ops : List (LibraryCall E)) : Prop :=
  Obeys (fun p op => some (Lists.call p op)) CallAllowed p ops

def FireAllowed (script : Script E) : Nat → List E → Lists E → Prop
  | _,[],_ => True
  | count,ev :: rest,p => CallsAllowed (p.fire ev rest) (script count) ∧
    FireAllowed script (count+1) rest ((p.fire ev rest).calls (script count))

-- An event is added only when it is on no list and in no slot, and the callbacks
-- keep to that.
def Careful (p : Lists E) : LibraryOp E → Prop
  | .call op => CallAllowed p op
  | .processTimeouts _ | .processReadReadies _ _ => True
  | .firePending script => FireAllowed script 0 p.pending p

-- No event that would be queued still is on pending_list. ril_event_loop keeps
-- to it, because firePending empties the list.
def Unqueued (p : Lists E) : LibraryOp E → Prop
  | .processReadReadies rfds _ =>
    ∀ ev, p.table.Watched ev → (p.table.event ev).fd ∈ rfds → ev ∉ p.pending
  | .call _ | .processTimeouts _ | .firePending _ => True

def Allowed (p : Lists E) (op : LibraryOp E) : Prop := Careful p op ∧ Unqueued p op

end Functions

def Table.ordered {E : Type} (t : Table E) (a b : E) : Prop :=
  (t.event b).timeout.before (t.event a).timeout = false

structure Valid {E : Type} (p : Lists E) : Prop where
  single : p.table.Single
  unwatched : ∀ ev ∈ p.timers, ¬ p.table.Watched ev
  timers : p.timers.Nodup
  pending : p.pending.Nodup
  apart : ∀ ev ∈ p.timers, ev ∉ p.pending
  sorted : p.timers.Pairwise p.table.ordered

section Preserved
variable {E : Type} {p : Lists E}

theorem notEarlier_of_ordered {t : Table E} {a b : E} {limit : Timeval}
    (late : t.earlier limit a = false) (ordered : t.ordered a b) : t.earlier limit b = false := by
  unfold Table.earlier Table.ordered at *
  rw [← Bool.not_eq_true,before_iff] at late ordered ⊢
  omega

theorem empty_valid (table : Table E) (fired : List (E × Int)) : Valid (Lists.empty table fired) := by
  constructor <;> simp [Lists.empty,Table.Single]

theorem sorted_dropWhile {t : Table E} {timers : List E} (sorted : timers.Pairwise t.ordered)
    (limit : Timeval) : ∀ ev ∈ timers.dropWhile (t.earlier limit), t.earlier limit ev = false := by
  induction timers with
  | nil => simp
  | cons first rest ih =>
    obtain ⟨above,restSorted⟩ := List.pairwise_cons.mp sorted
    cases early : t.earlier limit first with
    | true =>
      rw [List.dropWhile_cons_of_pos early]
      exact ih restSorted
    | false =>
      rw [List.dropWhile_cons_of_neg (by simp [early])]
      intro ev present
      rcases List.mem_cons.mp present with rfl | later
      · exact early
      · exact notEarlier_of_ordered early (above ev later)

theorem sorted_of_fields {t next : Table E} {timers : List E}
    (same : ∀ ev ∈ timers, SameFields t next ev) (sorted : timers.Pairwise t.ordered) :
    timers.Pairwise next.ordered := by
  apply sorted.imp_of_mem
  intro a b presentA presentB ordered
  unfold Table.ordered at ordered ⊢
  rw [(same a presentA).timeout,(same b presentB).timeout]
  exact ordered

theorem valid_of_table {table : Table E} (valid : Valid p) (single : table.Single)
    (watched : ∀ ev ∈ p.timers, table.Watched ev → p.table.Watched ev)
    (same : ∀ ev ∈ p.timers, SameFields p.table table ev) : Valid {p with table := table} :=
  ⟨single,fun ev present new => valid.unwatched ev present (watched ev present new),valid.timers,
    valid.pending,valid.apart,sorted_of_fields same valid.sorted⟩

def Lists.expireFirst (p : Lists E) (ev : E) (rest : List E) : Lists E :=
  {p with timers := rest,pending := p.pending ++ [ev]}

theorem processTimeouts_first {now : Timeval} {ev : E} {rest : List E}
    (queue : p.timers = ev :: rest) (expired : p.table.expired now ev = true) :
    p.processTimeouts now = (p.expireFirst ev rest).processTimeouts now := by
  simp [Lists.processTimeouts,Lists.expireFirst,queue,expired]

theorem processTimeouts_done {now : Timeval}
    (done : ∀ ev rest, p.timers = ev :: rest → p.table.expired now ev = false) :
    p.processTimeouts now = p := by
  obtain ⟨table,timers,pending,fired⟩ := p
  cases timers with
  | nil => simp [Lists.processTimeouts]
  | cons ev rest =>
    have late : table.expired now ev = false := done ev rest rfl
    simp [Lists.processTimeouts,late]

theorem expireFirst_valid {ev : E} {rest : List E} (valid : Valid p) (queue : p.timers = ev :: rest) :
    Valid (p.expireFirst ev rest) := by
  obtain ⟨single,unwatched,timers,pending,apart,sorted⟩ := valid
  rw [queue] at unwatched timers apart sorted
  obtain ⟨notRest,restNodup⟩ := List.nodup_cons.mp timers
  refine ⟨single,fun other present => unwatched other (List.mem_cons_of_mem _ present),restNodup,?_,?_,
    (List.pairwise_cons.mp sorted).2⟩
  · apply List.nodup_append.mpr
    refine ⟨pending,by simp,fun a listed b new same => ?_⟩
    exact apart ev List.mem_cons_self (List.mem_singleton.mp new ▸ same ▸ listed)
  · intro other present
    simp only [Lists.expireFirst,List.mem_append,List.mem_singleton,not_or]
    exact ⟨apart other (List.mem_cons_of_mem _ present),fun same => notRest (same ▸ present)⟩

theorem processTimeouts_valid (valid : Valid p) (now : Timeval) : Valid (p.processTimeouts now) := by
  generalize timers : p.timers = queue
  induction queue generalizing p with
  | nil =>
    rw [processTimeouts_done (by simp [timers])]
    exact valid
  | cons ev rest ih =>
    cases expired : p.table.expired now ev with
    | true =>
      rw [processTimeouts_first timers expired]
      exact ih (expireFirst_valid valid timers) rfl
    | false =>
      rw [processTimeouts_done (by simp [timers,expired])]
      exact valid

theorem fire_valid {ev : E} {rest : List E} (valid : Valid p) (queue : p.pending = ev :: rest) :
    Valid (p.fire ev rest) := by
  have pending := valid.pending
  have apart := valid.apart
  rw [queue] at pending apart
  exact ⟨valid.single,valid.unwatched,valid.timers,(List.nodup_cons.mp pending).2,
    fun other present listed => apart other present (List.mem_cons_of_mem _ listed),valid.sorted⟩

variable [DecidableEq E]

theorem queueReady_valid {rev : E} {i : Fin MAX_FD_EVENTS} (valid : Valid p)
    (watched : p.table.watch_table i = some rev) (fresh : rev ∉ p.pending) :
    Valid (p.queueReady rev i) := by
  have outside : rev ∉ p.timers := fun present => valid.unwatched rev present ⟨i,watched⟩
  have pushed : Valid {p with pending := p.pending ++ [rev]} := by
    refine ⟨valid.single,valid.unwatched,valid.timers,?_,?_,valid.sorted⟩
    · exact List.nodup_append.mpr ⟨valid.pending,by simp,by
        intro a inPending b single same
        exact fresh (List.mem_singleton.mp single ▸ same ▸ inPending)⟩
    · intro ev present
      simp only [List.mem_append,List.mem_singleton,not_or]
      exact ⟨valid.apart ev present,fun same => outside (same ▸ present)⟩
  unfold Lists.queueReady
  split
  · apply valid_of_table pushed (removeWatch_single valid.single rev i)
    · exact fun ev _ ⟨j,held⟩ => ⟨j,(removeWatch_slot held).1⟩
    · exact fun ev _ => removeWatch_sameFields p.table rev i ev
  · exact pushed

theorem timerAdd_valid {ev : E} (valid : Valid p) (free : p.Free ev) (tv now : Timeval) :
    Valid (p.timerAdd ev (some tv) now) := by
  obtain ⟨⟨outside,unqueued⟩,unwatched⟩ := free
  have same : ∀ other ∈ p.timers, SameFields p.table (setTimer p.table ev now tv) other :=
    fun other present => update_sameFields fun equal => outside (equal ▸ present)
  have sorted := sorted_of_fields same valid.sorted
  have deadline : ((setTimer p.table ev now tv).event ev).timeout = timeradd now tv := by
    simp [setTimer,Table.update]
  have watched : (setTimer p.table ev now tv).watch_table = p.table.watch_table := rfl
  unfold Lists.timerAdd
  simp only
  generalize setTimer p.table ev now tv = table at *
  have late := sorted_dropWhile sorted (timeradd now tv)
  have early : ∀ a ∈ p.timers.takeWhile (table.earlier (timeradd now tv)),
      table.earlier (timeradd now tv) a = true := fun a present => List.mem_takeWhile_imp present
  have whole := List.takeWhile_append_dropWhile (p := table.earlier (timeradd now tv)) (l := p.timers)
  generalize p.timers.takeWhile (table.earlier (timeradd now tv)) = front at *
  generalize p.timers.dropWhile (table.earlier (timeradd now tv)) = back at *
  have members : ∀ other, other ∈ front ++ ev :: back ↔ other = ev ∨ other ∈ p.timers := by
    intro other
    rw [← whole]
    simp only [List.mem_append,List.mem_cons]
    tauto
  constructor
  case single =>
    unfold Table.Single
    rw [watched]
    exact valid.single
  case unwatched =>
    intro other present
    unfold Table.Watched at unwatched ⊢
    rw [watched]
    rcases (members other).mp present with rfl | old
    · exact unwatched
    · exact valid.unwatched other old
  case timers => exact (LinkRing.nodup_middle front back).mpr (whole ▸ ⟨outside,valid.timers⟩)
  case pending => exact valid.pending
  case apart =>
    intro other present
    rcases (members other).mp present with rfl | old
    · exact unqueued
    · exact valid.apart other old
  case sorted =>
    rw [← whole,List.pairwise_append] at sorted
    refine List.pairwise_append.mpr ⟨sorted.1,List.pairwise_cons.mpr ⟨?_,sorted.2.1⟩,?_⟩
    · intro b present
      unfold Table.ordered
      rw [deadline]
      exact late b present
    · intro a inFront b present
      rcases List.mem_cons.mp present with rfl | inBack
      · have before := early a inFront
        show (table.event b).timeout.before (table.event a).timeout = false
        unfold Table.earlier at before
        rw [deadline,← Bool.not_eq_true]
        rw [before_iff] at before ⊢
        omega
      · exact sorted.2.2 a inFront b inBack

theorem call_valid {op : LibraryCall E} (valid : Valid p) (allowed : CallAllowed p op) :
    Valid (p.call op) := by
  cases op with
  | timerAdd ev tv now =>
    cases tv with
    | none => exact valid
    | some tv => exact timerAdd_valid valid allowed tv now
  | eventAdd ev =>
    apply valid_of_table valid (add_single valid.single allowed.2)
    · intro other present ⟨i,held⟩
      rcases add_slot held with old | ⟨rfl,_⟩
      · exact ⟨i,old⟩
      · exact absurd present allowed.1.1
    · exact fun other _ => add_sameFields p.table ev other
  | eventDel ev =>
    apply valid_of_table valid (del_single valid.single ev)
    · exact fun other _ ⟨i,held⟩ => ⟨i,del_slot held⟩
    · exact fun other _ => del_sameFields p.table ev other
  | eventSet ev fd persist =>
    have single : (ril_event_set p.table ev fd persist).Single := valid.single
    apply valid_of_table valid single
    · exact fun _ _ watched => watched
    · exact fun other present => update_sameFields fun equal => allowed.1 (equal ▸ present)

theorem calls_valid {ops : List (LibraryCall E)} (valid : Valid p) (allowed : CallsAllowed p ops) :
    Valid (p.calls ops) := by
  induction ops generalizing p with
  | nil => exact valid
  | cons op rest ih => exact ih (call_valid valid allowed.1) (allowed.2 _ rfl)

theorem call_listed {op : LibraryCall E} (allowed : CallAllowed p op) :
    (p.call op).pending = p.pending ∧ (p.call op).fired = p.fired ∧
      ∀ ev ∈ p.pending, SameFields p.table (p.call op).table ev := by
  cases op with
  | timerAdd ev tv now =>
    cases tv with
    | none => exact ⟨rfl,rfl,fun ev _ => sameFields_refl p.table ev⟩
    | some tv =>
      refine ⟨rfl,rfl,fun other present => update_sameFields fun equal => ?_⟩
      exact allowed.1.2 (equal ▸ present)
  | eventAdd ev => exact ⟨rfl,rfl,fun other _ => add_sameFields p.table ev other⟩
  | eventDel ev => exact ⟨rfl,rfl,fun other _ => del_sameFields p.table ev other⟩
  | eventSet ev fd persist =>
    refine ⟨rfl,rfl,fun other present => update_sameFields fun equal => ?_⟩
    exact allowed.2 (equal ▸ present)

theorem calls_listed {ops : List (LibraryCall E)} (allowed : CallsAllowed p ops) :
    (p.calls ops).pending = p.pending ∧ (p.calls ops).fired = p.fired ∧
      ∀ ev ∈ p.pending, SameFields p.table (p.calls ops).table ev := by
  induction ops generalizing p with
  | nil => exact ⟨rfl,rfl,fun ev _ => sameFields_refl p.table ev⟩
  | cons op rest ih =>
    obtain ⟨pending,fired,same⟩ := call_listed allowed.1
    obtain ⟨pendingRest,firedRest,sameRest⟩ := ih (allowed.2 _ rfl)
    refine ⟨pendingRest.trans pending,firedRest.trans fired,fun ev present => ?_⟩
    exact (same ev present).trans (sameRest ev (pending ▸ present))

-- Every queued event is fired once, in order, whatever the callbacks do.
theorem fireAll_fires {script : Script E} {count : Nat} {queue : List E} (valid : Valid p)
    (queued : p.pending = queue) (allowed : FireAllowed script count queue p) :
    Valid (fireAll script count queue p) ∧ (fireAll script count queue p).pending = [] ∧
      (fireAll script count queue p).fired =
        p.fired ++ queue.map fun ev => (ev,(p.table.event ev).fd) := by
  induction queue generalizing p count with
  | nil => exact ⟨valid,queued,by simp [fireAll]⟩
  | cons ev rest ih =>
    obtain ⟨callback,later⟩ := allowed
    obtain ⟨pending,fired,same⟩ := calls_listed callback
    have after := calls_valid (fire_valid valid queued) callback
    obtain ⟨done,empty,all⟩ := ih after pending later
    refine ⟨done,empty,?_⟩
    unfold fireAll
    rw [all,fired]
    have fds : rest.map (fun other => (other,((((p.fire ev rest).calls (script count)).table.event
        other).fd))) = rest.map fun other => (other,(p.table.event other).fd) := by
      apply List.map_congr_left
      intro other present
      rw [(same other present).fd]
      rfl
    rw [fds]
    simp [Lists.fire]

def Table.ready (t : Table E) (rfds : Finset Int) (places : List (Fin MAX_FD_EVENTS)) : List E :=
  places.filterMap fun i => (t.watch_table i).filter fun ev => (t.event ev).fd ∈ rfds

omit [DecidableEq E] in
theorem mem_ready {t : Table E} {rfds : Finset Int} {places : List (Fin MAX_FD_EVENTS)} {ev : E} :
    ev ∈ t.ready rfds places ↔
      ∃ i ∈ places, t.watch_table i = some ev ∧ (t.event ev).fd ∈ rfds := by
  simp [Table.ready,List.mem_filterMap,Option.filter_eq_some_iff]

omit [DecidableEq E] in
theorem ready_cons {t : Table E} {rfds : Finset Int} {i : Fin MAX_FD_EVENTS}
    {rest : List (Fin MAX_FD_EVENTS)} :
    t.ready rfds (i :: rest) =
      ((t.watch_table i).filter fun ev => (t.event ev).fd ∈ rfds).toList ++ t.ready rfds rest := by
  unfold Table.ready
  rw [List.filterMap_cons]
  cases (t.watch_table i).filter fun ev => (t.event ev).fd ∈ rfds <;> rfl

omit [DecidableEq E] in
theorem ready_congr {t next : Table E} {rfds : Finset Int} {places : List (Fin MAX_FD_EVENTS)}
    (watch : ∀ i ∈ places, next.watch_table i = t.watch_table i)
    (same : ∀ ev, SameFields t next ev) : next.ready rfds places = t.ready rfds places := by
  unfold Table.ready
  apply List.filterMap_congr
  intro i present
  rw [watch i present]
  simp only [fun ev => (same ev).fd]

omit [DecidableEq E] in
theorem ready_nodup {t : Table E} (single : t.Single) (rfds : Finset Int)
    {places : List (Fin MAX_FD_EVENTS)} (nodup : places.Nodup) : (t.ready rfds places).Nodup := by
  apply nodup.filterMap
  intro i j ev atI atJ
  exact single i j ev (Option.filter_eq_some_iff.mp atI).1 (Option.filter_eq_some_iff.mp atJ).1

theorem queueReady_table (p : Lists E) (rev : E) (i : Fin MAX_FD_EVENTS) :
    (∀ j, j ≠ i → (p.queueReady rev i).table.watch_table j = p.table.watch_table j) ∧
      ∀ ev, SameFields p.table (p.queueReady rev i).table ev := by
  unfold Lists.queueReady
  simp only
  split
  · refine ⟨fun j other => ?_,removeWatch_sameFields p.table rev i⟩
    rw [removeWatch_watch,Function.update_of_ne other]
  · exact ⟨fun _ _ => rfl,sameFields_refl p.table⟩

theorem ready_kept {rfds : Finset Int} {i : Fin MAX_FD_EVENTS} {rest : List (Fin MAX_FD_EVENTS)}
    {rev : E} (notRest : i ∉ rest) :
    (p.queueReady rev i).table.ready rfds rest = p.table.ready rfds rest := by
  obtain ⟨watch,same⟩ := queueReady_table p rev i
  exact ready_congr (fun j present => watch j fun equal => notRest (equal ▸ present)) same

theorem ready_later {rfds : Finset Int} {i : Fin MAX_FD_EVENTS} {rest : List (Fin MAX_FD_EVENTS)}
    {rev : E} (notRest : i ∉ rest) (single : p.table.Single) (held : p.table.watch_table i = some rev)
    (fresh : ∀ ev ∈ p.table.ready rfds rest, ev ∉ p.pending) :
    (p.queueReady rev i).table.ready rfds rest = p.table.ready rfds rest ∧
      ∀ ev ∈ (p.queueReady rev i).table.ready rfds rest, ev ∉ (p.queueReady rev i).pending := by
  have ready : (p.queueReady rev i).table.ready rfds rest = p.table.ready rfds rest :=
    ready_kept notRest
  refine ⟨ready,?_⟩
  rw [ready]
  intro ev present listed
  rcases List.mem_append.mp listed with old | new
  · exact fresh ev present old
  · obtain ⟨j,inRest,atJ,_⟩ := mem_ready.mp present
    rw [List.mem_singleton.mp new] at atJ
    exact notRest (single j i rev atJ held ▸ inRest)

-- However many descriptors select() counted, what is queued comes first in slot order.
theorem readReadies_prefix {rfds : Finset Int} {places : List (Fin MAX_FD_EVENTS)} {n : Int}
    (nodup : places.Nodup) : ∃ queued, queued <+: p.table.ready rfds places ∧
      (Lists.readReadies rfds places n p).pending = p.pending ++ queued := by
  induction places generalizing p n with
  | nil => exact ⟨[],List.nil_prefix,(List.append_nil _).symm⟩
  | cons i rest ih =>
    obtain ⟨notRest,restNodup⟩ := List.nodup_cons.mp nodup
    unfold Lists.readReadies
    split
    · split
      · rename_i empty
        rw [show p.table.ready rfds (i :: rest) = p.table.ready rfds rest by simp [ready_cons,empty]]
        exact ih restNodup
      · rename_i rev held
        split
        · rename_i reported
          obtain ⟨queued,front,listed⟩ := ih (p := p.queueReady rev i) (n := n-1) restNodup
          rw [ready_kept notRest] at front
          have ready : p.table.ready rfds (i :: rest) = rev :: p.table.ready rfds rest := by
            simp [ready_cons,held,Option.filter,reported]
          rw [ready,listed]
          exact ⟨rev :: queued,List.cons_prefix_cons.mpr ⟨rfl,front⟩,List.append_assoc ..⟩
        · rename_i silent
          have ready : p.table.ready rfds (i :: rest) = p.table.ready rfds rest := by
            simp [ready_cons,held,Option.filter,silent]
          rw [ready]
          exact ih restNodup
    · exact ⟨[],List.nil_prefix,(List.append_nil _).symm⟩

theorem readReadies_queues {rfds : Finset Int} {places : List (Fin MAX_FD_EVENTS)} {n : Int}
    (nodup : places.Nodup) (valid : Valid p)
    (fresh : ∀ ev ∈ p.table.ready rfds places, ev ∉ p.pending) :
    Valid (Lists.readReadies rfds places n p) ∧
      (Lists.readReadies rfds places n p).fired = p.fired ∧
      (∀ ev, SameFields p.table (Lists.readReadies rfds places n p).table ev) ∧
      (((p.table.ready rfds places).length : Int) ≤ n →
        (Lists.readReadies rfds places n p).pending = p.pending ++ p.table.ready rfds places) := by
  induction places generalizing p n with
  | nil => exact ⟨valid,rfl,sameFields_refl p.table,by simp [Lists.readReadies,Table.ready]⟩
  | cons i rest ih =>
    obtain ⟨notRest,restNodup⟩ := List.nodup_cons.mp nodup
    have restFresh : ∀ ev ∈ p.table.ready rfds rest, ev ∉ p.pending := by
      intro ev present
      exact fresh ev (by rw [ready_cons]; exact List.mem_append_right _ present)
    unfold Lists.readReadies
    split
    · split
      · rename_i empty
        have ready : p.table.ready rfds (i :: rest) = p.table.ready rfds rest := by
          simp [ready_cons,empty]
        rw [ready]
        exact ih restNodup valid restFresh
      · rename_i rev held
        split
        · rename_i reported
          have ready : p.table.ready rfds (i :: rest) = rev :: p.table.ready rfds rest := by
            simp [ready_cons,held,Option.filter,reported]
          rw [ready] at fresh ⊢
          obtain ⟨rest',later⟩ := ready_later notRest valid.single held restFresh
          have queued := queueReady_valid valid held (fresh rev List.mem_cons_self)
          obtain ⟨done,fired,fields,all⟩ := ih (n := n-1) restNodup queued later
          refine ⟨done,fired,fun ev => ((queueReady_table p rev i).2 ev).trans (fields ev),?_⟩
          intro enough
          rw [rest'] at all
          simp only [List.length_cons,Nat.cast_add,Nat.cast_one] at enough
          rw [all (by omega)]
          simp [Lists.queueReady]
        · rename_i quiet
          have ready : p.table.ready rfds (i :: rest) = p.table.ready rfds rest := by
            simp [ready_cons,held,Option.filter,quiet]
          rw [ready]
          exact ih restNodup valid restFresh
    · rename_i spent
      refine ⟨valid,rfl,sameFields_refl p.table,fun enough => ?_⟩
      have none : p.table.ready rfds (i :: rest) = [] := by
        apply List.eq_nil_of_length_eq_zero
        omega
      rw [none,List.append_nil]

omit [DecidableEq E] in
theorem ready_le_card {t : Table E} (single : t.Single) (distinct : t.Distinct) (rfds : Finset Int) :
    (t.ready rfds slots).length ≤ rfds.card := by
  have nodup := ready_nodup single rfds slots_nodup
  have fds : ((t.ready rfds slots).map fun ev => (t.event ev).fd).Nodup := by
    apply nodup.map_on
    intro a inA b inB same
    obtain ⟨i,_,atI,_⟩ := mem_ready.mp inA
    obtain ⟨j,_,atJ,_⟩ := mem_ready.mp inB
    exact distinct a b ⟨i,atI⟩ ⟨j,atJ⟩ same
  have within : ((t.ready rfds slots).map fun ev => (t.event ev).fd).toFinset ⊆ rfds := by
    intro fd present
    obtain ⟨ev,inReady,rfl⟩ := List.mem_map.mp (List.mem_toFinset.mp present)
    exact (mem_ready.mp inReady).choose_spec.2.2
  have card := Finset.card_le_card within
  rwa [List.toFinset_card_of_nodup fds,List.length_map] at card

def Lists.expired (p : Lists E) (now : Timeval) : List E := p.timers.filter (p.table.expired now)

def Lists.due (p : Lists E) (now : Timeval) (rfds : Finset Int) : List E :=
  p.expired now ++ p.table.ready rfds slots

omit [DecidableEq E] in
theorem takeWhile_expired (valid : Valid p) (now : Timeval) :
    p.timers.takeWhile (p.table.expired now) = p.expired now := by
  have same : p.table.expired now = p.table.earlier now := by
    funext ev
    exact after_eq_before _ _
  have late := sorted_dropWhile valid.sorted now
  rw [← same] at late
  have whole := List.takeWhile_append_dropWhile (p := p.table.expired now) (l := p.timers)
  have none : (p.timers.dropWhile (p.table.expired now)).filter (p.table.expired now) = [] := by
    apply List.filter_eq_nil_iff.mpr
    intro ev present
    simp [late ev present]
  have all : (p.timers.takeWhile (p.table.expired now)).filter (p.table.expired now) =
      p.timers.takeWhile (p.table.expired now) := by
    apply List.filter_eq_self.mpr
    exact fun ev present => List.mem_takeWhile_imp present
  unfold Lists.expired
  conv_rhs => rw [← whole,List.filter_append,none,all,List.append_nil]

def Lists.queue (p : Lists E) (now : Timeval) (rfds : Finset Int) : Lists E :=
  (p.processTimeouts now).processReadReadies rfds rfds.card

omit [DecidableEq E] in
theorem turn_unqueued (valid : Valid p) (idle : p.pending = []) (now : Timeval) (rfds : Finset Int)
    (n : Int) : Unqueued (p.processTimeouts now) (.processReadReadies rfds n) := by
  intro ev watched _ listed
  simp only [Lists.processTimeouts,idle,List.nil_append] at listed
  exact valid.unwatched ev ((List.takeWhile_prefix _).subset listed) watched

theorem queue_due (valid : Valid p) (idle : p.pending = []) (distinct : p.table.Distinct)
    (now : Timeval) (rfds : Finset Int) :
    Valid (p.queue now rfds) ∧ (p.queue now rfds).pending = p.due now rfds ∧
      (p.queue now rfds).fired = p.fired ∧
      ∀ ev, SameFields p.table (p.queue now rfds).table ev := by
  have moved := processTimeouts_valid valid now
  have fresh : ∀ ev ∈ (p.processTimeouts now).table.ready rfds slots,
      ev ∉ (p.processTimeouts now).pending := by
    intro ev present
    obtain ⟨i,_,atI,reported⟩ := mem_ready.mp present
    exact turn_unqueued valid idle now rfds rfds.card ev ⟨i,atI⟩ reported
  obtain ⟨done,fired,same,all⟩ := readReadies_queues (n := rfds.card)
    slots_nodup moved fresh
  refine ⟨done,?_,fired,same⟩
  have enough := ready_le_card valid.single distinct rfds
  rw [show (p.queue now rfds).pending = _ from all (by exact_mod_cast enough)]
  simp only [Lists.processTimeouts,idle,List.nil_append,Lists.due,takeWhile_expired valid]

omit [DecidableEq E] in
theorem due_nodup (valid : Valid p) (now : Timeval) (rfds : Finset Int) : (p.due now rfds).Nodup := by
  apply List.nodup_append.mpr
  refine ⟨valid.timers.filter _,ready_nodup valid.single rfds slots_nodup,?_⟩
  intro a inTimers b inReady same
  obtain ⟨i,_,atI,_⟩ := mem_ready.mp inReady
  exact valid.unwatched b (same ▸ List.mem_of_mem_filter inTimers) ⟨i,atI⟩

theorem turn_fires {now : Timeval} {rfds : Finset Int} {script : Script E} (valid : Valid p)
    (idle : p.pending = []) (distinct : p.table.Distinct)
    (callbacks : FireAllowed script 0 (p.due now rfds) (p.queue now rfds)) :
    ((turn now rfds script).foldl Lists.apply p).pending = [] ∧
      ((turn now rfds script).foldl Lists.apply p).fired =
        p.fired ++ (p.due now rfds).map fun ev => (ev,(p.table.event ev).fd) := by
  obtain ⟨queued,due,fired,same⟩ := queue_due valid idle distinct now rfds
  have whole : (turn now rfds script).foldl Lists.apply p =
      fireAll script 0 (p.due now rfds) (p.queue now rfds) := by
    rw [← due]
    rfl
  obtain ⟨_,empty,all⟩ := fireAll_fires queued due callbacks
  rw [whole,all,fired]
  refine ⟨empty,?_⟩
  simp only [fun ev => (same ev).fd]

end Preserved

end SemcMsm7x30

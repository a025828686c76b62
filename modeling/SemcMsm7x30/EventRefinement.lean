import SemcMsm7x30.EventLists
import SemcMsm7x30.FuelRefinement

namespace SemcMsm7x30.EventRefinement
open LinkRing PartialMachine FuelRefinement
variable {E : Type}

-- The links of the heap are the plain lists, as rings through their heads.
structure Represents (p : Lists E) (h : Heap E) : Prop where
  table : h.table = p.table
  fired : h.fired = p.fired
  timers : Ring h.links .timer_list (p.timers.map .event)
  pending : Ring h.links .pending_list (p.pending.map .event)

structure Stands (p : Lists E) (h : Heap E) : Prop where
  valid : Valid p
  represents : Represents p h

theorem events_frame {links other : Links (Node E)} {head : Node E} {events : List E}
    {touched : List (Node E)} (ring : Ring links head (events.map .event))
    (outside : Outside links other touched) (headApart : head ∉ touched)
    (apart : ∀ ev ∈ events, .event ev ∉ touched) : Ring other head (events.map .event) := by
  apply ring_frame ring touched outside
  intro n present
  rcases List.mem_cons.mp present with rfl | listed
  · exact headApart
  · obtain ⟨ev,inside,rfl⟩ := List.mem_map.mp listed
    exact apart ev inside

theorem event_mem {events : List E} {ev : E} : Node.event ev ∈ events.map Node.event ↔ ev ∈ events := by
  simp

section Moves
variable [DecidableEq E] {p : Lists E} {h : Heap E}

theorem init_stands (h : Heap E) : Stands (Lists.empty h.table h.fired) (ril_event_init h) := by
  refine ⟨empty_valid _ _,rfl,rfl,ring_empty ?_ ?_,ring_empty ?_ ?_⟩ <;>
    simp [ril_event_init,init_list,Links.setNext,Links.setPrev]

theorem addToList_eq {ev list : Node E} {links : Links (Node E)}
    (inserted : insertBefore h.links ev list = some links) :
    h.addToList ev list = some {h with links := links} := by
  rw [Heap.addToList,inserted]
  rfl

theorem removeFromList_eq {ev : Node E} {links : Links (Node E)}
    (unlinked : unlink h.links ev = some links) :
    h.removeFromList ev = some {h with links := links} := by
  rw [Heap.removeFromList,unlinked]
  rfl

theorem addToList_pending {ev : E} (rep : Represents p h)
    (apart : ∀ other ∈ p.timers, other ∉ p.pending) (outside : ev ∉ p.timers)
    (fresh : ev ∉ p.pending) :
    ∃ h', h.addToList (.event ev) .pending_list = some h' ∧
      Represents {p with pending := p.pending ++ [ev]} h' := by
  have ring := rep.pending
  rw [← List.append_nil (p.pending.map Node.event)] at ring
  obtain ⟨links,inserted,new,rest⟩ := insertBefore_ring ring
    (show Node.event ev ∉ _ by simp [fresh])
  refine ⟨_,addToList_eq inserted,rep.table,rep.fired,?_,by simpa using new⟩
  apply events_frame rep.timers rest (by simp)
  intro other present
  simp only [List.append_nil,List.mem_cons,Node.event.injEq,reduceCtorEq,false_or,event_mem,not_or]
  exact ⟨fun same => outside (same ▸ present),apart other present⟩

theorem removeFromList_timers {ev : E} {rest : List E} (rep : Represents p h) (valid : Valid p)
    (queue : p.timers = ev :: rest) :
    ∃ h', h.removeFromList (.event ev) = some h' ∧ Represents {p with timers := rest} h' := by
  have ring := rep.timers
  rw [queue,List.map_cons,← List.nil_append (Node.event ev :: rest.map Node.event)] at ring
  obtain ⟨links,unlinked,new,others⟩ := unlink_ring ring
  refine ⟨_,removeFromList_eq unlinked,rep.table,rep.fired,new,?_⟩
  apply events_frame rep.pending others (by simp)
  intro other present
  simp only [List.nil_append,List.mem_cons,Node.event.injEq,reduceCtorEq,false_or,event_mem,not_or]
  have apart := valid.apart other
  rw [queue,List.mem_cons] at apart
  exact ⟨fun same => apart (.inl same) present,fun later => apart (.inr later) present⟩

theorem removeFromList_pending {ev : E} {rest : List E} (rep : Represents p h) (valid : Valid p)
    (queue : p.pending = ev :: rest) :
    ∃ h', h.removeFromList (.event ev) = some h' ∧ Represents {p with pending := rest} h' := by
  have ring := rep.pending
  rw [queue,List.map_cons,← List.nil_append (Node.event ev :: rest.map Node.event)] at ring
  obtain ⟨links,unlinked,new,others⟩ := unlink_ring ring
  refine ⟨_,removeFromList_eq unlinked,rep.table,rep.fired,?_,new⟩
  apply events_frame rep.timers others (by simp)
  intro other present
  simp only [List.nil_append,List.mem_cons,Node.event.injEq,reduceCtorEq,false_or,event_mem,not_or]
  have apart := valid.apart other present
  rw [queue,List.mem_cons,not_or] at apart
  exact apart

def firstNode (head : Node E) (events : List E) : Node E := (events.map Node.event).headD head

omit [DecidableEq E] in
theorem represents_table {table : Table E} (rep : Represents p h) :
    Represents {p with table := table} {h with table := table} :=
  ⟨rfl,rep.fired,rep.timers,rep.pending⟩

end Moves

section Timeouts
variable [DecidableEq E]

omit [DecidableEq E] in
theorem firstNode_next {head : Node E} {links : Links (Node E)} {events : List E}
    (ring : Ring links head (events.map .event)) : links.next head = some (firstNode head events) :=
  chain_next ring.chain

theorem expireTimers_represents (now : Timeval) {timers : List E} {p : Lists E} {h : Heap E}
    {fuel : Nat} (enough : timers.length < fuel) (valid : Valid p) (rep : Represents p h)
    (queue : p.timers = timers) :
    ∃ h', expireTimers fuel now h (firstNode .timer_list timers) = some h' ∧
      Represents (p.processTimeouts now) h' := by
  induction timers generalizing p h fuel with
  | nil =>
    obtain ⟨fuel,rfl⟩ := Nat.exists_eq_add_one.mpr enough
    rw [processTimeouts_done (by simp [queue])]
    exact ⟨h,by simp [expireTimers,firstNode],rep⟩
  | cons ev rest ih =>
    obtain ⟨fuel,rfl⟩ := Nat.exists_eq_add_one.mpr (Nat.lt_of_le_of_lt (Nat.zero_le _) enough)
    have timeout : h.timeout (.event ev) = (p.table.event ev).timeout := by
      rw [← rep.table]
      rfl
    cases expired : p.table.expired now ev with
    | true =>
      rw [processTimeouts_first queue expired]
      have moved := expireFirst_valid valid queue
      have due : now.after (h.timeout (.event ev)) = true := by
        rw [timeout]
        exact expired
      have ring := rep.timers
      rw [queue] at ring
      have next : h.links.next (.event ev) = some (firstNode .timer_list rest) :=
        chain_next ring.chain.2.2
      obtain ⟨one,removed,repOne⟩ := removeFromList_timers rep valid queue
      have timers := valid.timers
      have apart := valid.apart
      rw [queue] at timers apart
      obtain ⟨two,added,repTwo⟩ := addToList_pending repOne
        (fun other present => apart other (List.mem_cons_of_mem _ present))
        (List.nodup_cons.mp timers).1 (apart ev List.mem_cons_self)
      obtain ⟨last,ran,done⟩ := ih (Nat.lt_of_succ_lt_succ enough) moved repTwo rfl
      refine ⟨last,?_,done⟩
      simp only [expireTimers,firstNode,List.map_cons,List.headD_cons,ne_eq,reduceCtorEq,
        not_false_eq_true,due,and_self,if_true,next,removed,added,Option.bind_some]
      exact ran
    | false =>
      rw [processTimeouts_done (by simp [queue,expired])]
      refine ⟨h,?_,rep⟩
      have late : now.after (h.timeout (.event ev)) = false := by
        rw [timeout]
        exact expired
      simp [expireTimers,firstNode,late]

theorem processTimeouts_refines (p : Lists E) (now : Timeval) :
    Refines Stands (fun fuel h => h.processTimeouts fuel now) p (p.processTimeouts now) := by
  refine ⟨p.timers.length+1,fun fuel enough h stands => ?_⟩
  obtain ⟨h',ran,rep⟩ := expireTimers_represents now enough stands.valid stands.represents rfl
  refine ⟨h',?_,processTimeouts_valid stands.valid now,rep⟩
  simp only [Heap.processTimeouts,firstNode_next stands.represents.timers,Option.bind_some]
  exact ran

theorem calcNextTimeout_represents {p : Lists E} {h : Heap E} (rep : Represents p h) (now : Timeval) :
    h.calcNextTimeout now = some (p.calcNextTimeout now) := by
  have next := firstNode_next rep.timers
  unfold Heap.calcNextTimeout Lists.calcNextTimeout
  rw [next]
  cases queue : p.timers with
  | nil => rfl
  | cons tev rest =>
    have timeout : h.timeout (.event tev) = (p.table.event tev).timeout := by
      rw [← rep.table]
      rfl
    simp [firstNode,timeout]

end Timeouts

section Readies
variable [DecidableEq E]

theorem queueReady_represents {p : Lists E} {h : Heap E} {rev : E} {i : Fin MAX_FD_EVENTS}
    (valid : Valid p) (rep : Represents p h) (watched : p.table.watch_table i = some rev)
    (fresh : rev ∉ p.pending) :
    ∃ h', queueReady h rev i = some h' ∧ Represents (p.queueReady rev i) h' := by
  have outside : rev ∉ p.timers := fun present => valid.unwatched rev present ⟨i,watched⟩
  obtain ⟨one,added,repOne⟩ := addToList_pending rep valid.apart outside fresh
  refine ⟨_,by rw [queueReady,added]; rfl,?_⟩
  have table : one.table = p.table := repOne.table
  unfold Lists.queueReady
  simp only [table]
  split
  · exact represents_table repOne
  · exact ⟨table,repOne.fired,repOne.timers,repOne.pending⟩

theorem readReadies_represents {rfds : Finset Int} {places : List (Fin MAX_FD_EVENTS)} {n : Int}
    {p : Lists E} {h : Heap E} (nodup : places.Nodup) (valid : Valid p) (rep : Represents p h)
    (fresh : ∀ ev ∈ p.table.ready rfds places, ev ∉ p.pending) :
    ∃ h', readReadies rfds places n h = some h' ∧
      Represents (Lists.readReadies rfds places n p) h' := by
  induction places generalizing p h n with
  | nil => exact ⟨h,rfl,rep⟩
  | cons i rest ih =>
    obtain ⟨notRest,restNodup⟩ := List.nodup_cons.mp nodup
    have restFresh : ∀ ev ∈ p.table.ready rfds rest, ev ∉ p.pending := by
      intro ev present
      exact fresh ev (by rw [ready_cons]; exact List.mem_append_right _ present)
    unfold readReadies Lists.readReadies
    simp only [rep.table]
    by_cases counting : 0 < n
    · rw [if_pos counting,if_pos counting]
      cases held : p.table.watch_table i with
      | none => exact ih restNodup valid rep restFresh
      | some rev =>
        simp only
        by_cases reported : (p.table.event rev).fd ∈ rfds
        · have unqueued : rev ∉ p.pending :=
            fresh rev (mem_ready.mpr ⟨i,List.mem_cons_self,held,reported⟩)
          obtain ⟨one,queued,repOne⟩ := queueReady_represents valid rep held unqueued
          rw [if_pos reported,if_pos reported,queued,Option.bind_some]
          exact ih restNodup (queueReady_valid valid held unqueued) repOne
            (ready_later notRest valid.single held restFresh).2
        · rw [if_neg reported,if_neg reported]
          exact ih restNodup valid rep restFresh
    · rw [if_neg counting,if_neg counting]
      exact ⟨h,rfl,rep⟩

theorem processReadReadies_refines (p : Lists E) (rfds : Finset Int) (n : Int)
    (unqueued : Unqueued p (.processReadReadies rfds n)) :
    Refines Stands (fun _ h => h.processReadReadies rfds n) p (p.processReadReadies rfds n) := by
  have fresh : ∀ ev ∈ p.table.ready rfds slots, ev ∉ p.pending := by
    intro ev present
    obtain ⟨i,_,held,reported⟩ := mem_ready.mp present
    exact unqueued ev ⟨i,held⟩ reported
  refine ⟨0,fun _ _ h stands => ?_⟩
  obtain ⟨h',ran,rep⟩ := readReadies_represents slots_nodup stands.valid stands.represents fresh
  exact ⟨h',ran,(readReadies_queues slots_nodup stands.valid fresh).1,rep⟩

end Readies

section Calls
variable [DecidableEq E]

theorem findPlace_first {h : Heap E} (timeout : Timeval) {before : Node E} {rest : List E} {fuel : Nat}
    (enough : rest.length < fuel) (chain : Chain h.links before (rest.map .event) .timer_list) :
    findPlace fuel h timeout (firstNode .timer_list rest) =
      some (firstNode .timer_list (rest.dropWhile (h.table.earlier timeout))) := by
  induction rest generalizing before fuel with
  | nil =>
    obtain ⟨fuel,rfl⟩ := Nat.exists_eq_add_one.mpr enough
    simp [findPlace,firstNode]
  | cons ev rest ih =>
    obtain ⟨fuel,rfl⟩ := Nat.exists_eq_add_one.mpr (Nat.lt_of_le_of_lt (Nat.zero_le _) enough)
    have next : h.links.next (.event ev) = some (firstNode .timer_list rest) := chain_next chain.2.2
    cases early : h.table.earlier timeout ev with
    | true =>
      have before : (h.timeout (.event ev)).before timeout = true := early
      rw [List.dropWhile_cons_of_pos early,← ih (Nat.lt_of_succ_lt_succ enough) chain.2.2]
      simp [findPlace,firstNode,before,next]
    | false =>
      have before : (h.timeout (.event ev)).before timeout = false := early
      rw [List.dropWhile_cons_of_neg (by simp [early])]
      simp [findPlace,firstNode,before]

theorem addToList_timers {p : Lists E} {h : Heap E} {ev : E} {front back : List E}
    (rep : Represents p h) (valid : Valid p) (free : p.Unlisted ev) (whole : p.timers = front ++ back) :
    ∃ h', h.addToList (.event ev) (firstNode .timer_list back) = some h' ∧
      Represents {p with timers := front ++ ev :: back} h' := by
  have ring := rep.timers
  rw [whole,List.map_append] at ring
  have outside := free.1
  rw [whole] at outside
  obtain ⟨links,inserted,new,rest⟩ := insertBefore_ring ring
    (show Node.event ev ∉ _ by simpa using outside)
  refine ⟨_,addToList_eq inserted,rep.table,rep.fired,by simpa using new,?_⟩
  apply events_frame rep.pending rest (by simp)
  intro other present
  have apart : other ∉ front ++ back := fun listed => valid.apart other (whole ▸ listed) present
  simp only [← List.map_append,List.mem_cons,Node.event.injEq,reduceCtorEq,false_or,event_mem,not_or]
  exact ⟨fun same => free.2 (same ▸ present),apart⟩

theorem timerAdd_refines (p : Lists E) (ev : E) (tv : Option Timeval) (now : Timeval)
    (allowed : CallAllowed p (.timerAdd ev tv now)) :
    Refines Stands (fun fuel h => h.ril_timer_add fuel ev tv now) p (p.timerAdd ev tv now) := by
  cases tv with
  | none => exact refines_refl p
  | some tv =>
    have free : p.Free ev := allowed
    refine ⟨p.timers.length+1,fun fuel enough h stands => ?_⟩
    obtain ⟨valid,rep⟩ := stands
    have stamped : Valid {p with table := setTimer p.table ev now tv} := by
      have single : (setTimer p.table ev now tv).Single := valid.single
      apply valid_of_table valid single
      · exact fun _ _ watched => watched
      · exact fun other present => update_sameFields fun equal => free.1.1 (equal ▸ present)
    have repStamped : Represents {p with table := setTimer p.table ev now tv}
        {h with table := setTimer p.table ev now tv} := represents_table rep
    obtain ⟨h',added,repDone⟩ := addToList_timers repStamped stamped free.1
      (List.takeWhile_append_dropWhile
        (p := (setTimer p.table ev now tv).earlier (timeradd now tv)) (l := p.timers)).symm
    refine ⟨h',?_,timerAdd_valid valid free tv now,repDone⟩
    have place := findPlace_first (h := {h with table := setTimer p.table ev now tv}) (timeradd now tv)
      enough rep.timers.chain
    simp only [Heap.ril_timer_add,firstNode_next rep.timers,Option.bind_some,rep.table,place]
    exact added

theorem call_refines (p : Lists E) (op : LibraryCall E) (allowed : CallAllowed p op) :
    Refines Stands (fun fuel h => h.call fuel op) p (p.call op) := by
  cases op with
  | timerAdd ev tv now => exact timerAdd_refines p ev tv now allowed
  | eventAdd ev =>
    refine ⟨0,fun _ _ h stands => ⟨_,rfl,call_valid stands.valid allowed,?_⟩⟩
    rw [stands.represents.table]
    exact represents_table stands.represents
  | eventDel ev =>
    refine ⟨0,fun _ _ h stands => ⟨_,rfl,call_valid stands.valid allowed,?_⟩⟩
    rw [stands.represents.table]
    exact represents_table stands.represents
  | eventSet ev fd persist =>
    refine ⟨0,fun _ _ h stands => ⟨_,rfl,call_valid stands.valid allowed,?_⟩⟩
    have cleared : Outside h.links (h.ril_event_set ev fd persist).links [.event ev] := by
      intro n other
      have differs : n ≠ .event ev := fun same => other (by simp [same])
      simp [Heap.ril_event_set,Links.setNext,Links.setPrev,Function.update_of_ne differs]
    have rep := stands.represents
    refine ⟨congrArg (ril_event_set · ev fd persist) rep.table,rep.fired,?_,?_⟩
    · apply events_frame rep.timers cleared (by simp)
      exact fun other present same => allowed.1 (by simp at same; exact same ▸ present)
    · apply events_frame rep.pending cleared (by simp)
      exact fun other present same => allowed.2 (by simp at same; exact same ▸ present)

theorem calls_refines (p : Lists E) (ops : List (LibraryCall E)) (allowed : CallsAllowed p ops) :
    Refines Stands (fun fuel h => run (Heap.call fuel) h ops) p (p.calls ops) :=
  run_refines call_refines allowed

-- The walk of firePending, where the next event is read before the callback
-- runs. No callback moves it.
theorem fireEvents_refines (script : Script E) {queue : List E} {count : Nat} {p : Lists E}
    (queued : p.pending = queue) (allowed : FireAllowed script count queue p) :
    ∃ bound, ∀ fuel, bound ≤ fuel → ∀ h, Stands p h →
      ∃ h', fireEvents script fuel count h (firstNode .pending_list queue) = some h' ∧
        Stands (fireAll script count queue p) h' := by
  induction queue generalizing p count with
  | nil =>
    refine ⟨1,fun fuel enough h stands => ?_⟩
    obtain ⟨fuel,rfl⟩ := Nat.exists_eq_add_one.mpr enough
    exact ⟨h,rfl,stands⟩
  | cons ev rest ih =>
    obtain ⟨callback,later⟩ := allowed
    obtain ⟨first,calls⟩ := calls_refines _ _ callback
    obtain ⟨second,fires⟩ := ih (calls_listed callback).1 later
    refine ⟨max first second+1,fun fuel enough h stands => ?_⟩
    obtain ⟨fuel,rfl⟩ := Nat.exists_eq_add_one.mpr (Nat.lt_of_lt_of_le (Nat.succ_pos _) enough)
    have ring := stands.represents.pending
    rw [queued] at ring
    have next : h.links.next (.event ev) = some (firstNode .pending_list rest) :=
      chain_next ring.chain.2.2
    obtain ⟨one,removed,repOne⟩ := removeFromList_pending stands.represents stands.valid queued
    have repFired : Represents (p.fire ev rest)
        {one with fired := one.fired ++ [(ev,(one.table.event ev).fd)]} := by
      refine ⟨repOne.table,?_,repOne.timers,repOne.pending⟩
      simp only [Lists.fire,repOne.fired,repOne.table]
    obtain ⟨two,ran,standsTwo⟩ := calls fuel (by omega) _ ⟨fire_valid stands.valid queued,repFired⟩
    obtain ⟨last,fired,done⟩ := fires fuel (by omega) two standsTwo
    refine ⟨last,?_,done⟩
    simp only [fireEvents,firstNode,List.map_cons,List.headD_cons,next,removed,Option.bind_some,ran]
    exact fired

theorem firePending_refines (p : Lists E) (script : Script E)
    (allowed : FireAllowed script 0 p.pending p) :
    Refines Stands (fun fuel h => h.firePending fuel script) p (p.firePending script) := by
  obtain ⟨bound,fires⟩ := fireEvents_refines script rfl allowed
  refine ⟨bound,fun fuel enough h stands => ?_⟩
  obtain ⟨h',ran,done⟩ := fires fuel enough h stands
  refine ⟨h',?_,done⟩
  simp only [Heap.firePending,firstNode_next stands.represents.pending,Option.bind_some]
  exact ran

theorem step_refines (p : Lists E) (op : LibraryOp E) (allowed : Allowed p op) :
    Refines Stands (fun fuel h => h.step fuel op) p (p.apply op) := by
  cases op with
  | call op => exact call_refines p op allowed.1
  | processTimeouts now => exact processTimeouts_refines p now
  | processReadReadies rfds n => exact processReadReadies_refines p rfds n allowed.2
  | firePending script => exact firePending_refines p script allowed.1

end Calls

section Library
variable [DecidableEq E]

def start (h : Heap E) : Lists E := Lists.empty h.table h.fired

theorem library_refines (h : Heap E) {ops : List (LibraryOp E)}
    (allowed : Obeys (fun p op => some (Lists.apply p op)) Allowed (start h) ops) :
    ∃ bound, ∀ fuel, bound ≤ fuel → ∃ h', run (Heap.step fuel) (ril_event_init h) ops = some h' ∧
      Stands (ops.foldl Lists.apply (start h)) h' := by
  obtain ⟨bound,refines⟩ := run_refines step_refines allowed
  exact ⟨bound,fun fuel enough => refines fuel enough _ (init_stands h)⟩

theorem turn_allowed {p : Lists E} {now : Timeval} {rfds : Finset Int} {script : Script E}
    (valid : Valid p) (idle : p.pending = []) (distinct : p.table.Distinct)
    (callbacks : FireAllowed script 0 (p.due now rfds) (p.queue now rfds)) :
    Obeys (fun p op => some (Lists.apply p op)) Allowed p (turn now rfds script) := by
  refine ⟨⟨trivial,trivial⟩,fun one moved => ?_⟩
  cases moved
  refine ⟨⟨trivial,turn_unqueued valid idle now rfds rfds.card⟩,fun two moved => ?_⟩
  cases moved
  refine ⟨⟨?_,trivial⟩,fun _ _ => trivial⟩
  have due := (queue_due valid idle distinct now rfds).2.1
  show FireAllowed script 0 (p.queue now rfds).pending (p.queue now rfds)
  rw [due]
  exact callbacks

-- The pointers always are the two plain lists, and a turn of the loop calls what
-- is due, in order and once each.
theorem event_lists_refined (h : Heap E) (ops : List (LibraryOp E))
    (allowed : Obeys (fun p op => some (Lists.apply p op)) Allowed (start h) ops) :
    ∃ p, run (fun p op => some (Lists.apply p op)) (start h) ops = some p ∧
      (∃ bound, ∀ fuel, bound ≤ fuel → ∃ h', run (Heap.step fuel) (ril_event_init h) ops = some h' ∧
        Represents p h' ∧ ∀ ev ∈ p.timers, ev ∉ p.pending) ∧
      ∀ now rfds script, p.pending = [] → p.table.Distinct →
        FireAllowed script 0 (p.due now rfds) (p.queue now rfds) →
        (p.due now rfds).Nodup ∧
        ∃ bound, ∀ fuel, bound ≤ fuel → ∃ h' last,
          run (Heap.step fuel) (ril_event_init h) ops = some h' ∧
          run (Heap.step fuel) h' (turn now rfds script) = some last ∧
          last.fired = h'.fired ++ (p.due now rfds).map (fun ev => (ev,(h'.table.event ev).fd)) ∧
          Ring last.links .pending_list [] := by
  obtain ⟨first,library⟩ := library_refines h allowed
  refine ⟨_,run_total,⟨first,fun fuel enough => ?_⟩,?_⟩
  · obtain ⟨h',ran,stands⟩ := library fuel enough
    exact ⟨h',ran,stands.represents,stands.valid.apart⟩
  · generalize ops.foldl Lists.apply (start h) = p at library ⊢
    intro now rfds script idle distinct callbacks
    obtain ⟨_,_,stands⟩ := library first le_rfl
    have valid := stands.valid
    obtain ⟨second,turns⟩ := run_refines step_refines (turn_allowed valid idle distinct callbacks)
    obtain ⟨empty,fired⟩ := turn_fires valid idle distinct callbacks
    refine ⟨due_nodup valid now rfds,max first second,fun fuel enough => ?_⟩
    obtain ⟨h',ran,before⟩ := library fuel (le_trans (le_max_left _ _) enough)
    obtain ⟨last,turned,after⟩ := turns fuel (le_trans (le_max_right _ _) enough) h' before
    refine ⟨h',last,ran,turned,?_,?_⟩
    · rw [after.represents.fired,fired,before.represents.fired,before.represents.table]
    · have ring := after.represents.pending
      rw [empty] at ring
      exact ring

end Library

def blank (E : Type) : Heap E :=
  ⟨⟨fun _ => none,fun _ => none⟩,⟨fun _ => ⟨0,0,false,⟨0,0⟩⟩,fun _ => none,∅,0⟩,[]⟩

def watch {E : Type} (ev : E) (fd : Int) : List (LibraryOp E) :=
  [.call (.eventSet ev fd true),.call (.eventAdd ev)]

def timerAndWatch : List (LibraryOp Bool) :=
  watch false 3 ++ [.call (.timerAdd true (some ⟨0,5⟩) ⟨0,0⟩)]

def rearm : Script Bool := fun count =>
  if count = 0 then [.timerAdd true (some ⟨2,0⟩) ⟨1,0⟩] else [.eventDel false]

theorem event_lists_refined_rearm :
    ∃ fuel h last, run (Heap.step fuel) (ril_event_init (blank Bool)) timerAndWatch = some h ∧
      run (Heap.step fuel) h (turn ⟨1,0⟩ {3} rearm) = some last ∧
      last.fired = h.fired ++ [(true,-1),(false,3)] ∧ Ring last.links .pending_list [] := by
  have allowed : Obeys (fun p op => some (Lists.apply p op)) Allowed (start (blank Bool)) timerAndWatch := by
    unfold timerAndWatch watch
    simp only [List.cons_append,List.nil_append,obeys_total]
    refine ⟨⟨?_,trivial⟩,⟨?_,trivial⟩,⟨?_,trivial⟩,trivial⟩
    · exact ⟨by decide,by decide⟩
    · exact ⟨⟨by decide,by decide⟩,by decide⟩
    · exact ⟨⟨by decide,by decide⟩,by decide⟩
  obtain ⟨p,reached,⟨first,lists⟩,turns⟩ := event_lists_refined (blank Bool) timerAndWatch allowed
  rw [run_total] at reached
  have distinct : p.table.Distinct := by
    cases reached
    unfold Table.Distinct
    decide
  have callbacks : FireAllowed rearm 0 (p.due ⟨1,0⟩ {3}) (p.queue ⟨1,0⟩ {3}) := by
    cases reached
    refine ⟨?_,?_,trivial⟩
    · simp only [CallsAllowed]
      exact ⟨⟨⟨by decide,by decide⟩,by decide⟩,fun _ _ => trivial⟩
    · exact ⟨trivial,fun _ _ => trivial⟩
  obtain ⟨_,bound,refined⟩ := turns ⟨1,0⟩ {3} rearm (by cases reached; rfl) distinct callbacks
  obtain ⟨h,last,ran,turned,fired,ring⟩ := refined (max first bound) (le_max_right _ _)
  obtain ⟨h',ran',rep,_⟩ := lists (max first bound) (le_max_left _ _)
  cases ran.symm.trans ran'
  refine ⟨_,h,last,ran,turned,?_,ring⟩
  rw [fired,rep.table]
  cases reached
  rfl

-- Queued again before it was fired, an event is linked to itself; and of two
-- events with one descriptor only the first is called.
theorem queued_twice_breaks :
    (Obeys (fun p op => some (Lists.apply p op)) Careful (start (blank Unit))
        (watch () 3 ++ [.processReadReadies {3} 1,.processReadReadies {3} 1]) ∧
      ∃ h, run (Heap.step 4) (ril_event_init (blank Unit))
        (watch () 3 ++ [.processReadReadies {3} 1,.processReadReadies {3} 1]) = some h ∧
      h.links.next (.event ()) = some (.event ()) ∧ ¬ ∃ l, Ring h.links .pending_list l) ∧
    (Obeys (fun p op => some (Lists.apply p op)) Careful (start (blank Bool))
        (watch false 3 ++ watch true 3) ∧
      ∃ h last, run (Heap.step 4) (ril_event_init (blank Bool)) (watch false 3 ++ watch true 3) =
        some h ∧
      (∀ ev, h.table.Watched ev ∧ (h.table.event ev).fd = 3) ∧
      run (Heap.step 4) h (turn ⟨0,0⟩ {3} fun _ => []) = some last ∧ last.fired = [(false,3)]) := by
  refine ⟨⟨?_,_,rfl,rfl,?_⟩,?_,_,_,rfl,by decide,rfl,rfl⟩
  · unfold watch
    simp only [List.cons_append,List.nil_append,obeys_total]
    exact ⟨⟨by decide,by decide⟩,⟨⟨by decide,by decide⟩,by decide⟩,trivial,trivial,trivial⟩
  · intro ⟨l,ring⟩
    have chain := ring.chain
    have nodup := ring.nodup
    cases l with
    | nil => exact absurd chain.1 (by decide)
    | cons first rest =>
      have next : first = .event () := (Option.some.inj chain.1).symm
      subst next
      cases rest with
      | nil => exact absurd chain.2.2.1 (by decide)
      | cons second rest =>
        have again : second = .event () := (Option.some.inj chain.2.2.1).symm
        subst again
        simp at nodup
  · unfold watch
    simp only [List.cons_append,List.nil_append,obeys_total]
    exact ⟨⟨by decide,by decide⟩,⟨⟨by decide,by decide⟩,by decide⟩,⟨by decide,by decide⟩,
      ⟨⟨by decide,by decide⟩,by decide⟩,trivial⟩

end SemcMsm7x30.EventRefinement

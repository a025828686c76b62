import SemcMsm7x30.LoopSteps

namespace SemcMsm7x30.WatchTable
open LinkRing hiding Outside
open PartialMachine EventRefinement LoopSteps
variable {E : Type}

inductive WatchOp (E : Type) where
  | set (ev : E) (fd : Int) (persist : Bool)
  | add (ev : E)
  | del (ev : E)
  | processReadReadies (rfds : Finset Int) (n : Int)

structure Counted (t : Table E) : Prop where
  positive : ∀ ev, t.Watched ev → 0 ≤ (t.event ev).fd
  below : ∀ ev, t.Watched ev → (t.event ev).fd < t.nfds
  reached : t.nfds ≤ 1 ∨ ∃ ev, t.Watched ev ∧ (t.event ev).fd+1 = t.nfds

section Tables
variable [DecidableEq E] {t : Table E} {ev : E}

def FdAt (t : Table E) (places : List (Fin MAX_FD_EVENTS)) (fd : Int) : Prop :=
  ∃ i ∈ places, ∃ ev, t.watch_table i = some ev ∧ (t.event ev).fd = fd

omit [DecidableEq E] in
theorem largest_spec (places : List (Fin MAX_FD_EVENTS)) (n : Int) :
    let largest := places.foldl (fun n i =>
      match t.watch_table i with
      | none => n
      | some rev => if n < (t.event rev).fd then (t.event rev).fd else n) n
    n ≤ largest ∧ (∀ fd, FdAt t places fd → fd ≤ largest) ∧ (largest = n ∨ FdAt t places largest) := by
  induction places generalizing n with
  | nil => exact ⟨le_rfl,fun fd ⟨_,outside,_⟩ => absurd outside List.not_mem_nil,.inl rfl⟩
  | cons i rest ih =>
    have grows : ∀ fd, FdAt t rest fd → FdAt t (i :: rest) fd :=
      fun fd ⟨j,inside,held⟩ => ⟨j,List.mem_cons_of_mem _ inside,held⟩
    simp only [List.foldl_cons]
    cases held : t.watch_table i with
    | none =>
      obtain ⟨first,all,last⟩ := ih n
      refine ⟨first,fun fd ⟨j,inside,rev,heldJ,same⟩ => ?_,last.imp_right (grows _)⟩
      rcases List.mem_cons.mp inside with rfl | later
      · rw [held] at heldJ
        cases heldJ
      · exact all fd ⟨j,later,rev,heldJ,same⟩
    | some rev =>
      simp only
      obtain ⟨first,all,last⟩ := ih (if n < (t.event rev).fd then (t.event rev).fd else n)
      have here : n ≤ (if n < (t.event rev).fd then (t.event rev).fd else n) ∧
          (t.event rev).fd ≤ (if n < (t.event rev).fd then (t.event rev).fd else n) := by
        split <;> omega
      refine ⟨le_trans here.1 first,fun fd ⟨j,inside,other,heldJ,same⟩ => ?_,?_⟩
      · rcases List.mem_cons.mp inside with rfl | later
        · rw [held] at heldJ
          cases heldJ
          exact same ▸ le_trans here.2 first
        · exact all fd ⟨j,later,other,heldJ,same⟩
      · rcases last with same | found
        · rw [same]
          split
          · exact .inr ⟨i,List.mem_cons_self,rev,held,rfl⟩
          · exact .inl rfl
        · exact .inr (grows _ found)

omit [DecidableEq E] in
theorem largestFd_spec (t : Table E) :
    (∀ ev, t.Watched ev → (t.event ev).fd ≤ t.largestFd) ∧
      (t.largestFd = 0 ∨ ∃ ev, t.Watched ev ∧ (t.event ev).fd = t.largestFd) := by
  obtain ⟨_,all,last⟩ := largest_spec (t := t) slots 0
  refine ⟨fun ev ⟨i,held⟩ => all _ ⟨i,List.mem_finRange i,ev,held,rfl⟩,?_⟩
  rcases last with zero | ⟨i,_,ev,held,same⟩
  · exact .inl zero
  · exact .inr ⟨ev,⟨i,held⟩,same⟩

theorem removeWatch_nfds (t : Table E) (ev : E) (i : Fin MAX_FD_EVENTS) :
    (removeWatch t ev i).nfds =
      if (t.event ev).fd+1 = t.nfds then (removeWatch t ev i).largestFd+1 else t.nfds := by
  by_cases last : (t.event ev).fd+1 = t.nfds
  · simp only [removeWatch,Table.update,last,if_true]
    rfl
  · simp only [removeWatch,Table.update,last,if_false]

theorem removeWatch_counted {i : Fin MAX_FD_EVENTS} (single : t.Single) (counted : Counted t)
    (held : t.watch_table i = some ev) : Counted (removeWatch t ev i) := by
  have fields := fun other => (removeWatch_sameFields t ev i other).fd
  have rest : ∀ other, (removeWatch t ev i).Watched other ↔ t.Watched other ∧ other ≠ ev :=
    fun _ => removeWatch_watched single held
  obtain ⟨all,last⟩ := largestFd_spec (removeWatch t ev i)
  have positive : ∀ other, (removeWatch t ev i).Watched other →
      0 ≤ ((removeWatch t ev i).event other).fd := by
    intro other watched
    rw [fields]
    exact counted.positive other ((rest other).mp watched).1
  refine ⟨positive,?_,?_⟩
  · intro other watched
    rw [removeWatch_nfds]
    split
    · exact Int.lt_add_one_of_le (all other watched)
    · rw [fields]
      exact counted.below other ((rest other).mp watched).1
  · rw [removeWatch_nfds]
    split
    · rcases last with zero | ⟨other,watched,same⟩
      · exact .inl (by omega)
      · exact .inr ⟨other,watched,by rw [same]⟩
    · rename_i smaller
      rcases counted.reached with low | ⟨other,watched,same⟩
      · exact .inl low
      · refine .inr ⟨other,(rest other).mpr ⟨watched,?_⟩,by rw [fields]; exact same⟩
        exact fun equal => smaller (equal ▸ same)

theorem add_counted {free : Fin MAX_FD_EVENTS} (found : t.freeSlot = some free) (counted : Counted t)
    (positive : 0 ≤ (t.event ev).fd) : Counted (ril_event_add t ev) := by
  have fields := fun other => (add_sameFields t ev other).fd
  have nfds : (ril_event_add t ev).nfds =
      if t.nfds ≤ (t.event ev).fd then (t.event ev).fd+1 else t.nfds := by
    simp only [ril_event_add,found]
    rfl
  have watched : ∀ other, (ril_event_add t ev).Watched other ↔ t.Watched other ∨ other = ev :=
    fun _ => add_watched_iff found
  refine ⟨?_,?_,?_⟩
  · intro other watch
    rw [fields]
    rcases (watched other).mp watch with before | rfl
    · exact counted.positive other before
    · exact positive
  · intro other watch
    rw [fields,nfds]
    rcases (watched other).mp watch with before | rfl
    · have below := counted.below other before
      split <;> omega
    · split <;> omega
  · rw [nfds]
    split
    · exact .inr ⟨ev,(watched ev).mpr (.inr rfl),by rw [fields]⟩
    · rcases counted.reached with low | ⟨other,before,same⟩
      · exact .inl low
      · exact .inr ⟨other,(watched other).mpr (.inl before),by rw [fields]; exact same⟩

theorem update_counted {fields : RilEvent} (counted : Counted t) (unwatched : ¬ t.Watched ev) :
    Counted (t.update ev fields) := by
  have same : ∀ other, t.Watched other → ((t.update ev fields).event other).fd = (t.event other).fd := by
    intro other watched
    have differs : other ≠ ev := fun equal => unwatched (equal ▸ watched)
    exact (update_sameFields differs).fd
  refine ⟨?_,?_,?_⟩
  · intro other watched
    rw [same other watched]
    exact counted.positive other watched
  · intro other watched
    rw [same other watched]
    exact counted.below other watched
  · rcases counted.reached with low | ⟨other,watched,top⟩
    · exact .inl low
    · exact .inr ⟨other,watched,by rw [same other watched]; exact top⟩

end Tables

structure Kept (t : Table E) : Prop where
  consistent : t.Consistent
  counted : Counted t

section Scan
variable [DecidableEq E]

def queueAll (links : Links (Node E)) (events : List E) : Option (Links (Node E)) :=
  events.foldlM (fun links ev => insertBefore links (.event ev) .pending_list) links

def Linked (h : Heap E) : Prop := ∃ node, h.links.prev .pending_list = some node

theorem addToList_linked {h : Heap E} (linked : Linked h) (ev : E) :
    ∃ links, insertBefore h.links (.event ev) .pending_list = some links ∧
      h.addToList (.event ev) .pending_list = some {h with links := links} ∧
      Linked {h with links := links} := by
  obtain ⟨node,found⟩ := linked
  refine ⟨_,insertBefore_eq found,addToList_eq (insertBefore_eq found),.event ev,?_⟩
  simp

theorem readReadies_logged {rfds : Finset Int} {places : List (Fin MAX_FD_EVENTS)} {n : Int}
    {h : Heap E} {p : Lists E} {links : Links (Node E)} (table : h.table = p.table)
    (linked : Linked h) (queued : queueAll links p.pending = some h.links) :
    ∃ after, readReadies rfds places n h = some after ∧ Linked after ∧
      after.table = (Lists.readReadies rfds places n p).table ∧
      queueAll links (Lists.readReadies rfds places n p).pending = some after.links := by
  induction places generalizing h p n with
  | nil => exact ⟨h,rfl,linked,table,queued⟩
  | cons i rest ih =>
    unfold readReadies Lists.readReadies
    rw [table]
    by_cases counting : 0 < n
    · rw [if_pos counting,if_pos counting]
      cases held : p.table.watch_table i with
      | none => exact ih table linked queued
      | some rev =>
        simp only
        by_cases reported : (p.table.event rev).fd ∈ rfds
        · rw [if_pos reported,if_pos reported]
          obtain ⟨next,inserted,added,stays⟩ := addToList_linked linked rev
          have more : queueAll links (p.queueReady rev i).pending = some next := by
            unfold queueAll at queued ⊢
            simp only [Lists.queueReady,List.foldlM_append,queued]
            exact congrArg (fun links => links.bind some) inserted
          have step : ∃ one, queueReady h rev i = some one ∧ one.links = next ∧
              one.table = (p.queueReady rev i).table := by
            refine ⟨_,by rw [queueReady,added]; rfl,?_,?_⟩
            · simp only
              split <;> rfl
            · simp only [Lists.queueReady,table]
              split <;> rfl
          obtain ⟨one,moved,sameLinks,sameTable⟩ := step
          rw [moved,Option.bind_some]
          refine ih sameTable ?_ (by rw [sameLinks]; exact more)
          unfold Linked at stays ⊢
          rw [sameLinks]
          exact stays
        · rw [if_neg reported,if_neg reported]
          exact ih table linked queued
    · rw [if_neg counting,if_neg counting]
      exact ⟨h,rfl,linked,table,queued⟩

theorem queueAll_ring {links after : Links (Node E)} {pending events : List E}
    (ring : Ring links .pending_list (pending.map .event)) (queued : queueAll links events = some after)
    (nodup : events.Nodup) (fresh : ∀ ev ∈ events, ev ∉ pending) :
    Ring after .pending_list ((pending ++ events).map .event) := by
  induction events generalizing links pending with
  | nil =>
    cases queued
    rw [List.append_nil]
    exact ring
  | cons ev rest ih =>
    obtain ⟨notRest,restNodup⟩ := List.nodup_cons.mp nodup
    rw [← List.append_nil (pending.map Node.event)] at ring
    obtain ⟨middle,inserted,more,_⟩ := insertBefore_ring ring
      (show Node.event ev ∉ _ by simp [fresh ev List.mem_cons_self])
    have tail : queueAll middle rest = some after := by
      unfold queueAll at queued ⊢
      rw [List.foldlM_cons,show insertBefore links (.event ev) .pending_list = some middle from inserted]
        at queued
      exact queued
    have grown : Ring middle .pending_list ((pending ++ [ev]).map .event) := by simpa using more
    have later := ih grown tail restNodup (by
      intro other present listed
      rcases List.mem_append.mp listed with before | new
      · exact fresh other (List.mem_cons_of_mem _ present) before
      · exact notRest (List.mem_singleton.mp new ▸ present))
    rw [List.append_assoc] at later
    exact later

variable {p : Lists E}

theorem queueReady_single (single : p.table.Single) (rev : E) (i : Fin MAX_FD_EVENTS) :
    (p.queueReady rev i).table.Single := by
  unfold Lists.queueReady
  simp only
  split
  · exact removeWatch_single single rev i
  · exact single

theorem queueReady_watched {rev ev : E} {i : Fin MAX_FD_EVENTS} (single : p.table.Single)
    (held : p.table.watch_table i = some rev) :
    (p.queueReady rev i).table.Watched ev ↔
      p.table.Watched ev ∧ ¬ (ev = rev ∧ (p.table.event ev).persist = false) := by
  unfold Lists.queueReady
  simp only
  split
  · rename_i single_shot
    rw [removeWatch_watched single held]
    refine and_congr_right fun _ => not_congr ⟨fun same => ⟨same,same ▸ single_shot⟩,And.left⟩
  · rename_i persists
    refine ⟨fun watched => ⟨watched,fun ⟨same,not⟩ => persists (same ▸ not)⟩,And.left⟩

theorem readReadies_watched {rfds : Finset Int} {places : List (Fin MAX_FD_EVENTS)} {n : Int} {ev : E}
    (nodup : places.Nodup) (single : p.table.Single)
    (enough : ((p.table.ready rfds places).length : Int) ≤ n) :
    (Lists.readReadies rfds places n p).table.Watched ev ↔ p.table.Watched ev ∧
      ¬ (ev ∈ p.table.ready rfds places ∧ (p.table.event ev).persist = false) := by
  induction places generalizing p n with
  | nil => simp [Lists.readReadies,Table.ready]
  | cons i rest ih =>
    obtain ⟨notRest,restNodup⟩ := List.nodup_cons.mp nodup
    unfold Lists.readReadies
    split
    · cases held : p.table.watch_table i with
      | none =>
        have ready : p.table.ready rfds (i :: rest) = p.table.ready rfds rest := by
          simp [ready_cons,held]
        rw [ready] at enough ⊢
        exact ih restNodup single enough
      | some rev =>
        simp only
        by_cases reported : (p.table.event rev).fd ∈ rfds
        · rw [if_pos reported]
          have ready : p.table.ready rfds (i :: rest) = rev :: p.table.ready rfds rest := by
            simp [ready_cons,held,Option.filter,reported]
          obtain ⟨watch,same⟩ := queueReady_table p rev i
          have later : (p.queueReady rev i).table.ready rfds rest = p.table.ready rfds rest :=
            ready_congr (fun j present => watch j fun equal => notRest (equal ▸ present)) same
          have after := queueReady_single single rev i
          rw [ready,List.length_cons] at enough
          rw [ready,ih restNodup after (by rw [later]; push_cast at enough; omega),later,
            queueReady_watched single held,(same ev).persist,List.mem_cons]
          tauto
        · rw [if_neg reported]
          have ready : p.table.ready rfds (i :: rest) = p.table.ready rfds rest := by
            simp [ready_cons,held,Option.filter,reported]
          rw [ready] at enough ⊢
          exact ih restNodup single enough
    · rename_i spent
      have none : p.table.ready rfds (i :: rest) = [] := by
        apply List.eq_nil_of_length_eq_zero
        omega
      simp [none]

end Scan

section Machine
variable [DecidableEq E]

def watchStep (h : Heap E) : WatchOp E → Option (Heap E)
  | .set ev fd persist => some (h.ril_event_set ev fd persist)
  | .add ev => some {h with table := ril_event_add h.table ev}
  | .del ev => some {h with table := ril_event_del h.table ev}
  | .processReadReadies rfds n => h.processReadReadies rfds n

def OpProper (h : Heap E) : WatchOp E → Prop
  | .set ev _ _ => ¬ h.table.Watched ev
  | .add ev => ¬ h.table.Watched ev ∧ 0 ≤ (h.table.event ev).fd ∧
    (∀ other, h.table.Watched other → (h.table.event other).fd ≠ (h.table.event ev).fd) ∧
    ∃ i, h.table.watch_table i = none
  | .del ev => Known h.table ev
  | .processReadReadies _ _ => True

omit [DecidableEq E] in
theorem freeSlot_found {t : Table E} (room : ∃ i, t.watch_table i = none) :
    ∃ free, t.freeSlot = some free := by
  obtain ⟨i,empty⟩ := room
  apply Option.isSome_iff_exists.mp
  rw [Table.freeSlot,List.find?_isSome]
  exact ⟨i,List.mem_finRange i,by simp [empty]⟩

theorem del_counted {t : Table E} {ev : E} (kept : Kept t) (known : Known t ev) :
    Counted (ril_event_del t ev) := by
  rcases known with ⟨i,held⟩ | outside
  · rw [del_eq kept.consistent.indexed held]
    exact removeWatch_counted kept.consistent.single kept.counted held
  · unfold Outside at outside
    rw [ril_event_del,dif_neg (by omega)]
    exact kept.counted

theorem queueReady_kept {p : Lists E} {rev : E} {i : Fin MAX_FD_EVENTS} (kept : Kept p.table)
    (held : p.table.watch_table i = some rev) : Kept (p.queueReady rev i).table := by
  unfold Lists.queueReady
  simp only
  split
  · exact ⟨removeWatch_consistent kept.consistent held,
      removeWatch_counted kept.consistent.single kept.counted held⟩
  · exact kept

def unqueued (t : Table E) : Lists E := ⟨t,[],[],[]⟩

omit [DecidableEq E] in
theorem unqueued_valid {t : Table E} (single : t.Single) : Valid (unqueued t) :=
  ⟨single,by simp [unqueued],by simp [unqueued],by simp [unqueued],by simp [unqueued],
    by simp [unqueued]⟩

structure Watching (ops : List (WatchOp E)) (h : Heap E) : Prop where
  table : Kept h.table
  linked : Linked h
  added : ∀ ev, .add ev ∈ ops → Known h.table ev

theorem scan_watching {ops : List (WatchOp E)} {h : Heap E} (watching : Watching ops h)
    (rfds : Finset Int) (n : Int) :
    ∃ next, h.processReadReadies rfds n = some next ∧ Linked next ∧
      next.table = (Lists.readReadies rfds slots n (unqueued h.table)).table ∧
      queueAll h.links (Lists.readReadies rfds slots n (unqueued h.table)).pending =
        some next.links :=
  readReadies_logged rfl watching.linked rfl

theorem step_watching {ops : List (WatchOp E)} {h : Heap E} {op : WatchOp E}
    (watching : Watching ops h) (proper : OpProper h op) :
    ∃ next, watchStep h op = some next ∧ Watching (ops ++ [op]) next := by
  obtain ⟨⟨consistent,counted⟩,linked,added⟩ := watching
  cases op with
  | set ev fd persist =>
    refine ⟨_,rfl,⟨update_consistent consistent proper,update_counted counted proper⟩,?_,?_⟩
    · obtain ⟨node,found⟩ := linked
      exact ⟨node,by simpa [Heap.ril_event_set,Links.setNext,Links.setPrev] using found⟩
    · intro other present
      exact update_known (.inr rfl) (added other (by simpa using present))
  | add ev =>
    obtain ⟨fresh,positive,alone,room⟩ := proper
    obtain ⟨free,found⟩ := freeSlot_found room
    refine ⟨_,rfl,⟨add_consistent consistent fresh alone,add_counted found counted positive⟩,
      linked,?_⟩
    intro other present
    rcases List.mem_append.mp present with before | new
    · exact add_known (added other before)
    · cases List.mem_singleton.mp new
      exact .inl ((add_watched_iff found).mpr (.inr rfl))
  | del ev =>
    have known : Known h.table ev := proper
    refine ⟨_,rfl,⟨del_consistent consistent proper,del_counted ⟨consistent,counted⟩ proper⟩,linked,?_⟩
    intro other present
    exact del_known consistent.single consistent.indexed known (added other (by simpa using present))
  | processReadReadies rfds n =>
    obtain ⟨next,scanned,stays,table,_⟩ := scan_watching ⟨⟨consistent,counted⟩,linked,added⟩ rfds n
    refine ⟨next,scanned,?_,stays,?_⟩
    · rw [table]
      exact readReadies_keeps (fun p => Kept p.table) (fun _ _ _ kept held => queueReady_kept kept held)
        (show Kept (unqueued h.table).table from ⟨consistent,counted⟩)
    · intro other present
      rw [table]
      exact (readReadies_scanned (p := unqueued h.table) consistent.single consistent.indexed).known other
        (added other (by simpa using present))

-- processReadReadies: the events added to pending_list, each once, and what is left
-- in the table. The list of the pointers is longer by them unless one was on it.
structure Queues (h after : Heap E) (rfds : Finset Int) : Prop where
  queue : ∃ queued : List E, queueAll h.links queued = some after.links ∧ queued.Nodup ∧
    (∀ ev, ev ∈ queued ↔ h.table.Watched ev ∧ (h.table.event ev).fd ∈ rfds) ∧
    ∀ pending, Ring h.links .pending_list (pending.map .event) → (∀ ev ∈ queued, ev ∉ pending) →
      Ring after.links .pending_list ((pending ++ queued).map .event)
  rest : ∀ ev, after.table.Watched ev ↔ h.table.Watched ev ∧
    ¬ ((h.table.event ev).fd ∈ rfds ∧ (h.table.event ev).persist = false)

omit [DecidableEq E] in
theorem mem_ready_slots {t : Table E} {rfds : Finset Int} {ev : E} :
    ev ∈ t.ready rfds slots ↔ t.Watched ev ∧ (t.event ev).fd ∈ rfds := by
  rw [mem_ready]
  constructor
  · intro ⟨i,_,held,reported⟩
    exact ⟨⟨i,held⟩,reported⟩
  · intro ⟨⟨i,held⟩,reported⟩
    exact ⟨i,List.mem_finRange i,held,reported⟩

theorem scan_queues {ops : List (WatchOp E)} {h : Heap E} (watching : Watching ops h)
    (rfds : Finset Int) :
    ∃ after, h.processReadReadies rfds rfds.card = some after ∧ Queues h after rfds := by
  obtain ⟨after,scanned,_,table,links⟩ := scan_watching watching rfds rfds.card
  have consistent := watching.table.consistent
  have enough : ((h.table.ready rfds slots).length : Int) ≤ rfds.card := by
    exact_mod_cast ready_le_card consistent.single consistent.distinct rfds
  have pending := (readReadies_queues (p := unqueued h.table) (n := rfds.card) slots_nodup
    (unqueued_valid consistent.single) (fun _ _ listed => by cases listed)).2.2.2 enough
  rw [pending] at links
  have nodup := ready_nodup consistent.single rfds slots_nodup
  refine ⟨after,scanned,⟨h.table.ready rfds slots,links,nodup,fun ev => mem_ready_slots,?_⟩,?_⟩
  · exact fun pending ring fresh => queueAll_ring ring links nodup fresh
  · intro ev
    have left : (Lists.readReadies rfds slots rfds.card (unqueued h.table)).table.Watched ev ↔
        h.table.Watched ev ∧
          ¬ (ev ∈ h.table.ready rfds slots ∧ (h.table.event ev).persist = false) :=
      readReadies_watched (p := unqueued h.table) slots_nodup consistent.single enough
    rw [table,left,mem_ready_slots]
    tauto

omit [DecidableEq E] in
theorem counted_nfds {t : Table E} (counted : Counted t) :
    (∃ ev, t.Watched ev ∧ t.nfds = (t.event ev).fd+1 ∧
        ∀ other, t.Watched other → (t.event other).fd ≤ (t.event ev).fd) ∨
      ((∀ ev, ¬ t.Watched ev) ∧ t.nfds ≤ 1) := by
  have top : ∀ ev, t.Watched ev → (t.event ev).fd+1 = t.nfds → t.nfds = (t.event ev).fd+1 ∧
      ∀ other, t.Watched other → (t.event other).fd ≤ (t.event ev).fd := by
    intro ev _ same
    refine ⟨same.symm,fun other watched => ?_⟩
    have below := counted.below other watched
    omega
  rcases counted.reached with low | ⟨ev,watched,same⟩
  · by_cases any : ∃ ev, t.Watched ev
    · obtain ⟨ev,watched⟩ := any
      have below := counted.below ev watched
      have positive := counted.positive ev watched
      exact .inl ⟨ev,watched,top ev watched (by omega)⟩
    · exact .inr ⟨fun ev watched => any ⟨ev,watched⟩,low⟩
  · exact .inl ⟨ev,watched,top ev watched same⟩

omit [DecidableEq E] in
theorem slot_iff_index {t : Table E} {ev : E} (indexed : t.Indexed) (known : Known t ev)
    (i : Fin MAX_FD_EVENTS) : t.watch_table i = some ev ↔ (t.event ev).index = i := by
  refine ⟨indexed i ev,fun index => ?_⟩
  rcases known with ⟨j,held⟩ | outside
  · have same : (j : Int) = i := (indexed j ev held).symm.trans index
    have equal : j = i := Fin.ext (by exact_mod_cast same)
    exact equal ▸ held
  · unfold Outside at outside
    omega

theorem watch_table_consistent (h : Heap E) (unused : h.table.nfds = 0) (ops : List (WatchOp E))
    (proper : Obeys watchStep OpProper (ril_event_init h) ops) :
    ∃ s, run watchStep (ril_event_init h) ops = some s ∧
      (∀ ev, .add ev ∈ ops → ∀ i : Fin MAX_FD_EVENTS,
        s.table.watch_table i = some ev ↔ (s.table.event ev).index = i) ∧
      (∀ fd, fd ∈ s.table.readFds ↔ ∃ ev, s.table.Watched ev ∧ (s.table.event ev).fd = fd) ∧
      ((∃ ev, s.table.Watched ev ∧ s.table.nfds = (s.table.event ev).fd+1 ∧
          ∀ other, s.table.Watched other → (s.table.event other).fd ≤ (s.table.event ev).fd) ∨
        ((∀ ev, ¬ s.table.Watched ev) ∧ s.table.nfds ≤ 1)) ∧
      ∀ rfds : Finset Int, ∃ after, s.processReadReadies rfds rfds.card = some after ∧
        Queues s after rfds := by
  have start : Watching [] (ril_event_init h) := by
    have none : ∀ ev, ¬ (ril_event_init h).table.Watched ev := by
      intro ev ⟨i,held⟩
      cases held
    refine ⟨⟨⟨?_,?_,?_,?_⟩,⟨?_,?_,?_⟩⟩,⟨.pending_list,?_⟩,fun ev present => by cases present⟩
    · exact fun i j ev held => by cases held
    · exact fun a b watched => absurd watched (none a)
    · exact fun i ev held => by cases held
    · intro fd
      exact ⟨fun present => absurd present (Finset.notMem_empty fd),
        fun ⟨ev,watched,_⟩ => absurd watched (none ev)⟩
    · exact fun ev watched => absurd watched (none ev)
    · exact fun ev watched => absurd watched (none ev)
    · exact .inl (by rw [show (ril_event_init h).table.nfds = h.table.nfds from rfl,unused]; norm_num)
    · simp [ril_event_init,init_list,Links.setNext,Links.setPrev]
  obtain ⟨s,ran,watching⟩ := obeys_completes Watching
    (fun _ _ _ watching proper => step_watching watching proper) start proper
  rw [List.nil_append] at watching
  refine ⟨s,ran,?_,watching.table.consistent.watched,counted_nfds watching.table.counted,
    scan_queues watching⟩
  exact fun ev present => slot_iff_index watching.table.consistent.indexed (watching.added ev present)

end Machine

def twoWatched : List (WatchOp Bool) :=
  [.set false 3 true,.add false,.set true 7 false,.add true,.processReadReadies {3,7} 2,.del false]

theorem watch_table_consistent_two :
    ∃ s, run watchStep (ril_event_init (blank Bool)) twoWatched = some s ∧
      ∀ rfds : Finset Int, ∃ after, s.processReadReadies rfds rfds.card = some after ∧
        Queues s after rfds := by
  have proper : Obeys watchStep OpProper (ril_event_init (blank Bool)) twoWatched := by
    unfold twoWatched
    refine obeys_step rfl (show ¬ Table.Watched _ _ by decide) ?_
    refine obeys_step rfl ⟨by decide,by decide,by decide,by decide⟩ ?_
    refine obeys_step rfl (show ¬ Table.Watched _ _ by decide) ?_
    refine obeys_step rfl ⟨by decide,by decide,by decide,by decide⟩ ?_
    refine obeys_step rfl trivial ?_
    exact obeys_step rfl (.inl (by decide)) trivial
  obtain ⟨s,ran,_,_,_,scans⟩ := watch_table_consistent (blank Bool) rfl twoWatched proper
  exact ⟨s,ran,scans⟩

-- Where ril_event_del may be called with any event, set up or not.
def DelUnset (h : Heap Bool) : WatchOp Bool → Prop
  | .del _ => True
  | op => OpProper h op

-- The index of a zeroed event is 0: to delete it empties the slot of another one,
-- whose descriptor stays in the set.
def unsetDeleted : List (WatchOp Bool) := [.set false 3 true,.add false,.del true]

theorem unset_event_deleted :
    Obeys watchStep DelUnset (ril_event_init (blank Bool)) unsetDeleted ∧
    ∃ s, run watchStep (ril_event_init (blank Bool)) unsetDeleted = some s ∧
      (s.table.event false).index = 0 ∧ s.table.watch_table ⟨0,by decide⟩ ≠ some false ∧
      3 ∈ s.table.readFds ∧ ∀ ev, ¬ s.table.Watched ev := by
  refine ⟨?_,_,rfl,by decide,by decide,by decide,by decide⟩
  refine obeys_step rfl (show ¬ Table.Watched _ _ by decide) ?_
  refine obeys_step rfl ⟨by decide,by decide,by decide,by decide⟩ ?_
  exact obeys_step rfl trivial trivial

end SemcMsm7x30.WatchTable

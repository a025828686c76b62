import SemcMsm7x30.EventRefinement

namespace SemcMsm7x30.LoopSteps
open LinkRing PartialMachine FuelRefinement EventRefinement

-- Where the loop thread is: behind processTimeouts, behind processReadReadies, or
-- at the test of firePending's loop with the event it has read.
inductive Place (E : Type) where
  | top
  | timed
  | read
  | firing (ev : Node E)
  deriving DecidableEq

structure Placed (L E : Type) where
  lib : L
  place : Place E

-- `request` and `call` are made by a callback or by another thread. `fire` is one
-- turn of firePending's loop.
inductive Move (E : Type) where
  | request (ev : E) (relativeTime : Option Timeval) (now : Timeval)
  | call (op : LibraryCall E)
  | processTimeouts (now : Timeval)
  | processReadReadies (rfds : Finset Int) (n : Int)
  | firePending
  | fire

section Machines
variable {E : Type} [DecidableEq E]

-- A null relativeTime is treated as 0. The event is a new one.
def Heap.internalRequestTimedCallback (fuel : Nat) (h : Heap E) (ev : E)
    (relativeTime : Option Timeval) (now : Timeval) : Option (Heap E) :=
  let myRelativeTime := relativeTime.getD ⟨0,0⟩
  (h.ril_event_set ev (-1) false).ril_timer_add fuel ev (some myRelativeTime) now

def heapStep (fuel : Nat) (s : Placed (Heap E) E) : Move E → Option (Placed (Heap E) E)
  | .request ev relativeTime now =>
    (Heap.internalRequestTimedCallback fuel s.lib ev relativeTime now).map fun h => {s with lib := h}
  | .call op => (s.lib.call fuel op).map fun h => {s with lib := h}
  | .processTimeouts now =>
    match s.place with
    | .top => (s.lib.processTimeouts fuel now).map fun h => ⟨h,.timed⟩
    | _ => none
  | .processReadReadies rfds n =>
    match s.place with
    | .timed => (s.lib.processReadReadies rfds n).map fun h => ⟨h,.read⟩
    | _ => none
  | .firePending =>
    match s.place with
    | .read => (s.lib.links.next .pending_list).map fun ev => ⟨s.lib,.firing ev⟩
    | _ => none
  | .fire =>
    match s.place with
    | .firing .pending_list => some ⟨s.lib,.top⟩
    | .firing (.event ev) =>
      (s.lib.links.next (.event ev)).bind fun next =>
      (s.lib.removeFromList (.event ev)).map fun h =>
        ⟨{h with fired := h.fired ++ [(ev,(h.table.event ev).fd)]},.firing next⟩
    | _ => none

def Lists.internalRequestTimedCallback (p : Lists E) (ev : E) (relativeTime : Option Timeval)
    (now : Timeval) : Lists E :=
  (p.call (.eventSet ev (-1) false)).call (.timerAdd ev (some (relativeTime.getD ⟨0,0⟩)) now)

def listStep (s : Placed (Lists E) E) : Move E → Option (Placed (Lists E) E)
  | .request ev relativeTime now =>
    some {s with lib := Lists.internalRequestTimedCallback s.lib ev relativeTime now}
  | .call op => some {s with lib := s.lib.call op}
  | .processTimeouts now =>
    match s.place with
    | .top => some ⟨s.lib.processTimeouts now,.timed⟩
    | _ => none
  | .processReadReadies rfds n =>
    match s.place with
    | .timed => some ⟨s.lib.processReadReadies rfds n,.read⟩
    | _ => none
  | .firePending =>
    match s.place with
    | .read => some ⟨s.lib,.firing (firstNode .pending_list s.lib.pending)⟩
    | _ => none
  | .fire =>
    match s.place,s.lib.pending with
    | .firing _,[] => some ⟨s.lib,.top⟩
    | .firing _,ev :: rest => some ⟨s.lib.fire ev rest,.firing (firstNode .pending_list rest)⟩
    | _,_ => none

end Machines

section Promises
variable {E : Type}

-- An index no slot has, as ril_event_set and removeWatch leave it.
def Outside (t : Table E) (ev : E) : Prop :=
  (t.event ev).index < 0 ∨ MAX_FD_EVENTS ≤ (t.event ev).index

instance (t : Table E) (ev : E) : Decidable (Outside t ev) :=
  inferInstanceAs (Decidable (_ ∨ _))

def Known (t : Table E) (ev : E) : Prop := t.Watched ev ∨ Outside t ev

-- What the callers keep to: an event is set up and added while it is on no list
-- and in no slot, and it was set up before it is used.
def CallProper (p : Lists E) : LibraryCall E → Prop
  | .timerAdd ev (some _) _ => p.Free ev ∧ Outside p.table ev
  | .timerAdd _ none _ => True
  | .eventAdd ev => p.Free ev
  | .eventDel ev => Known p.table ev
  | .eventSet ev _ _ => p.Free ev

def MoveProper (s : Placed (Lists E) E) : Move E → Prop
  | .request ev _ _ => s.lib.Free ev
  | .call op => CallProper s.lib op
  | .processTimeouts _ | .processReadReadies _ _ | .firePending | .fire => True

theorem callProper_allowed {p : Lists E} {op : LibraryCall E} (proper : CallProper p op) :
    CallAllowed p op := by
  cases op with
  | timerAdd ev tv now =>
    cases tv with
    | none => trivial
    | some tv => exact proper.1
  | eventAdd ev => exact proper
  | eventDel ev => trivial
  | eventSet ev fd persist => exact proper.1

def PlaceSound (p : Lists E) : Place E → Prop
  | .top => p.pending = []
  | .timed => ∀ ev ∈ p.pending, ¬ p.table.Watched ev
  | .read => True
  | .firing ev => ev = firstNode .pending_list p.pending

structure Sound (s : Placed (Lists E) E) : Prop where
  valid : Valid s.lib
  indexed : s.lib.table.Indexed
  known : ∀ ev, ev ∈ s.lib.timers ∨ ev ∈ s.lib.pending → Known s.lib.table ev
  place : PlaceSound s.lib s.place

end Promises

section Tables
variable {E : Type} [DecidableEq E] {t : Table E} {ev other : E}

theorem removeWatch_known {i : Fin MAX_FD_EVENTS} (single : t.Single)
    (held : t.watch_table i = some ev) (known : Known t other) : Known (removeWatch t ev i) other := by
  by_cases same : other = ev
  · subst same
    refine .inr (.inl ?_)
    rw [removeWatch_event,Function.update_self]
    exact Int.negSucc_lt_zero 0
  · rcases known with watched | outside
    · exact .inl ((removeWatch_watched single held).mpr ⟨watched,same⟩)
    · refine .inr ?_
      unfold Outside
      rw [removeWatch_event,Function.update_of_ne same]
      exact outside

theorem del_known (single : t.Single) (indexed : t.Indexed) (proper : Known t ev)
    (known : Known t other) : Known (ril_event_del t ev) other := by
  rcases proper with ⟨i,held⟩ | outside
  · rw [del_eq indexed held]
    exact removeWatch_known single held known
  · unfold Outside at outside
    rw [ril_event_del,dif_neg (by omega)]
    exact known

theorem del_indexed (single : t.Single) (indexed : t.Indexed) (proper : Known t ev) :
    (ril_event_del t ev).Indexed := by
  rcases proper with ⟨i,held⟩ | outside
  · rw [del_eq indexed held]
    exact removeWatch_indexed single indexed held
  · unfold Outside at outside
    rw [ril_event_del,dif_neg (by omega)]
    exact indexed

theorem add_known (known : Known t other) : Known (ril_event_add t ev) other := by
  cases found : t.freeSlot with
  | none =>
    have same : ril_event_add t ev = t := by simp only [ril_event_add,found]
    rw [same]
    exact known
  | some free =>
    by_cases same : other = ev
    · exact .inl ((add_watched_iff found).mpr (.inr same))
    · rcases known with watched | outside
      · exact .inl ((add_watched_iff found).mpr (.inl watched))
      · refine .inr ?_
        unfold Outside
        simp only [ril_event_add,found,Table.update,Function.update_of_ne same]
        exact outside

theorem update_known {fields : RilEvent} (index : fields.index = (t.event ev).index ∨ fields.index = -1)
    (known : Known t other) : Known (t.update ev fields) other := by
  rcases known with watched | outside
  · exact .inl watched
  · refine .inr ?_
    unfold Outside at outside ⊢
    by_cases same : other = ev
    · subst same
      simp only [Table.update,Function.update_self]
      omega
    · simp only [Table.update,Function.update_of_ne same]
      exact outside

end Tables

section Invariant
variable {E : Type} [DecidableEq E] {p : Lists E} {s next : Placed (Lists E) E}

theorem call_known {op : LibraryCall E} {ev : E} (valid : Valid p) (indexed : p.table.Indexed)
    (proper : CallProper p op) (known : Known p.table ev) : Known (p.call op).table ev := by
  cases op with
  | timerAdd other tv now =>
    cases tv with
    | none => exact known
    | some tv => exact update_known (.inl rfl) known
  | eventAdd other => exact add_known known
  | eventDel other => exact del_known valid.single indexed proper known
  | eventSet other fd persist => exact update_known (.inr rfl) known

theorem call_indexed {op : LibraryCall E} (valid : Valid p) (indexed : p.table.Indexed)
    (proper : CallProper p op) : (p.call op).table.Indexed := by
  cases op with
  | timerAdd ev tv now =>
    cases tv with
    | none => exact indexed
    | some tv => exact update_indexed indexed proper.1.2
  | eventAdd ev => exact add_indexed indexed proper.2
  | eventDel ev => exact del_indexed valid.single indexed proper
  | eventSet ev fd persist => exact update_indexed indexed proper.2

theorem call_timer {op : LibraryCall E} {ev : E} (listed : ev ∈ (p.call op).timers) :
    ev ∈ p.timers ∨ ∃ tv now, op = .timerAdd ev (some tv) now := by
  cases op with
  | timerAdd other tv now =>
    cases tv with
    | none => exact .inl listed
    | some tv =>
      rcases List.mem_append.mp listed with front | back
      · exact .inl ((List.takeWhile_prefix _).subset front)
      · rcases List.mem_cons.mp back with rfl | later
        · exact .inr ⟨tv,now,rfl⟩
        · exact .inl ((List.dropWhile_suffix _).subset later)
  | eventAdd other => exact .inl listed
  | eventDel other => exact .inl listed
  | eventSet other fd persist => exact .inl listed

theorem call_watch {op : LibraryCall E} {ev : E} (watched : (p.call op).table.Watched ev) :
    p.table.Watched ev ∨ op = .eventAdd ev := by
  cases op with
  | timerAdd other tv now =>
    cases tv with
    | none => exact .inl watched
    | some tv => exact .inl watched
  | eventAdd other =>
    rcases add_watched watched with before | rfl
    · exact .inl before
    · exact .inr rfl
  | eventDel other =>
    obtain ⟨i,held⟩ := watched
    exact .inl ⟨i,del_slot held⟩
  | eventSet other fd persist => exact .inl watched

theorem call_sound {op : LibraryCall E} (sound : Sound s) (proper : CallProper s.lib op) :
    Sound {s with lib := s.lib.call op} := by
  have allowed := callProper_allowed proper
  have pending := (call_listed allowed).1
  refine ⟨call_valid sound.valid allowed,call_indexed sound.valid sound.indexed proper,?_,?_⟩
  · intro ev listed
    apply call_known sound.valid sound.indexed proper
    rcases listed with timer | queued
    · rcases call_timer timer with before | ⟨tv,now,rfl⟩
      · exact sound.known ev (.inl before)
      · exact .inr proper.2
    · exact sound.known ev (.inr (pending ▸ queued))
  · have place := sound.place
    simp only
    cases here : s.place with
    | top =>
      rw [here] at place
      exact pending.trans place
    | timed =>
      rw [here] at place
      intro ev queued watched
      rw [pending] at queued
      rcases call_watch watched with before | rfl
      · exact place ev queued before
      · exact proper.1.2 queued
    | read => trivial
    | firing ev =>
      rw [here] at place
      show ev = firstNode .pending_list (s.lib.call op).pending
      rw [pending]
      exact place

theorem readReadies_keeps (motive : Lists E → Prop)
    (queued : ∀ p rev i, motive p → p.table.watch_table i = some rev → motive (p.queueReady rev i))
    {rfds : Finset Int} {places : List (Fin MAX_FD_EVENTS)} {n : Int} (holds : motive p) :
    motive (Lists.readReadies rfds places n p) := by
  induction places generalizing p n with
  | nil => exact holds
  | cons i rest ih =>
    unfold Lists.readReadies
    split
    · split
      · exact ih holds
      · rename_i rev held
        split
        · exact ih (queued p rev i holds held)
        · exact ih holds
    · exact holds

theorem readReadies_fields (rfds : Finset Int) (places : List (Fin MAX_FD_EVENTS)) (n : Int) :
    (Lists.readReadies rfds places n p).timers = p.timers ∧
      (Lists.readReadies rfds places n p).fired = p.fired ∧
      ∀ ev, SameFields p.table (Lists.readReadies rfds places n p).table ev := by
  apply readReadies_keeps fun after =>
    after.timers = p.timers ∧ after.fired = p.fired ∧ ∀ ev, SameFields p.table after.table ev
  · intro middle rev i ⟨timers,fired,same⟩ _
    exact ⟨timers,fired,fun ev => (same ev).trans ((queueReady_table middle rev i).2 ev)⟩
  · exact ⟨rfl,rfl,sameFields_refl p.table⟩

structure Scanned (p after : Lists E) : Prop where
  single : after.table.Single
  indexed : after.table.Indexed
  known : ∀ ev, Known p.table ev → Known after.table ev
  watched : ∀ ev, after.table.Watched ev → p.table.Watched ev
  pending : ∀ ev ∈ after.pending, ev ∈ p.pending ∨ p.table.Watched ev
  timers : after.timers = p.timers

theorem queueReady_scanned {middle : Lists E} {rev : E} {i : Fin MAX_FD_EVENTS}
    (scanned : Scanned p middle) (held : middle.table.watch_table i = some rev) :
    Scanned p (middle.queueReady rev i) := by
  have queue : ∀ ev ∈ middle.pending ++ [rev], ev ∈ p.pending ∨ p.table.Watched ev := by
    intro ev present
    rcases List.mem_append.mp present with before | new
    · exact scanned.pending ev before
    · exact .inr (scanned.watched ev ⟨i,List.mem_singleton.mp new ▸ held⟩)
  unfold Lists.queueReady
  split
  · refine ⟨removeWatch_single scanned.single rev i,
      removeWatch_indexed scanned.single scanned.indexed held,?_,?_,queue,scanned.timers⟩
    · exact fun ev known => removeWatch_known scanned.single held (scanned.known ev known)
    · exact fun ev watched =>
        scanned.watched ev ((removeWatch_watched scanned.single held).mp watched).1
  · exact ⟨scanned.single,scanned.indexed,scanned.known,scanned.watched,queue,scanned.timers⟩

theorem readReadies_scanned (single : p.table.Single) (indexed : p.table.Indexed)
    {rfds : Finset Int} {places : List (Fin MAX_FD_EVENTS)} {n : Int} :
    Scanned p (Lists.readReadies rfds places n p) := by
  apply readReadies_keeps (Scanned p) fun _ _ _ scanned held => queueReady_scanned scanned held
  exact ⟨single,indexed,fun _ known => known,fun _ watched => watched,fun _ queued => .inl queued,rfl⟩

theorem timeouts_moved {now : Timeval} (moved : listStep s (.processTimeouts now) = some next) :
    s.place = .top ∧ next = ⟨s.lib.processTimeouts now,.timed⟩ := by
  simp only [listStep] at moved
  split at moved
  · rename_i here
    cases moved
    exact ⟨here,rfl⟩
  · cases moved

theorem readies_moved {rfds : Finset Int} {n : Int}
    (moved : listStep s (.processReadReadies rfds n) = some next) :
    s.place = .timed ∧ next = ⟨s.lib.processReadReadies rfds n,.read⟩ := by
  simp only [listStep] at moved
  split at moved
  · rename_i here
    cases moved
    exact ⟨here,rfl⟩
  · cases moved

theorem firePending_moved (moved : listStep s .firePending = some next) :
    s.place = .read ∧ next = ⟨s.lib,.firing (firstNode .pending_list s.lib.pending)⟩ := by
  simp only [listStep] at moved
  split at moved
  · rename_i here
    cases moved
    exact ⟨here,rfl⟩
  · cases moved

theorem fire_moved (moved : listStep s .fire = some next) :
    (∃ node, s.place = .firing node ∧ s.lib.pending = [] ∧ next = ⟨s.lib,.top⟩) ∨
      ∃ node ev rest, s.place = .firing node ∧ s.lib.pending = ev :: rest ∧
        next = ⟨s.lib.fire ev rest,.firing (firstNode .pending_list rest)⟩ := by
  simp only [listStep] at moved
  split at moved
  · rename_i here empty
    cases moved
    exact .inl ⟨_,here,empty,rfl⟩
  · rename_i here queue
    cases moved
    exact .inr ⟨_,_,_,here,queue,rfl⟩
  · cases moved

omit [DecidableEq E] in
theorem unqueued_of_timed (sound : Sound s) (here : s.place = .timed) (rfds : Finset Int) (n : Int) :
    Unqueued s.lib (.processReadReadies rfds n) := by
  have place := sound.place
  rw [here] at place
  exact fun ev watched _ listed => place ev listed watched

theorem set_free {ev other : E} {fd : Int} {persist : Bool} (free : p.Free ev) :
    (p.call (.eventSet other fd persist)).Free ev := free

theorem set_outside (p : Lists E) (ev : E) (fd : Int) (persist : Bool) :
    Outside (p.call (.eventSet ev fd persist)).table ev := by
  refine .inl ?_
  simp only [Lists.call,ril_event_set,Table.update,Function.update_self]
  exact Int.negSucc_lt_zero 0

theorem step_sound {move : Move E} (sound : Sound s) (proper : MoveProper s move)
    (moved : listStep s move = some next) : Sound next := by
  cases move with
  | request ev relativeTime now =>
    cases moved
    have set : CallProper s.lib (.eventSet ev (-1) false) := proper
    exact call_sound (call_sound sound set) ⟨set_free proper,set_outside s.lib ev (-1) false⟩
  | call op =>
    cases moved
    exact call_sound sound proper
  | processTimeouts now =>
    obtain ⟨here,rfl⟩ := timeouts_moved moved
    have place := sound.place
    rw [here] at place
    refine ⟨processTimeouts_valid sound.valid now,sound.indexed,?_,?_⟩
    · intro ev listed
      rcases listed with timer | queued
      · exact sound.known ev (.inl ((List.dropWhile_suffix _).subset timer))
      · rcases List.mem_append.mp queued with before | expired
        · exact sound.known ev (.inr before)
        · exact sound.known ev (.inl ((List.takeWhile_prefix _).subset expired))
    · intro ev queued watched
      rcases List.mem_append.mp queued with before | expired
      · rw [show s.lib.pending = [] from place] at before
        cases before
      · exact sound.valid.unwatched ev ((List.takeWhile_prefix _).subset expired) watched
  | processReadReadies rfds n =>
    obtain ⟨here,rfl⟩ := readies_moved moved
    have unqueued := unqueued_of_timed sound here rfds n
    have fresh : ∀ ev ∈ s.lib.table.ready rfds slots, ev ∉ s.lib.pending := by
      intro ev present
      obtain ⟨i,_,held,reported⟩ := mem_ready.mp present
      exact unqueued ev ⟨i,held⟩ reported
    have scanned : Scanned s.lib (s.lib.processReadReadies rfds n) :=
      readReadies_scanned sound.valid.single sound.indexed
    refine ⟨(readReadies_queues slots_nodup sound.valid fresh).1,scanned.indexed,?_,trivial⟩
    intro ev listed
    apply scanned.known
    rcases listed with timer | queued
    · exact sound.known ev (.inl (scanned.timers ▸ timer))
    · rcases scanned.pending ev queued with before | watched
      · exact sound.known ev (.inr before)
      · exact .inl watched
  | firePending =>
    obtain ⟨here,rfl⟩ := firePending_moved moved
    exact ⟨sound.valid,sound.indexed,sound.known,rfl⟩
  | fire =>
    rcases fire_moved moved with ⟨node,here,empty,rfl⟩ | ⟨node,ev,rest,here,queue,rfl⟩
    · exact ⟨sound.valid,sound.indexed,sound.known,empty⟩
    · refine ⟨fire_valid sound.valid queue,sound.indexed,?_,rfl⟩
      intro other listed
      rcases listed with timer | queued
      · exact sound.known other (.inl timer)
      · exact sound.known other (.inr (queue ▸ List.mem_cons_of_mem ev queued))

end Invariant

section Refinement
variable {E : Type} [DecidableEq E] {s next : Placed (Lists E) E}

def StandsAt (s : Placed (Lists E) E) (c : Placed (Heap E) E) : Prop :=
  Stands s.lib c.lib ∧ c.place = s.place

omit [DecidableEq E] in
theorem place_refines {program : Nat → Heap E → Option (Heap E)} {after : Lists E} {place : Place E}
    (refines : Refines Stands program s.lib after) :
    Refines StandsAt (fun fuel c => (program fuel c.lib).map fun h => (⟨h,place⟩ : Placed (Heap E) E))
      s ⟨after,place⟩ := by
  obtain ⟨bound,refines⟩ := refines
  refine ⟨bound,fun fuel enough c stands => ?_⟩
  obtain ⟨h,ran,held⟩ := refines fuel enough c.lib stands.1
  exact ⟨⟨h,place⟩,by simp only [ran,Option.map_some],held,rfl⟩

omit [DecidableEq E] in
theorem lib_refines {program : Nat → Heap E → Option (Heap E)} {after : Lists E}
    (refines : Refines Stands program s.lib after) :
    Refines StandsAt (fun fuel c => (program fuel c.lib).map fun h => {c with lib := h}) s
      {s with lib := after} := by
  obtain ⟨bound,refines⟩ := refines
  refine ⟨bound,fun fuel enough c stands => ?_⟩
  obtain ⟨h,ran,held⟩ := refines fuel enough c.lib stands.1
  exact ⟨{c with lib := h},by simp only [ran,Option.map_some],held,stands.2⟩

theorem fire_refines (sound : Sound s) (moved : listStep s .fire = some next) :
    Refines StandsAt (fun fuel c => heapStep fuel c .fire) s next := by
  refine ⟨0,fun fuel _ c stands => ?_⟩
  obtain ⟨⟨valid,rep⟩,same⟩ := stands
  have cursor := sound.place
  rcases fire_moved moved with ⟨node,here,empty,rfl⟩ | ⟨node,ev,rest,here,queue,rfl⟩
  · rw [here] at cursor
    have head : node = .pending_list := by
      rw [show node = firstNode .pending_list s.lib.pending from cursor,empty]
      rfl
    exact ⟨⟨c.lib,.top⟩,by simp only [heapStep,same,here,head],⟨valid,rep⟩,rfl⟩
  · rw [here] at cursor
    have head : node = .event ev := by
      rw [show node = firstNode .pending_list s.lib.pending from cursor,queue]
      rfl
    have ring := rep.pending
    rw [queue] at ring
    have after : c.lib.links.next (.event ev) = some (firstNode .pending_list rest) :=
      chain_next ring.chain.2.2
    obtain ⟨h,removed,repH⟩ := removeFromList_pending rep valid queue
    refine ⟨⟨{h with fired := h.fired ++ [(ev,(h.table.event ev).fd)]},
      .firing (firstNode .pending_list rest)⟩,?_,⟨fire_valid valid queue,?_⟩,rfl⟩
    · simp only [heapStep,same,here,head,after,removed,Option.bind_some,Option.map_some]
    · refine ⟨repH.table,?_,repH.timers,repH.pending⟩
      simp only [Lists.fire,repH.fired,repH.table]

theorem move_refines {move : Move E} (sound : Sound s) (proper : MoveProper s move)
    (moved : listStep s move = some next) :
    Refines StandsAt (fun fuel c => heapStep fuel c move) s next := by
  cases move with
  | request ev relativeTime now =>
    cases moved
    have set : CallAllowed s.lib (.eventSet ev (-1) false) := proper.1
    have add : CallAllowed (s.lib.call (.eventSet ev (-1) false))
        (.timerAdd ev (some (relativeTime.getD ⟨0,0⟩)) now) := set_free proper
    exact lib_refines ((call_refines _ _ set).bind (call_refines _ _ add))
  | call op =>
    cases moved
    exact lib_refines (call_refines _ _ (callProper_allowed proper))
  | processTimeouts now =>
    obtain ⟨here,rfl⟩ := timeouts_moved moved
    obtain ⟨bound,refines⟩ := place_refines (s := s) (processTimeouts_refines s.lib now)
    refine ⟨bound,fun fuel enough c stands => ?_⟩
    simp only [heapStep,stands.2,here]
    exact refines fuel enough c stands
  | processReadReadies rfds n =>
    obtain ⟨here,rfl⟩ := readies_moved moved
    obtain ⟨bound,refines⟩ := place_refines (s := s)
      (processReadReadies_refines s.lib rfds n (unqueued_of_timed sound here rfds n))
    refine ⟨bound,fun fuel enough c stands => ?_⟩
    simp only [heapStep,stands.2,here]
    exact refines fuel enough c stands
  | firePending =>
    obtain ⟨here,rfl⟩ := firePending_moved moved
    refine ⟨0,fun fuel _ c stands => ?_⟩
    refine ⟨⟨c.lib,.firing (firstNode .pending_list s.lib.pending)⟩,?_,stands.1,rfl⟩
    simp only [heapStep,stands.2,here,firstNode_next stands.1.represents.pending,Option.map_some]
  | fire => exact fire_refines sound moved

end Refinement

section Runs
variable {E : Type} [DecidableEq E]

def begin (h : Heap E) : Placed (Heap E) E := ⟨ril_event_init h,.top⟩

def beginLists (h : Heap E) : Placed (Lists E) E := ⟨start h,.top⟩

omit [DecidableEq E] in
theorem begin_sound (h : Heap E) : Sound (beginLists h) := by
  refine ⟨empty_valid _ _,?_,?_,rfl⟩
  · intro i ev held
    cases held
  · intro ev listed
    rcases listed with timer | queued
    · cases timer
    · cases queued

theorem run_sound {h : Heap E} {moves : List (Move E)} {s : Placed (Lists E) E}
    (proper : Obeys listStep MoveProper (beginLists h) moves)
    (ran : run listStep (beginLists h) moves = some s) : Sound s :=
  obeys_invariant Sound (fun _ _ _ sound proper moved => step_sound sound proper moved)
    (begin_sound h) proper ran

-- From a state that stands for the plain lists, the pointers follow them.
theorem moves_refine {s next : Placed (Lists E) E} {moves : List (Move E)} (sound : Sound s)
    (proper : Obeys listStep MoveProper s moves) (ran : run listStep s moves = some next) :
    Refines StandsAt (fun fuel c => run (heapStep fuel) c moves) s next := by
  have each : ∀ (s : Placed (Lists E) E) (move : Move E) (next : Placed (Lists E) E), Sound s →
      MoveProper s move → listStep s move = some next → Refines StandsAt (heapStep · · move) s next :=
    fun _ _ _ sound proper moved => move_refines sound proper moved
  exact enabled_refines Sound (fun _ _ _ sound proper moved => step_sound sound proper moved) each
    sound proper ran

theorem begin_stands (h : Heap E) : StandsAt (beginLists h) (begin h) := ⟨init_stands h,rfl⟩

end Runs

end SemcMsm7x30.LoopSteps

import SemcMsm7x30.LoopSteps

namespace SemcMsm7x30.Deletion
open LinkRing PartialMachine FuelRefinement EventRefinement LoopSteps
variable {E : Type}

def On (h : Heap E) (head : Node E) (ev : E) : Prop :=
  ∃ nodes, Ring h.links head nodes ∧ .event ev ∈ nodes

theorem on_iff {h : Heap E} {head : Node E} {events : List E} {ev : E}
    (ring : Ring h.links head (events.map .event)) : On h head ev ↔ ev ∈ events := by
  constructor
  · intro ⟨nodes,other,present⟩
    rw [ring_unique other ring] at present
    exact event_mem.mp present
  · exact fun present => ⟨_,ring,event_mem.mpr present⟩

def Adds (ev : E) : Move E → Prop
  | .request other _ _ => other = ev
  | .call (.timerAdd other (some _) _) | .call (.eventAdd other) => other = ev
  | .call (.timerAdd _ none _) | .call (.eventDel _) | .call (.eventSet _ _ _) => False
  | .processTimeouts _ | .processReadReadies _ _ | .firePending | .fire => False

variable [DecidableEq E]

-- In no run from here that does not add the event is its callback called. `s` are
-- the plain lists of `c`, which say what the callers may do.
def NeverCalled (s : Placed (Lists E) E) (c : Placed (Heap E) E) (ev : E) : Prop :=
  ∀ later next, Obeys listStep MoveProper s later → run listStep s later = some next →
    (∀ move ∈ later, ¬ Adds ev move) →
    ∃ bound, ∀ fuel, bound ≤ fuel → ∃ last calls, run (heapStep fuel) c later = some last ∧
      last.lib.fired = c.lib.fired ++ calls ∧ ∀ call ∈ calls, call.1 ≠ ev

structure Gone (s : Placed (Lists E) E) (c : Placed (Heap E) E) (ev : E) : Prop where
  unwatched : ∀ i, c.lib.table.watch_table i ≠ some ev
  untimed : ¬ On c.lib .timer_list ev
  uncalled : NeverCalled s c ev

section Away
variable {s next : Placed (Lists E) E} {ev : E}

structure Away (s : Placed (Lists E) E) (ev : E) : Prop where
  unwatched : ¬ s.lib.table.Watched ev
  untimed : ev ∉ s.lib.timers
  unqueued : ev ∉ s.lib.pending

def Spared (s next : Placed (Lists E) E) (ev : E) : Prop :=
  ∃ calls, next.lib.fired = s.lib.fired ++ calls ∧ ∀ call ∈ calls, call.1 ≠ ev

omit [DecidableEq E] in
theorem spared_of_fired (same : next.lib.fired = s.lib.fired) : Spared s next ev :=
  ⟨[],by simp [same],by simp⟩

theorem call_away {op : LibraryCall E} (away : Away s ev) (proper : CallProper s.lib op)
    (keeps : ¬ Adds ev (.call op)) :
    Away {s with lib := s.lib.call op} ev ∧ Spared s {s with lib := s.lib.call op} ev := by
  obtain ⟨pending,fired,_⟩ := call_listed (callProper_allowed proper)
  refine ⟨⟨?_,?_,?_⟩,spared_of_fired fired⟩
  · intro watched
    rcases call_watch watched with before | rfl
    · exact away.unwatched before
    · exact keeps rfl
  · intro timer
    rcases call_timer timer with before | ⟨tv,now,rfl⟩
    · exact away.untimed before
    · exact keeps rfl
  · intro queued
    exact away.unqueued (pending ▸ queued)

theorem step_away {move : Move E} (sound : Sound s) (away : Away s ev) (proper : MoveProper s move)
    (keeps : ¬ Adds ev move) (moved : listStep s move = some next) :
    Away next ev ∧ Spared s next ev := by
  cases move with
  | request other relativeTime now =>
    cases moved
    have set : CallProper s.lib (.eventSet other (-1) false) := proper
    obtain ⟨one,_,fired,_⟩ := call_away away set (by simp [Adds])
    have add : CallProper (s.lib.call (.eventSet other (-1) false))
        (.timerAdd other (some (relativeTime.getD ⟨0,0⟩)) now) :=
      ⟨set_free proper,set_outside s.lib other (-1) false⟩
    exact call_away one add keeps
  | call op =>
    cases moved
    exact call_away away proper keeps
  | processTimeouts now =>
    obtain ⟨_,rfl⟩ := timeouts_moved moved
    refine ⟨⟨away.unwatched,?_,?_⟩,spared_of_fired rfl⟩
    · exact fun timer => away.untimed ((List.dropWhile_suffix _).subset timer)
    · intro queued
      rcases List.mem_append.mp queued with before | expired
      · exact away.unqueued before
      · exact away.untimed ((List.takeWhile_prefix _).subset expired)
  | processReadReadies rfds n =>
    obtain ⟨_,rfl⟩ := readies_moved moved
    have scanned : Scanned s.lib (s.lib.processReadReadies rfds n) :=
      readReadies_scanned sound.valid.single sound.indexed
    obtain ⟨timers,fired,_⟩ := readReadies_fields (p := s.lib) rfds slots n
    refine ⟨⟨?_,?_,?_⟩,spared_of_fired fired⟩
    · exact fun watched => away.unwatched (scanned.watched ev watched)
    · exact fun timer => away.untimed (timers ▸ timer)
    · intro queued
      rcases scanned.pending ev queued with before | watched
      · exact away.unqueued before
      · exact away.unwatched watched
  | firePending =>
    obtain ⟨_,rfl⟩ := firePending_moved moved
    exact ⟨⟨away.unwatched,away.untimed,away.unqueued⟩,spared_of_fired rfl⟩
  | fire =>
    rcases fire_moved moved with ⟨_,_,_,rfl⟩ | ⟨_,first,rest,_,queue,rfl⟩
    · exact ⟨⟨away.unwatched,away.untimed,away.unqueued⟩,spared_of_fired rfl⟩
    · have unqueued := away.unqueued
      rw [queue,List.mem_cons,not_or] at unqueued
      refine ⟨⟨away.unwatched,away.untimed,unqueued.2⟩,_,rfl,?_⟩
      intro call present
      rw [List.mem_singleton.mp present]
      exact fun same => unqueued.1 same.symm

theorem run_away {later : List (Move E)} (sound : Sound s) (away : Away s ev)
    (proper : Obeys listStep MoveProper s later) (ran : run listStep s later = some next)
    (keeps : ∀ move ∈ later, ¬ Adds ev move) : Spared s next ev := by
  induction later generalizing s with
  | nil =>
    cases ran
    exact spared_of_fired rfl
  | cons move rest ih =>
    obtain ⟨middle,moved,tail⟩ := run_cons ran
    obtain ⟨awayMiddle,calls,fired,others⟩ :=
      step_away sound away proper.1 (keeps move List.mem_cons_self) moved
    obtain ⟨more,firedRest,othersRest⟩ := ih (step_sound sound proper.1 moved) awayMiddle
      (proper.2 middle moved) tail fun move present => keeps move (List.mem_cons_of_mem _ present)
    refine ⟨calls ++ more,by rw [firedRest,fired,List.append_assoc],?_⟩
    intro call present
    rcases List.mem_append.mp present with first | second
    · exact others call first
    · exact othersRest call second

end Away

section Queued
variable {s next : Placed (Lists E) E} {ev : E}

def Alone (move : Move E) : Prop :=
  match move with
  | .request _ _ _ | .call _ => False
  | .processTimeouts _ | .processReadReadies _ _ | .firePending | .fire => True

omit [DecidableEq E] in
theorem alone_keeps {move : Move E} (alone : Alone move) : ¬ Adds ev move := by
  cases move with
  | request other relativeTime now => cases alone
  | call op => cases alone
  | processTimeouts now => exact id
  | processReadReadies rfds n => exact id
  | firePending => exact id
  | fire => exact id

theorem alone_proper {later : List (Move E)} (alone : ∀ move ∈ later, Alone move) :
    Obeys listStep MoveProper s later := by
  induction later generalizing s with
  | nil => trivial
  | cons move rest ih =>
    refine ⟨?_,fun _ _ => ih fun move present => alone move (List.mem_cons_of_mem _ present)⟩
    have first := alone move List.mem_cons_self
    cases move with
    | request other relativeTime now => cases first
    | call op => cases first
    | processTimeouts now => trivial
    | processReadReadies rfds n => trivial
    | firePending => trivial
    | fire => trivial

-- The loop calls an event of the list it walks, unless a callback stops it.
theorem firing_calls {queue : List E} {node : Node E} (here : s.place = .firing node)
    (queued : s.lib.pending = queue) :
    ∃ next, run listStep s (List.replicate queue.length .fire) = some next ∧
      next.lib.fired = s.lib.fired ++ queue.map fun ev => (ev,(s.lib.table.event ev).fd) := by
  induction queue generalizing s node with
  | nil => exact ⟨s,rfl,by simp⟩
  | cons first rest ih =>
    have moved : listStep s .fire =
        some ⟨s.lib.fire first rest,.firing (firstNode .pending_list rest)⟩ := by
      simp only [listStep,here,queued]
    obtain ⟨next,ran,fired⟩ := ih (s := ⟨s.lib.fire first rest,.firing (firstNode .pending_list rest)⟩)
      rfl rfl
    refine ⟨next,?_,?_⟩
    · rw [List.length_cons,List.replicate_succ]
      simp only [run,moved,Option.bind_some]
      exact ran
    · rw [fired]
      simp [Lists.fire]

theorem queued_called (sound : Sound s) (queued : ev ∈ s.lib.pending) :
    ∃ later next, (∀ move ∈ later, Alone move) ∧ run listStep s later = some next ∧
      ∃ calls, next.lib.fired = s.lib.fired ++ calls ∧ ∃ call ∈ calls, call.1 = ev := by
  have fire : ∀ start : Placed (Lists E) E, start.lib = s.lib →
      start.place = .firing (firstNode .pending_list s.lib.pending) →
      ∃ next, run listStep start (List.replicate s.lib.pending.length .fire) = some next ∧
        ∃ calls, next.lib.fired = s.lib.fired ++ calls ∧ ∃ call ∈ calls, call.1 = ev := by
    intro start same here
    obtain ⟨next,ran,fired⟩ := firing_calls here (congrArg Lists.pending same)
    rw [same] at fired
    exact ⟨next,ran,_,fired,_,List.mem_map_of_mem queued,rfl⟩
  have fires : ∀ move ∈ List.replicate s.lib.pending.length (Move.fire : Move E), Alone move := by
    intro move present
    rw [List.eq_of_mem_replicate present]
    trivial
  have place := sound.place
  cases here : s.place with
  | top =>
    rw [here] at place
    rw [show s.lib.pending = [] from place] at queued
    cases queued
  | timed =>
    obtain ⟨next,ran,called⟩ := fire ⟨s.lib,.firing (firstNode .pending_list s.lib.pending)⟩ rfl rfl
    have scan : s.lib.processReadReadies ∅ 0 = s.lib := rfl
    refine ⟨.processReadReadies ∅ 0 :: .firePending :: List.replicate s.lib.pending.length .fire,next,
      ?_,?_,called⟩
    · exact List.forall_mem_cons.mpr ⟨trivial,List.forall_mem_cons.mpr ⟨trivial,fires⟩⟩
    · simp only [run,listStep,here,scan,Option.bind_some]
      exact ran
  | read =>
    obtain ⟨next,ran,called⟩ := fire ⟨s.lib,.firing (firstNode .pending_list s.lib.pending)⟩ rfl rfl
    refine ⟨.firePending :: List.replicate s.lib.pending.length .fire,next,
      List.forall_mem_cons.mpr ⟨trivial,fires⟩,?_,called⟩
    simp only [run,listStep,here,Option.bind_some]
    exact ran
  | firing node =>
    rw [here] at place
    obtain ⟨next,ran,called⟩ := fire s rfl (here.trans (congrArg Place.firing place))
    exact ⟨_,next,fires,ran,called⟩

end Queued

theorem del_unwatched {t : Table E} {ev : E} (single : t.Single) (indexed : t.Indexed) :
    ¬ (ril_event_del t ev).Watched ev := by
  by_cases watched : t.Watched ev
  · obtain ⟨i,held⟩ := watched
    rw [del_eq indexed held]
    exact fun still => ((removeWatch_watched single held).mp still).2 rfl
  · exact fun ⟨i,held⟩ => watched ⟨i,del_slot held⟩

-- The slot is always given up. The two lists are not touched: the event is gone
-- exactly when it was on neither.
theorem event_del_iff (h : Heap E) (moves : List (Move E)) {s : Placed (Lists E) E} {ev : E}
    (proper : Obeys listStep MoveProper (beginLists h) moves)
    (ran : run listStep (beginLists h) moves = some s)
    (present : s.lib.table.Watched ev ∨ ev ∈ s.lib.timers ∨ ev ∈ s.lib.pending) :
    ∃ bound, ∀ fuel, bound ≤ fuel → ∃ c after, run (heapStep fuel) (begin h) moves = some c ∧
      heapStep fuel c (.call (.eventDel ev)) = some after ∧
      (∀ i, after.lib.table.watch_table i ≠ some ev) ∧
      (Gone {s with lib := s.lib.call (.eventDel ev)} after ev ↔
        ¬ On c.lib .timer_list ev ∧ ¬ On c.lib .pending_list ev) := by
  have sound := run_sound proper ran
  have known : Known s.lib.table ev := by
    rcases present with watched | listed
    · exact .inl watched
    · exact sound.known ev listed
  have del : MoveProper s (.call (.eventDel ev)) := known
  have soundAfter : Sound {s with lib := s.lib.call (.eventDel ev)} := step_sound sound del rfl
  obtain ⟨first,refines⟩ := moves_refine (begin_sound h) proper ran
  obtain ⟨second,deletes⟩ := move_refines sound del rfl
  refine ⟨max first second,fun fuel enough => ?_⟩
  obtain ⟨c,ranC,stands⟩ :=
    refines fuel (le_trans (le_max_left _ _) enough) (begin h) (begin_stands h)
  obtain ⟨after,deleted,standsAfter⟩ := deletes fuel (le_trans (le_max_right _ _) enough) c stands
  have unwatched : ∀ i, after.lib.table.watch_table i ≠ some ev := by
    intro i held
    rw [standsAfter.1.represents.table] at held
    exact del_unwatched sound.valid.single sound.indexed ⟨i,held⟩
  have timer : On c.lib .timer_list ev ↔ ev ∈ s.lib.timers := on_iff stands.1.represents.timers
  have queued : On c.lib .pending_list ev ↔ ev ∈ s.lib.pending := on_iff stands.1.represents.pending
  have timerAfter : On after.lib .timer_list ev ↔ ev ∈ s.lib.timers :=
    on_iff standsAfter.1.represents.timers
  refine ⟨c,after,ranC,deleted,unwatched,?_⟩
  rw [timer,queued]
  constructor
  · intro gone
    refine ⟨fun listed => gone.untimed (timerAfter.mpr listed),fun listed => ?_⟩
    obtain ⟨later,next,alone,ranLater,calls,fired,call,inCalls,same⟩ :=
      queued_called soundAfter (s := {s with lib := s.lib.call (.eventDel ev)}) listed
    obtain ⟨one,uncalled⟩ := gone.uncalled later next (alone_proper alone) ranLater
      fun move inside => alone_keeps (alone move inside)
    obtain ⟨two,follows⟩ := moves_refine soundAfter (alone_proper alone) ranLater
    obtain ⟨last,others,ranLast,firedLast,spared⟩ := uncalled (max one two) (le_max_left _ _)
    obtain ⟨last',ranLast',standsLast⟩ := follows (max one two) (le_max_right _ _) after standsAfter
    cases ranLast.symm.trans ranLast'
    rw [standsLast.1.represents.fired,fired,standsAfter.1.represents.fired] at firedLast
    rw [List.append_cancel_left firedLast] at inCalls
    exact spared call inCalls same
  · intro ⟨untimed,unqueued⟩
    refine ⟨unwatched,fun listed => untimed (timerAfter.mp listed),?_⟩
    intro later next properLater ranLater keeps
    have away : Away {s with lib := s.lib.call (.eventDel ev)} ev :=
      ⟨del_unwatched sound.valid.single sound.indexed,untimed,unqueued⟩
    obtain ⟨calls,fired,spared⟩ := run_away soundAfter away properLater ranLater keeps
    obtain ⟨bound,follows⟩ := moves_refine soundAfter properLater ranLater
    refine ⟨bound,fun fuel enough => ?_⟩
    obtain ⟨last,ranLast,standsLast⟩ := follows fuel enough after standsAfter
    refine ⟨last,calls,ranLast,?_,spared⟩
    rw [standsLast.1.represents.fired,fired,standsAfter.1.represents.fired]

def firstCallback (rfds : Finset Int) : List (Move Bool) :=
  [.call (.eventSet false 3 true),.call (.eventAdd false),.call (.eventSet true 4 true),
    .call (.eventAdd true),.processTimeouts ⟨0,0⟩,.processReadReadies rfds rfds.card,.firePending,.fire]

theorem firstCallback_proper (rfds : Finset Int) :
    Obeys listStep MoveProper (beginLists (blank Bool)) (firstCallback rfds) := by
  unfold firstCallback
  refine obeys_step rfl ⟨⟨by decide,by decide⟩,by decide⟩ ?_
  refine obeys_step rfl ⟨⟨by decide,by decide⟩,by decide⟩ ?_
  refine obeys_step rfl ⟨⟨by decide,by decide⟩,by decide⟩ ?_
  refine obeys_step rfl ⟨⟨by decide,by decide⟩,by decide⟩ ?_
  exact alone_proper (by simp [Alone])

theorem event_del_iff_running :
    ∃ s, run listStep (beginLists (blank Bool)) (firstCallback {3}) = some s ∧
      ∃ fuel c after, run (heapStep fuel) (begin (blank Bool)) (firstCallback {3}) = some c ∧
        heapStep fuel c (.call (.eventDel true)) = some after ∧
        (Gone {s with lib := s.lib.call (.eventDel true)} after true ↔
          ¬ On c.lib .timer_list true ∧ ¬ On c.lib .pending_list true) := by
  refine ⟨_,rfl,?_⟩
  obtain ⟨bound,deletes⟩ := @event_del_iff Bool _ (blank Bool) (firstCallback {3}) _ true
    (firstCallback_proper {3}) rfl (.inl (by decide))
  obtain ⟨c,after,ran,deleted,_,iff⟩ := deletes bound le_rfl
  exact ⟨bound,c,after,ran,deleted,iff⟩

-- The first callback deletes the event queued behind it, and that event is called
-- next. A timer stays on its list and is called when it is due.
theorem event_del_leaves_queued :
    (Obeys listStep MoveProper (beginLists (blank Bool)) (firstCallback {3,4}) ∧
      ∃ c after last, run (heapStep 4) (begin (blank Bool)) (firstCallback {3,4}) = some c ∧
        c.lib.table.Watched true ∧ heapStep 4 c (.call (.eventDel true)) = some after ∧
        heapStep 4 after .fire = some last ∧ last.lib.fired = after.lib.fired ++ [(true,4)]) ∧
    (Obeys listStep MoveProper (beginLists (blank Unit)) [.request () (some ⟨1,0⟩) ⟨0,0⟩] ∧
      ∃ c after last, run (heapStep 4) (begin (blank Unit)) [.request () (some ⟨1,0⟩) ⟨0,0⟩] = some c ∧
        heapStep 4 c (.call (.eventDel ())) = some after ∧ On after.lib .timer_list () ∧
        run (heapStep 4) after [.processTimeouts ⟨2,0⟩,.processReadReadies ∅ 0,.firePending,.fire] =
          some last ∧
        last.lib.fired = after.lib.fired ++ [((),-1)]) := by
  refine ⟨⟨firstCallback_proper {3,4},_,_,_,rfl,by decide,rfl,rfl,rfl⟩,
    obeys_step rfl ⟨⟨by decide,by decide⟩,by decide⟩ trivial,_,_,_,rfl,rfl,?_,rfl,rfl⟩
  exact ⟨[.event ()],⟨⟨rfl,rfl,rfl,rfl⟩,by decide⟩,by decide⟩

end SemcMsm7x30.Deletion

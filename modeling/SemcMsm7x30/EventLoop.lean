import SemcMsm7x30.EventLists

namespace SemcMsm7x30.EventLoop
open PartialMachine

-- Where ril_event_loop is: the copy of readFds, and for select() the clock that
-- calcNextTimeout read and the timeout it returned. `firing` is between two
-- callbacks or inside the callback of an event.
inductive Loop (E : Type) where
  | top
  | copied (rfds : Finset Int)
  | computed (rfds : Finset Int) (clock : Timeval) (tv : Option Timeval)
  | blocked (rfds : Finset Int) (clock : Timeval) (tv : Option Timeval)
  | returned (rfds : Finset Int) (n : Int)
  | timed (rfds : Finset Int) (n : Int)
  | firing (running : Option E)
  | stopped

-- `pipe` counts the bytes in the wakeup pipe. A thread's entry is the event it
-- has added without having written to the pipe yet.
structure State (E T : Type) where
  lib : Lists E
  loop : Loop E
  pipe : Nat
  adding : T → Option E

inductive Action (E T : Type) where
  | copyFds
  | calcNextTimeout (now : Timeval)
  | select
  | ready (rfds : Finset Int) (n : Int)
  | interrupted
  | failed
  | processTimeouts (now : Timeval)
  | processReadReadies
  | fire
  | callback (op : LibraryCall E)
  | readPipe
  | finish
  | fired
  | thread (t : T) (op : LibraryCall E)
  | trigger (t : T)

section Machine
variable {E T : Type} [DecidableEq E] [DecidableEq T]

def announced : LibraryCall E → Option E
  | .timerAdd ev _ _ | .eventAdd ev => some ev
  | .eventDel _ | .eventSet _ _ _ => none

def clockRead : LibraryCall E → Prop
  | .timerAdd _ _ now => now.Normal
  | .eventAdd _ | .eventDel _ | .eventSet _ _ _ => True

instance (op : LibraryCall E) : Decidable (clockRead op) :=
  match op with
  | .timerAdd _ _ now => inferInstanceAs (Decidable now.Normal)
  | .eventAdd _ | .eventDel _ | .eventSet _ _ _ => inferInstanceAs (Decidable True)

-- processWakeupCallback reads at most 16 bytes at a time until the pipe is empty.
-- The loop thread itself never writes to it.
def step (wakeup : E) (s : State E T) : Action E T → Option (State E T)
  | .copyFds =>
    match s.loop with
    | .top => some {s with loop := .copied s.lib.table.readFds}
    | _ => none
  | .calcNextTimeout now =>
    match s.loop with
    | .copied rfds => some {s with loop := .computed rfds now (s.lib.calcNextTimeout now)}
    | _ => none
  | .select =>
    match s.loop with
    | .computed rfds clock tv => some {s with loop := .blocked rfds clock tv}
    | _ => none
  | .ready rfds n =>
    match s.loop with
    | .blocked _ _ _ => some {s with loop := .returned rfds n}
    | _ => none
  | .interrupted =>
    match s.loop with
    | .blocked _ _ _ => some {s with loop := .top}
    | _ => none
  | .failed =>
    match s.loop with
    | .blocked _ _ _ => some {s with loop := .stopped}
    | _ => none
  | .processTimeouts now =>
    match s.loop with
    | .returned rfds n => some {s with lib := s.lib.processTimeouts now,loop := .timed rfds n}
    | _ => none
  | .processReadReadies =>
    match s.loop with
    | .timed rfds n => some {s with lib := s.lib.processReadReadies rfds n,loop := .firing none}
    | _ => none
  | .fire =>
    match s.loop,s.lib.pending with
    | .firing none,ev :: rest => some {s with lib := s.lib.fire ev rest,loop := .firing (some ev)}
    | _,_ => none
  | .callback op =>
    match s.loop with
    | .firing (some _) => if clockRead op then some {s with lib := s.lib.call op} else none
    | _ => none
  | .readPipe =>
    match s.loop with
    | .firing (some ev) => if ev = wakeup then some {s with pipe := s.pipe-16} else none
    | _ => none
  | .finish =>
    match s.loop with
    | .firing (some ev) =>
      if ev = wakeup ∧ s.pipe ≠ 0 then none else some {s with loop := .firing none}
    | _ => none
  | .fired =>
    match s.loop,s.lib.pending with
    | .firing none,[] => some {s with loop := .top}
    | _,_ => none
  | .thread t op =>
    if s.adding t = none ∧ clockRead op then
      some {s with lib := s.lib.call op,adding := Function.update s.adding t (announced op)}
    else none
  | .trigger t =>
    match s.adding t with
    | some _ => some {s with pipe := s.pipe+1,adding := Function.update s.adding t none}
    | none => none

def initial (wakeup : E) (fd : Int) (table : Table E) : State E T :=
  ⟨((Lists.empty table []).call (.eventSet wakeup fd true)).call (.eventAdd wakeup),.top,0,
    fun _ => none⟩

end Machine

section Property
variable {E T : Type}

-- The loop will come out of select() for the event, or its adder still has to
-- write.
def Excused (s : State E T) (ev : E) : Prop := 0 < s.pipe ∨ ∃ t, s.adding t = some ev

def Seen (s : State E T) (rfds : Finset Int) : Prop :=
  ∀ ev, s.lib.table.Watched ev → (s.lib.table.event ev).fd ∉ rfds → Excused s ev

def Timely (s : State E T) (clock : Timeval) : Option Timeval → Prop
  | none => ∀ ev ∈ s.lib.timers, Excused s ev
  | some tv => ∀ ev ∈ s.lib.timers, (s.lib.table.event ev).timeout.value < clock.value+tv.value →
    clock.value < clock.value+tv.value → Excused s ev

def NoLostWakeup (s : State E T) : Prop :=
  ∀ rfds clock tv, s.loop = .blocked rfds clock tv → Seen s rfds ∧ Timely s clock tv

-- The calls under which no wakeup is lost.
def Proper (p : Lists E) : LibraryCall E → Prop
  | .timerAdd ev (some tv) _ => p.Free ev ∧ tv.Normal
  | .timerAdd _ none _ => True
  | .eventAdd ev => p.Free ev ∧
    ∀ other, p.table.Watched other → (p.table.event other).fd ≠ (p.table.event ev).fd
  | .eventDel ev => p.table.Watched ev ∨ (p.table.event ev).index < 0 ∨
    MAX_FD_EVENTS ≤ (p.table.event ev).index
  | .eventSet ev _ _ => p.Free ev

def CallsProper (s : State E T) : Action E T → Prop
  | .thread _ op | .callback op => Proper s.lib op
  | _ => True

end Property

section Calls
variable {E : Type} {p : Lists E} {op : LibraryCall E}

theorem proper_allowed (proper : Proper p op) : CallAllowed p op := by
  cases op with
  | timerAdd ev tv now =>
    cases tv with
    | none => trivial
    | some tv => exact proper.1
  | eventAdd ev => exact proper.1
  | eventDel ev => trivial
  | eventSet ev fd persist => exact proper.1

variable [DecidableEq E]

theorem call_consistent (consistent : p.table.Consistent) (proper : Proper p op) :
    (p.call op).table.Consistent := by
  cases op with
  | timerAdd ev tv now =>
    cases tv with
    | none => exact consistent
    | some tv => exact update_consistent consistent proper.1.2
  | eventAdd ev => exact add_consistent consistent proper.1.2 proper.2
  | eventDel ev => exact del_consistent consistent proper
  | eventSet ev fd persist => exact update_consistent consistent proper.2

theorem call_watched {ev : E} (proper : Proper p op) (watched : (p.call op).table.Watched ev) :
    op = .eventAdd ev ∨
      (p.table.Watched ev ∧ ((p.call op).table.event ev).fd = (p.table.event ev).fd) := by
  cases op with
  | timerAdd other tv now =>
    cases tv with
    | none => exact .inr ⟨watched,rfl⟩
    | some tv =>
      refine .inr ⟨watched,(update_sameFields fun same => proper.1.2 ?_).fd⟩
      exact same ▸ watched
  | eventAdd other =>
    rcases add_watched watched with before | same
    · exact .inr ⟨before,(add_sameFields p.table other ev).fd⟩
    · exact .inl (congrArg LibraryCall.eventAdd same.symm)
  | eventDel other =>
    obtain ⟨i,held⟩ := watched
    exact .inr ⟨⟨i,del_slot held⟩,(del_sameFields p.table other ev).fd⟩
  | eventSet other fd persist =>
    refine .inr ⟨watched,(update_sameFields fun same => proper.2 ?_).fd⟩
    exact same ▸ watched

theorem call_timers {ev : E} (proper : Proper p op) (listed : ev ∈ (p.call op).timers) :
    (announced op = some ev ∧ (clockRead op → ((p.call op).table.event ev).timeout.Normal)) ∨
      (ev ∈ p.timers ∧
        ((p.call op).table.event ev).timeout = (p.table.event ev).timeout) := by
  cases op with
  | timerAdd other tv now =>
    cases tv with
    | none => exact .inr ⟨listed,rfl⟩
    | some tv =>
      by_cases same : ev = other
      · subst same
        refine .inl ⟨rfl,fun clock => ?_⟩
        simp only [Lists.call,Lists.timerAdd,setTimer,Table.update,Function.update_self]
        exact timeradd_normal clock proper.2
      · have old : ev ∈ p.timers := by
          simp only [Lists.call,Lists.timerAdd,List.mem_append,List.mem_cons,same,false_or] at listed
          rcases listed with front | back
          · exact (List.takeWhile_prefix _).subset front
          · exact (List.dropWhile_suffix _).subset back
        exact .inr ⟨old,(update_sameFields same).timeout⟩
  | eventAdd other => exact .inr ⟨listed,(add_sameFields p.table other ev).timeout⟩
  | eventDel other => exact .inr ⟨listed,(del_sameFields p.table other ev).timeout⟩
  | eventSet other fd persist =>
    refine .inr ⟨listed,(update_sameFields fun same => proper.1.1 ?_).timeout⟩
    exact same ▸ listed

end Calls

-- What holds at each place of the loop. From the copy to the return of select()
-- the loop thread adds nothing, so whatever it has not seen has an excuse.
def LoopSound {E T : Type} (s : State E T) : Loop E → Prop
  | .top | .returned _ _ => s.lib.pending = []
  | .copied rfds => s.lib.pending = [] ∧ Seen s rfds
  | .computed rfds clock tv | .blocked rfds clock tv =>
    s.lib.pending = [] ∧ Seen s rfds ∧ Timely s clock tv
  | .timed _ _ => ∀ ev ∈ s.lib.pending, ¬ s.lib.table.Watched ev
  | .firing _ | .stopped => True

structure Sound {E T : Type} (s : State E T) : Prop where
  valid : Valid s.lib
  table : s.lib.table.Consistent
  normal : ∀ ev ∈ s.lib.timers, (s.lib.table.event ev).timeout.Normal
  place : LoopSound s s.loop

section Preserved
variable {E T : Type} [DecidableEq E] {s next : State E T}

theorem initial_sound (wakeup : E) (fd : Int) (table : Table E) :
    Sound (initial wakeup fd table : State E T) := by
  have start : Valid (Lists.empty table []) := empty_valid table []
  have clean : (Lists.empty table []).table.Consistent := by
    constructor <;> simp [Lists.empty,Table.Single,Table.Indexed,Table.Distinct,Table.Watched]
  have set : Proper (Lists.empty table []) (.eventSet wakeup fd true) := by
    simp [Proper,Lists.Free,Lists.Unlisted,Lists.empty,Table.Watched]
  have add : Proper ((Lists.empty table []).call (.eventSet wakeup fd true)) (.eventAdd wakeup) := by
    simp [Proper,Lists.Free,Lists.Unlisted,Lists.empty,Table.Watched,Lists.call,ril_event_set,
      Table.update]
  refine ⟨call_valid (call_valid start (proper_allowed set)) (proper_allowed add),
    call_consistent (call_consistent clean set) add,?_,rfl⟩
  intro ev listed
  cases listed

omit [DecidableEq E] in
theorem calcNextTimeout_timely (sound : Sound s) (now : Timeval) :
    Timely s now (s.lib.calcNextTimeout now) := by
  unfold Lists.calcNextTimeout
  cases queue : s.lib.timers with
  | nil => simp [Timely,queue]
  | cons tev rest =>
    have first := sound.normal tev (queue ▸ List.mem_cons_self)
    -- No timer is before the first one.
    have least : ∀ ev ∈ s.lib.timers,
        (s.lib.table.event tev).timeout.value ≤ (s.lib.table.event ev).timeout.value := by
      intro ev listed
      have normal := sound.normal ev listed
      rw [queue] at listed
      rcases List.mem_cons.mp listed with rfl | later
      · exact le_rfl
      · have sorted := sound.valid.sorted
        rw [queue] at sorted
        have ordered := (List.pairwise_cons.mp sorted).1 ev later
        unfold Table.ordered at ordered
        rw [← Bool.not_eq_true,before_iff_value normal first] at ordered
        exact not_lt.mp ordered
    simp only
    split
    · intro ev listed late _
      have bound := least ev listed
      rw [timersub_value] at late
      omega
    · intro ev listed late ahead
      simp [Timeval.value] at ahead

theorem thread_excused [DecidableEq T] {t : T} {op : LibraryCall E} (idle : s.adding t = none)
    {ev : E} (excused : Excused s ev) :
    Excused {s with lib := s.lib.call op,adding := Function.update s.adding t (announced op)} ev := by
  rcases excused with waiting | ⟨u,adds⟩
  · exact .inl waiting
  · refine .inr ⟨u,?_⟩
    have differs : u ≠ t := fun same => by simp [same,idle] at adds
    simp only [Function.update_of_ne differs]
    exact adds

theorem thread_added [DecidableEq T] {t : T} {op : LibraryCall E} {ev : E}
    (new : announced op = some ev) :
    Excused {s with lib := s.lib.call op,adding := Function.update s.adding t (announced op)} ev :=
  .inr ⟨t,by simp only [Function.update_self,new]⟩

theorem thread_seen [DecidableEq T] {t : T} {op : LibraryCall E} {rfds : Finset Int}
    (idle : s.adding t = none) (proper : Proper s.lib op) (seen : Seen s rfds) :
    Seen {s with lib := s.lib.call op,adding := Function.update s.adding t (announced op)} rfds := by
  intro ev watched missing
  rcases call_watched proper watched with rfl | ⟨before,same⟩
  · exact thread_added rfl
  · exact thread_excused idle (seen ev before (same ▸ missing))

theorem thread_timely [DecidableEq T] {t : T} {op : LibraryCall E} {clock : Timeval}
    {tv : Option Timeval} (idle : s.adding t = none) (proper : Proper s.lib op)
    (timely : Timely s clock tv) :
    Timely {s with lib := s.lib.call op,adding := Function.update s.adding t (announced op)} clock
      tv := by
  cases tv with
  | none =>
    intro ev listed
    rcases call_timers proper listed with ⟨new,_⟩ | ⟨before,_⟩
    · exact thread_added new
    · exact thread_excused idle (timely ev before)
  | some tv =>
    intro ev listed late ahead
    rcases call_timers proper listed with ⟨new,_⟩ | ⟨before,same⟩
    · exact thread_added new
    · exact thread_excused idle (timely ev before (same ▸ late) ahead)

theorem call_normal {p : Lists E} {op : LibraryCall E} (proper : Proper p op) (clock : clockRead op)
    (normal : ∀ ev ∈ p.timers, (p.table.event ev).timeout.Normal) :
    ∀ ev ∈ (p.call op).timers, ((p.call op).table.event ev).timeout.Normal := by
  intro ev listed
  rcases call_timers proper listed with ⟨_,new⟩ | ⟨before,same⟩
  · exact new clock
  · rw [same]
    exact normal ev before

theorem readReadies_consistent {rfds : Finset Int} {places : List (Fin MAX_FD_EVENTS)} {n : Int}
    {p : Lists E} (consistent : p.table.Consistent) :
    (Lists.readReadies rfds places n p).table.Consistent ∧
      (Lists.readReadies rfds places n p).timers = p.timers := by
  induction places generalizing p n with
  | nil => exact ⟨consistent,rfl⟩
  | cons i rest ih =>
    unfold Lists.readReadies
    split
    · split
      · exact ih consistent
      · rename_i rev held
        split
        · have queued : (p.queueReady rev i).table.Consistent := by
            unfold Lists.queueReady
            simp only
            split
            · exact removeWatch_consistent consistent held
            · exact consistent
          exact ih queued
        · exact ih consistent
    · exact ⟨consistent,rfl⟩

theorem thread_sound [DecidableEq T] {t : T} {op : LibraryCall E} (sound : Sound s)
    (proper : Proper s.lib op) (idle : s.adding t = none) (clock : clockRead op) :
    Sound {s with lib := s.lib.call op,adding := Function.update s.adding t (announced op)} := by
  have allowed := proper_allowed proper
  have pending := (call_listed allowed).1
  refine ⟨call_valid sound.valid allowed,call_consistent sound.table proper,
    call_normal proper clock sound.normal,?_⟩
  have place := sound.place
  cases loop : s.loop with
  | top | returned rfds n =>
    rw [loop] at place
    exact pending.trans place
  | copied rfds =>
    rw [loop] at place
    exact ⟨pending.trans place.1,thread_seen idle proper place.2⟩
  | computed rfds now tv | blocked rfds now tv =>
    rw [loop] at place
    exact ⟨pending.trans place.1,thread_seen idle proper place.2.1,
      thread_timely idle proper place.2.2⟩
  | timed rfds n =>
    rw [loop] at place
    intro ev listed watched
    simp only [pending] at listed
    rcases call_watched proper watched with rfl | ⟨before,_⟩
    · exact proper.1.1.2 listed
    · exact place ev listed before
  | firing running => trivial
  | stopped => trivial

omit [DecidableEq E] in
theorem trigger_sound [DecidableEq T] (t : T) (sound : Sound s) :
    Sound {s with pipe := s.pipe+1,adding := Function.update s.adding t none} := by
  refine ⟨sound.valid,sound.table,sound.normal,?_⟩
  have woken : ∀ ev, Excused {s with pipe := s.pipe+1,adding := Function.update s.adding t none} ev :=
    fun ev => .inl (Nat.succ_pos _)
  have place := sound.place
  cases loop : s.loop with
  | top | returned rfds n | timed rfds n =>
    rw [loop] at place
    exact place
  | copied rfds =>
    rw [loop] at place
    exact ⟨place.1,fun ev _ _ => woken ev⟩
  | computed rfds now tv | blocked rfds now tv =>
    rw [loop] at place
    refine ⟨place.1,fun ev _ _ => woken ev,?_⟩
    cases tv with
    | none => exact fun ev _ => woken ev
    | some tv => exact fun ev _ _ _ => woken ev
  | firing running => trivial
  | stopped => trivial

theorem step_sound [DecidableEq T] {wakeup : E} {action : Action E T} (sound : Sound s)
    (proper : CallsProper s action) (moved : step wakeup s action = some next) : Sound next := by
  have place := sound.place
  cases action with
  | thread t op =>
    simp only [step] at moved
    split at moved
    · rename_i guard
      cases moved
      exact thread_sound sound proper guard.1 guard.2
    · cases moved
  | trigger t =>
    simp only [step] at moved
    split at moved
    · cases moved
      exact trigger_sound t sound
    · cases moved
  | copyFds =>
    simp only [step] at moved
    split at moved
    · rename_i loop
      cases moved
      rw [loop] at place
      refine ⟨sound.valid,sound.table,sound.normal,place,fun ev watched missing => ?_⟩
      exact absurd ((sound.table.watched _).mpr ⟨ev,watched,rfl⟩) missing
    · cases moved
  | calcNextTimeout now =>
    simp only [step] at moved
    split at moved
    · rename_i rfds loop
      cases moved
      rw [loop] at place
      exact ⟨sound.valid,sound.table,sound.normal,place.1,place.2,calcNextTimeout_timely sound now⟩
    · cases moved
  | select =>
    simp only [step] at moved
    split at moved
    · rename_i rfds clock tv loop
      cases moved
      rw [loop] at place
      exact ⟨sound.valid,sound.table,sound.normal,place⟩
    · cases moved
  | ready rfds n | interrupted =>
    simp only [step] at moved
    split at moved
    · rename_i loop
      cases moved
      rw [loop] at place
      exact ⟨sound.valid,sound.table,sound.normal,place.1⟩
    · cases moved
  | failed =>
    simp only [step] at moved
    split at moved
    · cases moved
      exact ⟨sound.valid,sound.table,sound.normal,trivial⟩
    · cases moved
  | processTimeouts now =>
    simp only [step] at moved
    split at moved
    · rename_i loop
      cases moved
      rw [loop] at place
      refine ⟨processTimeouts_valid sound.valid now,sound.table,?_,?_⟩
      · exact fun ev listed => sound.normal ev ((List.dropWhile_suffix _).subset listed)
      · intro ev listed
        have idle : s.lib.pending = [] := place
        simp only [Lists.processTimeouts,idle,List.nil_append] at listed
        exact sound.valid.unwatched ev ((List.takeWhile_prefix _).subset listed)
    · cases moved
  | processReadReadies =>
    simp only [step] at moved
    split at moved
    · rename_i rfds n loop
      cases moved
      rw [loop] at place
      have fresh : ∀ ev ∈ s.lib.table.ready rfds slots, ev ∉ s.lib.pending := by
        intro ev present listed
        obtain ⟨i,_,held,_⟩ := mem_ready.mp present
        exact place ev listed ⟨i,held⟩
      obtain ⟨valid,_,same,_⟩ := readReadies_queues slots_nodup sound.valid fresh
      obtain ⟨table,timers⟩ := readReadies_consistent sound.table
      refine ⟨valid,table,?_,trivial⟩
      intro ev listed
      show ((Lists.readReadies rfds slots n s.lib).table.event ev).timeout.Normal
      rw [(same ev).timeout]
      exact sound.normal ev (timers ▸ listed)
    · cases moved
  | fire =>
    simp only [step] at moved
    split at moved
    · rename_i ev rest loop queue
      cases moved
      exact ⟨fire_valid sound.valid queue,sound.table,sound.normal,trivial⟩
    · cases moved
  | callback op =>
    simp only [step] at moved
    split at moved
    · rename_i running loop
      split at moved
      · rename_i clock
        cases moved
        refine ⟨call_valid sound.valid (proper_allowed proper),call_consistent sound.table proper,
          call_normal proper clock sound.normal,?_⟩
        rw [loop]
        trivial
      · cases moved
    · cases moved
  | readPipe =>
    simp only [step] at moved
    split at moved
    · rename_i running loop
      split at moved
      · cases moved
        refine ⟨sound.valid,sound.table,sound.normal,?_⟩
        rw [loop]
        trivial
      · cases moved
    · cases moved
  | finish =>
    simp only [step] at moved
    split at moved
    · split at moved
      · cases moved
      · cases moved
        exact ⟨sound.valid,sound.table,sound.normal,trivial⟩
    · cases moved
  | fired =>
    simp only [step] at moved
    split at moved
    · rename_i loop queue
      cases moved
      exact ⟨sound.valid,sound.table,sound.normal,queue⟩
    · cases moved

end Preserved

section Served
variable {E T : Type} [DecidableEq E] [DecidableEq T]

theorem no_wakeup_lost (wakeup : E) (fd : Int) (table : Table E) (actions : List (Action E T))
    (s : State E T)
    (proper : Obeys (step wakeup) CallsProper (initial wakeup fd table) actions)
    (ran : run (step wakeup) (initial wakeup fd table) actions = some s) : NoLostWakeup s := by
  have sound : Sound s := obeys_invariant Sound
    (fun _ _ _ sound proper moved => step_sound sound proper moved)
    (initial_sound wakeup fd table) proper ran
  intro rfds clock tv blocked
  have place := sound.place
  rw [blocked] at place
  exact place.2

end Served

def blankTable : Table (Fin 3) := ⟨fun _ => ⟨0,-1,false,⟨0,0⟩⟩,fun _ => none,∅,0⟩

def lateAdditions : List (Action (Fin 3) Unit) :=
  [.copyFds,.thread () (.timerAdd 1 (some ⟨2,0⟩) ⟨0,0⟩),.trigger (),.calcNextTimeout ⟨0,0⟩,.select,
   .thread () (.eventSet 2 7 false),.thread () (.eventAdd 2)]

theorem no_wakeup_lost_late : ∃ s : State (Fin 3) Unit,
    run (step 0) (initial 0 5 blankTable) lateAdditions = some s ∧
      s.loop = .blocked {5} ⟨0,0⟩ (some ⟨2,0⟩) ∧ NoLostWakeup s := by
  refine ⟨_,rfl,rfl,no_wakeup_lost 0 5 blankTable lateAdditions _ ?_ rfl⟩
  refine obeys_step rfl trivial (obeys_step rfl ?_ (obeys_step rfl trivial (obeys_step rfl trivial
    (obeys_step rfl trivial (obeys_step rfl ?_ (obeys_step rfl ?_ trivial))))))
  · exact ⟨⟨⟨by decide,by decide⟩,by decide⟩,by decide⟩
  · exact ⟨⟨by decide,by decide⟩,by decide⟩
  · exact ⟨⟨⟨by decide,by decide⟩,by decide⟩,by decide⟩

def unnormalised : List (Action (Fin 3) Unit) :=
  [.thread () (.timerAdd 1 (some ⟨0,5000000⟩) ⟨0,0⟩),.trigger (),
   .thread () (.timerAdd 2 (some ⟨2,0⟩) ⟨0,0⟩),.trigger (),
   .copyFds,.calcNextTimeout ⟨0,0⟩,.select,.ready {5} 1,.processTimeouts ⟨0,0⟩,.processReadReadies,
   .fire,.readPipe,.finish,.fired,.copyFds,.calcNextTimeout ⟨0,0⟩,.select]

theorem late_wakeup : ∃ s : State (Fin 3) Unit,
    run (step 0) (initial 0 5 blankTable) unnormalised = some s ∧ ¬ NoLostWakeup s := by
  refine ⟨_,rfl,fun kept => ?_⟩
  have timely := (kept {5} ⟨0,0⟩ (some ⟨1,4000000⟩) rfl).2
  have excused := timely 2 (by decide) (by decide) (by decide)
  rcases excused with waiting | ⟨t,adds⟩
  · exact absurd waiting (by decide)
  · cases adds

end SemcMsm7x30.EventLoop

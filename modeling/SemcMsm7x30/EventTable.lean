import Mathlib

namespace SemcMsm7x30

structure Timeval where
  tv_sec : Int
  tv_usec : Int
  deriving DecidableEq, Repr

def timeradd (a b : Timeval) : Timeval :=
  let sum : Timeval := ⟨a.tv_sec+b.tv_sec,a.tv_usec+b.tv_usec⟩
  if 1000000 ≤ sum.tv_usec then ⟨sum.tv_sec+1,sum.tv_usec-1000000⟩ else sum

def timercmp (a b : Timeval) (op : Int → Int → Bool) : Bool :=
  if a.tv_sec = b.tv_sec then op a.tv_usec b.tv_usec else op a.tv_sec b.tv_sec

def timersub (a b : Timeval) : Timeval :=
  let res : Timeval := ⟨a.tv_sec-b.tv_sec,a.tv_usec-b.tv_usec⟩
  if res.tv_usec < 0 then ⟨res.tv_sec-1,res.tv_usec+1000000⟩ else res

def Timeval.before (a b : Timeval) : Bool := timercmp a b fun x y => x < y
def Timeval.after (a b : Timeval) : Bool := timercmp a b fun x y => x > y

theorem after_eq_before (a b : Timeval) : a.after b = b.before a := by
  unfold Timeval.after Timeval.before timercmp
  simp only [gt_iff_lt,eq_comm]

theorem before_iff {a b : Timeval} :
    a.before b = true ↔ a.tv_sec < b.tv_sec ∨ (a.tv_sec = b.tv_sec ∧ a.tv_usec < b.tv_usec) := by
  unfold Timeval.before timercmp
  split
  · rename_i same
    simp [same]
  · rename_i differs
    simp [differs]

def Timeval.Normal (a : Timeval) : Prop := 0 ≤ a.tv_usec ∧ a.tv_usec < 1000000

instance (a : Timeval) : Decidable a.Normal :=
  inferInstanceAs (Decidable (0 ≤ a.tv_usec ∧ a.tv_usec < 1000000))

def Timeval.value (a : Timeval) : Int := a.tv_sec*1000000+a.tv_usec

theorem before_iff_value {a b : Timeval} (normalA : a.Normal) (normalB : b.Normal) :
    a.before b = true ↔ a.value < b.value := by
  unfold Timeval.Normal at normalA normalB
  rw [before_iff]
  unfold Timeval.value
  omega

theorem timeradd_normal {a b : Timeval} (normalA : a.Normal) (normalB : b.Normal) :
    (timeradd a b).Normal := by
  unfold Timeval.Normal timeradd at *
  simp only
  split <;> simp only <;> omega

theorem timersub_value (a b : Timeval) : (timersub a b).value = a.value-b.value := by
  unfold Timeval.value timersub
  simp only
  split <;> simp only <;> omega

structure RilEvent where
  fd : Int
  index : Int
  persist : Bool
  timeout : Timeval
  deriving DecidableEq, Repr

def MAX_FD_EVENTS : Nat := 8

structure Table (E : Type) where
  event : E → RilEvent
  watch_table : Fin MAX_FD_EVENTS → Option E
  readFds : Finset Int
  nfds : Int

def slots : List (Fin MAX_FD_EVENTS) := List.finRange MAX_FD_EVENTS

theorem slots_nodup : slots.Nodup := List.nodup_finRange MAX_FD_EVENTS

section Functions
variable {E : Type} [DecidableEq E]

def Table.update (t : Table E) (ev : E) (fields : RilEvent) : Table E :=
  {t with event := Function.update t.event ev fields}

-- The search of removeWatch for the largest descriptor still watched.
def Table.largestFd (t : Table E) : Int :=
  slots.foldl (fun n i =>
    match t.watch_table i with
    | none => n
    | some rev => if n < (t.event rev).fd then (t.event rev).fd else n) 0

def removeWatch (t : Table E) (ev : E) (index : Fin MAX_FD_EVENTS) : Table E :=
  let fd := (t.event ev).fd
  let t := {t with watch_table := Function.update t.watch_table index none}
  let t := t.update ev {t.event ev with index := -1}
  let t := {t with readFds := t.readFds.erase fd}
  if fd+1 = t.nfds then {t with nfds := t.largestFd+1} else t

def ril_event_set (t : Table E) (ev : E) (fd : Int) (persist : Bool) : Table E :=
  t.update ev ⟨fd,-1,persist,⟨0,0⟩⟩

def Table.freeSlot (t : Table E) : Option (Fin MAX_FD_EVENTS) :=
  slots.find? fun i => (t.watch_table i).isNone

-- A full table drops the event silently.
def ril_event_add (t : Table E) (ev : E) : Table E :=
  match t.freeSlot with
  | none => t
  | some i =>
    let fd := (t.event ev).fd
    let t := {t with watch_table := Function.update t.watch_table i (some ev)}
    let t := t.update ev {t.event ev with index := i}
    {t with readFds := insert fd t.readFds,nfds := if t.nfds ≤ fd then fd+1 else t.nfds}

def ril_event_del (t : Table E) (ev : E) : Table E :=
  if range : 0 ≤ (t.event ev).index ∧ (t.event ev).index < MAX_FD_EVENTS then
    removeWatch t ev ⟨(t.event ev).index.toNat,by omega⟩
  else t

def setTimer (t : Table E) (ev : E) (now tv : Timeval) : Table E :=
  t.update ev {t.event ev with fd := -1,timeout := timeradd now tv}

def Table.Watched (t : Table E) (ev : E) : Prop := ∃ i, t.watch_table i = some ev

instance (t : Table E) (ev : E) : Decidable (t.Watched ev) :=
  inferInstanceAs (Decidable (∃ i, t.watch_table i = some ev))

theorem removeWatch_watch (t : Table E) (ev : E) (i : Fin MAX_FD_EVENTS) :
    (removeWatch t ev i).watch_table = Function.update t.watch_table i none := by
  simp only [removeWatch]
  split <;> rfl

theorem removeWatch_event (t : Table E) (ev : E) (i : Fin MAX_FD_EVENTS) :
    (removeWatch t ev i).event = Function.update t.event ev {t.event ev with index := -1} := by
  simp only [removeWatch]
  split <;> rfl

theorem removeWatch_readFds (t : Table E) (ev : E) (i : Fin MAX_FD_EVENTS) :
    (removeWatch t ev i).readFds = t.readFds.erase (t.event ev).fd := by
  simp only [removeWatch]
  split <;> rfl

structure SameFields (t next : Table E) (ev : E) : Prop where
  fd : (next.event ev).fd = (t.event ev).fd
  persist : (next.event ev).persist = (t.event ev).persist
  timeout : (next.event ev).timeout = (t.event ev).timeout

omit [DecidableEq E] in
theorem sameFields_refl (t : Table E) (ev : E) : SameFields t t ev := ⟨rfl,rfl,rfl⟩

omit [DecidableEq E] in
theorem SameFields.trans {t middle next : Table E} {ev : E} (one : SameFields t middle ev)
    (two : SameFields middle next ev) : SameFields t next ev :=
  ⟨two.fd.trans one.fd,two.persist.trans one.persist,two.timeout.trans one.timeout⟩

theorem sameFields_of_index {t next : Table E} {ev : E} {index : Int}
    (event : next.event = Function.update t.event ev {t.event ev with index := index}) (other : E) :
    SameFields t next other := by
  by_cases same : other = ev
  · subst same
    constructor <;> rw [event,Function.update_self]
  · constructor <;> rw [event,Function.update_of_ne same]

theorem update_sameFields {t : Table E} {ev other : E} {fields : RilEvent} (differs : other ≠ ev) :
    SameFields t (t.update ev fields) other := by
  constructor <;> simp only [Table.update,Function.update_of_ne differs]

theorem removeWatch_sameFields (t : Table E) (ev : E) (i : Fin MAX_FD_EVENTS) (other : E) :
    SameFields t (removeWatch t ev i) other :=
  sameFields_of_index (removeWatch_event t ev i) other

theorem add_sameFields (t : Table E) (ev other : E) : SameFields t (ril_event_add t ev) other := by
  unfold ril_event_add
  split
  · exact sameFields_refl t other
  · exact sameFields_of_index rfl other

theorem del_sameFields (t : Table E) (ev other : E) : SameFields t (ril_event_del t ev) other := by
  unfold ril_event_del
  split
  · exact removeWatch_sameFields t ev _ other
  · exact sameFields_refl t other

theorem add_slot {t : Table E} {ev other : E} {i : Fin MAX_FD_EVENTS}
    (held : (ril_event_add t ev).watch_table i = some other) :
    t.watch_table i = some other ∨ (other = ev ∧ t.freeSlot = some i) := by
  unfold ril_event_add at held
  split at held
  · exact .inl held
  · rename_i free found
    by_cases same : i = free
    · subst same
      simp only [Table.update,Function.update_self,Option.some.injEq] at held
      exact .inr ⟨held.symm,found⟩
    · simp only [Table.update,Function.update_of_ne same] at held
      exact .inl held

theorem removeWatch_slot {t : Table E} {ev other : E} {i j : Fin MAX_FD_EVENTS}
    (held : (removeWatch t ev j).watch_table i = some other) :
    t.watch_table i = some other ∧ i ≠ j := by
  rw [removeWatch_watch] at held
  by_cases same : i = j
  · subst same
    simp at held
  · rw [Function.update_of_ne same] at held
    exact ⟨held,same⟩

theorem del_slot {t : Table E} {ev other : E} {i : Fin MAX_FD_EVENTS}
    (held : (ril_event_del t ev).watch_table i = some other) : t.watch_table i = some other := by
  unfold ril_event_del at held
  split at held
  · exact (removeWatch_slot held).1
  · exact held

def Table.Single (t : Table E) : Prop :=
  ∀ i j ev, t.watch_table i = some ev → t.watch_table j = some ev → i = j

theorem add_single {t : Table E} {ev : E} (single : t.Single) (fresh : ¬ t.Watched ev) :
    (ril_event_add t ev).Single := by
  intro i j other atI atJ
  rcases add_slot atI with oldI | ⟨rfl,freeI⟩
  · rcases add_slot atJ with oldJ | ⟨rfl,_⟩
    · exact single i j other oldI oldJ
    · exact absurd ⟨i,oldI⟩ fresh
  · rcases add_slot atJ with oldJ | ⟨_,freeJ⟩
    · exact absurd ⟨j,oldJ⟩ fresh
    · exact Option.some.inj (freeI.symm.trans freeJ)

theorem removeWatch_single {t : Table E} (single : t.Single) (ev : E) (i : Fin MAX_FD_EVENTS) :
    (removeWatch t ev i).Single :=
  fun j k other atJ atK => single j k other (removeWatch_slot atJ).1 (removeWatch_slot atK).1

theorem del_single {t : Table E} (single : t.Single) (ev : E) : (ril_event_del t ev).Single :=
  fun i j other atI atJ => single i j other (del_slot atI) (del_slot atJ)

theorem add_watched {t : Table E} {ev other : E} (watched : (ril_event_add t ev).Watched other) :
    t.Watched other ∨ other = ev := by
  obtain ⟨i,held⟩ := watched
  rcases add_slot held with old | ⟨same,_⟩
  · exact .inl ⟨i,old⟩
  · exact .inr same

omit [DecidableEq E] in
theorem freeSlot_none {t : Table E} {i : Fin MAX_FD_EVENTS} (found : t.freeSlot = some i) :
    t.watch_table i = none := by
  simpa using List.find?_some found

theorem add_watched_iff {t : Table E} {ev other : E} {free : Fin MAX_FD_EVENTS}
    (found : t.freeSlot = some free) :
    (ril_event_add t ev).Watched other ↔ t.Watched other ∨ other = ev := by
  have watch : (ril_event_add t ev).watch_table = Function.update t.watch_table free (some ev) := by
    simp only [ril_event_add,found]
    rfl
  refine ⟨add_watched,fun either => ?_⟩
  unfold Table.Watched
  rw [watch]
  rcases either with ⟨i,held⟩ | rfl
  · have differs : i ≠ free := by
      intro same
      rw [same,freeSlot_none found] at held
      cases held
    exact ⟨i,by rw [Function.update_of_ne differs]; exact held⟩
  · exact ⟨free,Function.update_self ..⟩

theorem removeWatch_watched {t : Table E} {ev other : E} {i : Fin MAX_FD_EVENTS} (single : t.Single)
    (held : t.watch_table i = some ev) :
    (removeWatch t ev i).Watched other ↔ t.Watched other ∧ other ≠ ev := by
  constructor
  · intro ⟨j,still⟩
    obtain ⟨before,differs⟩ := removeWatch_slot still
    exact ⟨⟨j,before⟩,fun same => differs (single j i ev (same ▸ before) held)⟩
  · intro ⟨⟨j,before⟩,differs⟩
    have place : j ≠ i := by
      intro same
      rw [same,held] at before
      exact differs (Option.some.inj before).symm
    exact ⟨j,by rw [removeWatch_watch,Function.update_of_ne place]; exact before⟩

def Table.Indexed (t : Table E) : Prop :=
  ∀ i ev, t.watch_table i = some ev → (t.event ev).index = i

theorem add_indexed {t : Table E} {ev : E} (indexed : t.Indexed) (fresh : ¬ t.Watched ev) :
    (ril_event_add t ev).Indexed := by
  intro i other held
  rcases add_slot held with before | ⟨rfl,place⟩
  · have differs : other ≠ ev := fun same => fresh ⟨i,same ▸ before⟩
    rw [← indexed i other before]
    unfold ril_event_add
    split
    · rfl
    · simp only [Table.update,Function.update_of_ne differs]
  · simp only [ril_event_add,place,Table.update,Function.update_self]

theorem removeWatch_indexed {t : Table E} {ev : E} {i : Fin MAX_FD_EVENTS} (single : t.Single)
    (indexed : t.Indexed) (held : t.watch_table i = some ev) : (removeWatch t ev i).Indexed := by
  intro j other still
  have differs : other ≠ ev := ((removeWatch_watched single held).mp ⟨j,still⟩).2
  rw [removeWatch_event,Function.update_of_ne differs]
  exact indexed j other (removeWatch_slot still).1

theorem del_eq {t : Table E} {ev : E} {i : Fin MAX_FD_EVENTS} (indexed : t.Indexed)
    (held : t.watch_table i = some ev) : ril_event_del t ev = removeWatch t ev i := by
  have index := indexed i ev held
  have range : 0 ≤ (t.event ev).index ∧ (t.event ev).index < MAX_FD_EVENTS := by omega
  have place : (⟨(t.event ev).index.toNat,by omega⟩ : Fin MAX_FD_EVENTS) = i := by
    apply Fin.ext
    simp [index]
  rw [ril_event_del,dif_pos range,place]

theorem update_indexed {t : Table E} {ev : E} {fields : RilEvent} (indexed : t.Indexed)
    (unwatched : ¬ t.Watched ev) : (t.update ev fields).Indexed := by
  intro i other held
  have differs : other ≠ ev := fun equal => unwatched ⟨i,equal ▸ held⟩
  simp only [Table.update,Function.update_of_ne differs]
  exact indexed i other held

def Table.Distinct (t : Table E) : Prop :=
  ∀ a b, t.Watched a → t.Watched b → (t.event a).fd = (t.event b).fd → a = b

structure Table.Consistent (t : Table E) : Prop where
  single : t.Single
  distinct : t.Distinct
  indexed : t.Indexed
  watched : ∀ fd, fd ∈ t.readFds ↔ ∃ ev, t.Watched ev ∧ (t.event ev).fd = fd

theorem add_consistent {t : Table E} {ev : E} (consistent : t.Consistent) (fresh : ¬ t.Watched ev)
    (alone : ∀ other, t.Watched other → (t.event other).fd ≠ (t.event ev).fd) :
    (ril_event_add t ev).Consistent := by
  have fields := fun other => (add_sameFields t ev other).fd
  refine ⟨add_single consistent.single fresh,?_,add_indexed consistent.indexed fresh,?_⟩
  · intro a b watchedA watchedB same
    rw [fields,fields] at same
    rcases add_watched watchedA with oldA | rfl
    · rcases add_watched watchedB with oldB | rfl
      · exact consistent.distinct a b oldA oldB same
      · exact absurd same (alone a oldA)
    · rcases add_watched watchedB with oldB | rfl
      · exact absurd same.symm (alone b oldB)
      · rfl
  · intro fd
    cases found : t.freeSlot with
    | none =>
      have same : ril_event_add t ev = t := by simp only [ril_event_add,found]
      rw [same]
      exact consistent.watched fd
    | some free =>
      have fds : (ril_event_add t ev).readFds = insert (t.event ev).fd t.readFds := by
        simp only [ril_event_add,found]
        rfl
      rw [fds,Finset.mem_insert,consistent.watched]
      simp only [fields,add_watched_iff found]
      constructor
      · intro present
        rcases present with rfl | ⟨other,watched,same⟩
        · exact ⟨ev,.inr rfl,rfl⟩
        · exact ⟨other,.inl watched,same⟩
      · intro ⟨other,watched,same⟩
        rcases watched with before | rfl
        · exact .inr ⟨other,before,same⟩
        · exact .inl same.symm

theorem removeWatch_consistent {t : Table E} {ev : E} {i : Fin MAX_FD_EVENTS}
    (consistent : t.Consistent) (held : t.watch_table i = some ev) :
    (removeWatch t ev i).Consistent := by
  have fields := fun other => (removeWatch_sameFields t ev i other).fd
  have rest : ∀ other, (removeWatch t ev i).Watched other ↔ t.Watched other ∧ other ≠ ev :=
    fun _ => removeWatch_watched consistent.single held
  refine ⟨removeWatch_single consistent.single ev i,?_,
    removeWatch_indexed consistent.single consistent.indexed held,?_⟩
  · intro a b watchedA watchedB same
    rw [fields,fields] at same
    exact consistent.distinct a b ((rest a).mp watchedA).1 ((rest b).mp watchedB).1 same
  · intro fd
    rw [removeWatch_readFds,Finset.mem_erase,consistent.watched]
    simp only [fields,rest]
    constructor
    · intro ⟨differs,other,watched,same⟩
      exact ⟨other,⟨watched,fun equal => differs (equal ▸ same.symm)⟩,same⟩
    · intro ⟨other,⟨watched,differs⟩,same⟩
      refine ⟨fun equal => differs ?_,other,watched,same⟩
      exact consistent.distinct other ev watched ⟨i,held⟩ (same.trans equal)

theorem del_consistent {t : Table E} {ev : E} (consistent : t.Consistent)
    (known : t.Watched ev ∨ (t.event ev).index < 0 ∨ MAX_FD_EVENTS ≤ (t.event ev).index) :
    (ril_event_del t ev).Consistent := by
  rcases known with ⟨i,held⟩ | outside
  · rw [del_eq consistent.indexed held]
    exact removeWatch_consistent consistent held
  · rw [ril_event_del,dif_neg (by omega)]
    exact consistent

theorem update_consistent {t : Table E} {ev : E} {fields : RilEvent} (consistent : t.Consistent)
    (unwatched : ¬ t.Watched ev) : (t.update ev fields).Consistent := by
  have same : ∀ other, t.Watched other → (t.update ev fields).event other = t.event other := by
    intro other watched
    have differs : other ≠ ev := fun equal => unwatched (equal ▸ watched)
    simp only [Table.update,Function.update_of_ne differs]
  refine ⟨consistent.single,?_,update_indexed consistent.indexed unwatched,?_⟩
  · intro a b watchedA watchedB equal
    rw [same a watchedA,same b watchedB] at equal
    exact consistent.distinct a b watchedA watchedB equal
  · intro fd
    rw [show (t.update ev fields).readFds = t.readFds from rfl,consistent.watched]
    constructor
    · intro ⟨other,watched,equal⟩
      exact ⟨other,watched,by rw [same other watched]; exact equal⟩
    · intro ⟨other,watched,equal⟩
      exact ⟨other,watched,by rw [same other watched] at equal; exact equal⟩

end Functions

end SemcMsm7x30

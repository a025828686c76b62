import SemcMsm7x30.PartialMachine
import SemcMsm7x30.RilTypes

namespace SemcMsm7x30.FrameWriter
open PartialMachine

def htonl (n : Nat) : List UInt8 :=
  [UInt8.ofNat (n/2^24),UInt8.ofNat (n/2^16),UInt8.ofNat (n/2^8),UInt8.ofNat n]

@[simp] theorem htonl_length (n : Nat) : (htonl n).length = 4 := rfl

def frame (data : List UInt8) : List UInt8 := htonl data.length ++ data

theorem frame_length (data : List UInt8) : (frame data).length = 4+data.length := by
  simp [frame]

inductive Part where
  | header | body
  deriving DecidableEq, Repr

-- Where one call of sendResponseRaw stands. `writing part off` is the loop head
-- of blockingWrite with writeOffset = off < len; `closing` is its error branch
-- before close(fd); the mutex is held from `writing header 0` to `unlocking`.
inductive Pc where
  | idle
  | waiting
  | writing (part : Part) (off : Nat)
  | closing (part : Part) (off : Nat)
  | unlocking (ret : Int)
  | returned (ret : Int)
  deriving DecidableEq, Repr

def Pc.inside : Pc → Prop
  | .writing .. | .closing .. | .unlocking _ => True
  | _ => False

-- One connection of one socket. `C` names the calls of sendResponseRaw for it;
-- `wire` is what the peer can read from the connection.
structure State (C : Type) where
  fdCommand : Int
  isOpen : Bool
  owner : Option C
  wire : List UInt8
  pc : C → Pc

def initial (C : Type) (fd : Nat) : State C := ⟨fd,true,none,[],fun _ => .idle⟩

-- The outcomes of one write(): some bytes, EINTR or EAGAIN, any other error.
inductive Written where
  | bytes (count : Nat)
  | retry
  | error
  deriving DecidableEq, Repr

inductive Action (C : Type) where
  | call (c : C)
  | lock (c : C)
  | write (c : C) (result : Written)
  | close (c : C)
  | unlock (c : C)
  | hangup
  | forget
  deriving DecidableEq, Repr

section Machine
variable {C : Type} (data : C → List UInt8)

def buffer (c : C) : Part → List UInt8
  | .header => htonl (data c).length
  | .body => data c

def enter (c : C) : Part → Nat → Pc
  | .header,off => if off < 4 then .writing .header off else
      if 0 < (data c).length then .writing .body 0 else .unlocking 0
  | .body,off => if off < (data c).length then .writing .body off else .unlocking 0

def goto [DecidableEq C] (s : State C) (c : C) (pc : Pc) : State C := {s with pc := Function.update s.pc c pc}

def step [DecidableEq C] (s : State C) : Action C → Option (State C)
  | .call c =>
    if s.pc c = .idle then
      if s.fdCommand < 0 then some (goto s c (.returned (-1)))
      else if MAX_COMMAND_BYTES < (data c).length then some (goto s c (.returned (-1)))
      else some (goto s c .waiting)
    else none
  | .lock c =>
    if s.pc c = .waiting ∧ s.owner = none then
      some (goto {s with owner := some c} c (enter data c .header 0))
    else none
  | .write c result =>
    match s.pc c,result with
    | .writing part off,.bytes count =>
      if s.isOpen ∧ 0 < count ∧ off+count ≤ (buffer data c part).length then
        some (goto {s with wire := s.wire ++ ((buffer data c part).drop off).take count} c
          (enter data c part (off+count)))
      else none
    | .writing _ _,.retry => some s
    | .writing part off,.error => some (goto s c (.closing part off))
    | _,_ => none
  | .close c =>
    match s.pc c with
    | .closing _ _ => some (goto {s with isOpen := false} c (.unlocking (-1)))
    | _ => none
  | .unlock c =>
    match s.pc c with
    | .unlocking ret => some (goto {s with owner := none} c (.returned ret))
    | _ => none
  | .hangup => some {s with isOpen := false}
  | .forget => some {s with fdCommand := -1}

def sentOf : Part → Nat → Nat
  | .header,off => off
  | .body,off => 4+off

def sent : Pc → Nat
  | .writing part off | .closing part off => sentOf part off
  | _ => 0

def current (s : State C) : List UInt8 :=
  match s.owner with
  | none => []
  | some c => (frame (data c)).take (sent (s.pc c))

def Dead (s : State C) : Prop :=
  s.isOpen = false ∨ ∃ c part off, s.owner = some c ∧ s.pc c = .closing part off

structure CallOk (done : List C) (owner : Option C) (c : C) (pc : Pc) : Prop where
  finished : c ∈ done ↔ pc = .unlocking 0 ∨ pc = .returned 0
  returns : ∀ ret, pc = .unlocking ret ∨ pc = .returned ret → ret = 0 ∨ ret = -1
  small : pc = .waiting ∨ pc.inside ∨ pc = .returned 0 → (data c).length ≤ MAX_COMMAND_BYTES
  held : owner = some c ↔ pc.inside
  offset : ∀ part off, pc = .writing part off ∨ pc = .closing part off →
    off < (buffer data c part).length

def Torn (done : List C) (rest : List UInt8) : Prop :=
  ∃ c n, c ∉ done ∧ (data c).length ≤ MAX_COMMAND_BYTES ∧
    rest = (frame (data c)).take n ∧ n < (frame (data c)).length

-- `done` lists the calls whose frames are complete on the wire, in wire order;
-- `rest` is what follows the last of them.
structure Intact (s : State C) (done : List C) (rest : List UInt8) : Prop where
  wire : s.wire = (done.map fun c => frame (data c)).flatten ++ rest
  nodup : done.Nodup
  calls : ∀ c, CallOk data done s.owner c (s.pc c)
  rest_open : s.isOpen = true → rest = current data s
  rest_closed : s.isOpen = false → rest = [] ∨ Torn data done rest

variable {data}

theorem initial_intact (fd : Nat) : Intact data (initial C fd) [] [] := by
  refine ⟨rfl,.nil,fun c => ?_,fun _ => rfl,fun _ => .inl rfl⟩
  constructor <;> simp [initial,Pc.inside]

theorem take_advance {c : C} {part : Part} {off count : Nat}
    (fits : off+count ≤ (buffer data c part).length) :
    (frame (data c)).take (sentOf part (off+count)) =
      (frame (data c)).take (sentOf part off) ++ ((buffer data c part).drop off).take count := by
  cases part with
  | header =>
    simp only [buffer,htonl_length] at fits
    simp only [sentOf,frame,buffer,List.take_append,htonl_length,
      Nat.sub_eq_zero_of_le fits,Nat.sub_eq_zero_of_le (Nat.le_of_add_right_le fits),List.take_zero,
      List.append_nil]
    exact List.take_add
  | body =>
    have shape : ∀ n, (frame (data c)).take (4+n) = htonl (data c).length ++ (data c).take n :=
      fun n => @List.take_length_add_append _ (htonl (data c).length) _ n
    simp only [sentOf,shape,buffer,List.take_add,List.append_assoc]

theorem enter_cases {c : C} {part : Part} {off : Nat} (fits : off ≤ (buffer data c part).length) :
    enter data c part off = .unlocking 0 ∧ sentOf part off = (frame (data c)).length ∨
    ∃ part' off', enter data c part off = .writing part' off' ∧
      off' < (buffer data c part').length ∧ sentOf part' off' = sentOf part off := by
  rw [frame_length]
  cases part with
  | header =>
    simp only [buffer,htonl_length] at fits
    simp only [enter,sentOf]
    split
    · rename_i more; exact .inr ⟨.header,off,rfl,more,rfl⟩
    · split
      · rename_i full more; exact .inr ⟨.body,0,rfl,more,by simp only; omega⟩
      · rename_i full empty; exact .inl ⟨rfl,by omega⟩
  | body =>
    simp only [buffer] at fits
    simp only [enter,sentOf]
    split
    · rename_i more; exact .inr ⟨.body,off,rfl,more,rfl⟩
    · rename_i full; exact .inl ⟨rfl,by omega⟩

theorem loop_facts {s : State C} {c : C} {done : List C} {rest : List UInt8} {part : Part} {off : Nat}
    (valid : Intact data s done rest)
    (inLoop : s.pc c = .writing part off ∨ s.pc c = .closing part off) :
    c ∉ done ∧ s.owner = some c ∧ (data c).length ≤ MAX_COMMAND_BYTES := by
  have call := valid.calls c
  have inside : (s.pc c).inside := by rcases inLoop with at_ | at_ <;> rw [at_] <;> trivial
  refine ⟨?_,call.held.mpr inside,call.small (.inr (.inl inside))⟩
  intro present
  have finished := call.finished.mp present
  rcases inLoop with at_ | at_ <;> simp [at_] at finished

theorem rest_writing {s : State C} {c : C} {done : List C} {rest : List UInt8} {part : Part} {off : Nat}
    (valid : Intact data s done rest)
    (writing : s.pc c = .writing part off) (opened : s.isOpen = true) :
    rest = (frame (data c)).take (sentOf part off) := by
  rw [valid.rest_open opened]
  simp [current,(loop_facts valid (.inl writing)).2.1,writing,sent]

theorem current_cases {s : State C} {done : List C} {rest : List UInt8}
    (valid : Intact data s done rest) : current data s = [] ∨
    ∃ c part off, (s.pc c = .writing part off ∨ s.pc c = .closing part off) ∧
      current data s = (frame (data c)).take (sentOf part off) ∧
      sentOf part off < (frame (data c)).length := by
  cases holder : s.owner with
  | none => exact .inl (by simp [current,holder])
  | some c =>
    have shape : current data s = (frame (data c)).take (sent (s.pc c)) := by simp [current,holder]
    rw [shape]
    cases position : s.pc c with
    | writing part off | closing part off =>
      refine .inr ⟨c,part,off,by simp [position],rfl,?_⟩
      have bound := (valid.calls c).offset part off (by simp [position])
      rw [frame_length]
      cases part <;> simp only [sentOf,buffer,htonl_length] at * <;> omega
    | idle | waiting | unlocking _ | returned _ => exact .inl (by simp [sent])

theorem current_torn {s : State C} {done : List C} {rest : List UInt8}
    (valid : Intact data s done rest) : current data s = [] ∨ Torn data done (current data s) := by
  rcases current_cases valid with empty | ⟨c,part,off,inLoop,shape,short⟩
  · exact .inl empty
  · obtain ⟨fresh,_,small⟩ := loop_facts valid inLoop
    exact .inr ⟨c,sentOf part off,fresh,small,shape,short⟩

theorem hangup_intact {s : State C} {done : List C} {rest : List UInt8}
    (valid : Intact data s done rest) :
    Intact data {s with isOpen := false} done rest := by
  refine ⟨valid.wire,valid.nodup,valid.calls,fun opened => Bool.noConfusion opened,fun _ => ?_⟩
  cases opened : s.isOpen with
  | true => rw [valid.rest_open opened]; exact current_torn valid
  | false => exact valid.rest_closed opened

section Steps
variable [DecidableEq C] {s next : State C} {c : C} {done : List C} {rest : List UInt8}

theorem calls_update {done' : List C} {owner' : Option C} {pc : Pc}
    (calls : ∀ d, CallOk data done s.owner d (s.pc d))
    (others : ∀ d, d ≠ c → (d ∈ done' ↔ d ∈ done) ∧ (owner' = some d ↔ s.owner = some d))
    (here : CallOk data done' owner' c pc) (d : C) :
    CallOk data done' owner' d (Function.update s.pc c pc d) := by
  by_cases same : d = c
  · subst same
    rw [Function.update_self]
    exact here
  · rw [Function.update_of_ne same]
    obtain ⟨members,holder⟩ := others d same
    have old := calls d
    exact ⟨members.trans old.finished,old.returns,old.small,holder.trans old.held,old.offset⟩

@[simp] theorem goto_owner (pc : Pc) : (goto s c pc).owner = s.owner := rfl
@[simp] theorem goto_isOpen (pc : Pc) : (goto s c pc).isOpen = s.isOpen := rfl
@[simp] theorem goto_wire (pc : Pc) : (goto s c pc).wire = s.wire := rfl

theorem current_goto_other {pc : Pc} (outside : s.owner ≠ some c) :
    current data (goto s c pc) = current data s := by
  unfold current goto
  cases holder : s.owner with
  | none => rfl
  | some d =>
    have other : d ≠ c := by rintro rfl; exact outside holder
    simp [other]

theorem call_intact (valid : Intact data s done rest) (moved : step data s (.call c) = some next) :
    Intact data next done rest := by
  simp only [step] at moved
  split at moved
  · rename_i idle
    have call := valid.calls c
    rw [idle] at call
    have outside : s.owner ≠ some c := fun holds => call.held.mp holds
    have fresh : c ∉ done := fun present => by simpa using call.finished.mp present
    have goes : ∀ pc, CallOk data done s.owner c pc → Intact data (goto s c pc) done rest := by
      intro pc here
      refine ⟨valid.wire,valid.nodup,?_,?_,valid.rest_closed⟩
      · exact calls_update valid.calls (fun _ _ => ⟨Iff.rfl,Iff.rfl⟩) here
      · intro opened
        rw [current_goto_other outside]
        exact valid.rest_open opened
    split at moved
    · cases moved
      exact goes _ (by constructor <;> simp [fresh,outside,Pc.inside])
    · split at moved
      · cases moved
        exact goes _ (by constructor <;> simp [fresh,outside,Pc.inside])
      · rename_i fits
        cases moved
        exact goes _ (by constructor <;> simp [fresh,outside,Pc.inside]; omega)
  · cases moved

theorem lock_intact (valid : Intact data s done rest) (moved : step data s (.lock c) = some next) :
    Intact data next done rest := by
  simp only [step] at moved
  split at moved
  · rename_i ready
    obtain ⟨waiting,unlocked⟩ := ready
    cases moved
    have call := valid.calls c
    rw [waiting] at call
    have fresh : c ∉ done := fun present => by simpa using call.finished.mp present
    refine ⟨valid.wire,valid.nodup,?_,?_,valid.rest_closed⟩
    · refine calls_update (s := s) valid.calls (fun d other => ⟨Iff.rfl,?_⟩) ?_
      · simp [unlocked,Ne.symm other]
      · constructor <;> simp [enter,fresh,Pc.inside,buffer]
        exact call.small (.inl rfl)
    · intro opened
      rw [valid.rest_open opened]
      simp [current,goto,unlocked,enter,sent,sentOf]
  · cases moved

theorem finish_intact {part : Part} {off : Nat} {bytes : List UInt8}
    (valid : Intact data s done rest) (writing : s.pc c = .writing part off)
    (opened : s.isOpen = true)
    (whole : frame (data c) = (frame (data c)).take (sentOf part off) ++ bytes) :
    Intact data (goto {s with wire := s.wire ++ bytes} c (.unlocking 0)) (done ++ [c]) [] := by
  obtain ⟨fresh,holder,small⟩ := loop_facts valid (.inl writing)
  have before := rest_writing valid writing opened
  refine ⟨?_,?_,?_,?_,fun _ => .inl rfl⟩
  · simp only [goto,valid.wire,before,List.append_assoc,← whole]
    simp
  · exact List.nodup_append.mpr ⟨valid.nodup,by simp,by simpa using fun d present => ne_of_mem_of_not_mem present fresh⟩
  · refine calls_update (s := s) valid.calls (fun d other => ⟨by simp [other],Iff.rfl⟩) ?_
    constructor <;> simp [Pc.inside,holder,small]
  · intro _
    simp [current,goto,holder,sent]

theorem progress_intact {part part' : Part} {off off' : Nat} {bytes : List UInt8}
    (valid : Intact data s done rest) (writing : s.pc c = .writing part off)
    (opened : s.isOpen = true) (bound : off' < (buffer data c part').length)
    (grown : (frame (data c)).take (sentOf part' off') =
      (frame (data c)).take (sentOf part off) ++ bytes) :
    Intact data (goto {s with wire := s.wire ++ bytes} c (.writing part' off')) done
      (rest ++ bytes) := by
  obtain ⟨fresh,holder,small⟩ := loop_facts valid (.inl writing)
  have before := rest_writing valid writing opened
  refine ⟨?_,valid.nodup,?_,?_,?_⟩
  · simp [goto,valid.wire]
  · refine calls_update (s := s) valid.calls (fun _ _ => ⟨Iff.rfl,Iff.rfl⟩) ?_
    constructor <;> simp [Pc.inside,holder,fresh,small]
    exact bound
  · intro _
    simp [current,goto,holder,sent,before,grown]
  · intro closed
    simp [goto,opened] at closed

theorem error_intact {part : Part} {off : Nat} (valid : Intact data s done rest)
    (writing : s.pc c = .writing part off) : Intact data (goto s c (.closing part off)) done rest := by
  obtain ⟨fresh,holder,small⟩ := loop_facts valid (.inl writing)
  refine ⟨valid.wire,valid.nodup,?_,?_,valid.rest_closed⟩
  · refine calls_update (s := s) valid.calls (fun _ _ => ⟨Iff.rfl,Iff.rfl⟩) ?_
    constructor <;> simp [Pc.inside,holder,fresh,small]
    exact (valid.calls c).offset part off (.inl writing)
  · intro opened
    rw [valid.rest_open opened]
    simp [current,goto,holder,writing,sent]

theorem write_intact {result : Written} (valid : Intact data s done rest)
    (moved : step data s (.write c result) = some next) :
    ∃ done' rest', Intact data next done' rest' := by
  cases position : s.pc c with
  | writing part off =>
    cases result with
    | retry =>
      simp only [step,position,Option.some.injEq] at moved
      exact ⟨done,rest,moved ▸ valid⟩
    | error =>
      simp only [step,position,Option.some.injEq] at moved
      exact ⟨done,rest,moved ▸ error_intact valid position⟩
    | bytes count =>
      simp only [step,position] at moved
      split at moved
      · rename_i enabled
        obtain ⟨opened,_,fits⟩ := enabled
        cases moved
        have grown := take_advance fits
        rcases enter_cases fits with ⟨entered,full⟩ | ⟨part',off',entered,bound,same⟩
        · rw [entered]
          rw [full,List.take_length] at grown
          exact ⟨_,_,finish_intact valid position opened grown⟩
        · rw [entered]
          exact ⟨_,_,progress_intact valid position opened bound (same ▸ grown)⟩
      · cases moved
  | idle | waiting | closing _ _ | unlocking _ | returned _ => simp [step,position] at moved

theorem close_intact (valid : Intact data s done rest) (moved : step data s (.close c) = some next) :
    Intact data next done rest := by
  cases position : s.pc c with
  | closing part off =>
    simp only [step,position,Option.some.injEq] at moved
    subst moved
    obtain ⟨fresh,holder,small⟩ := loop_facts valid (.inr position)
    refine ⟨valid.wire,valid.nodup,?_,?_,?_⟩
    · refine calls_update (s := s) valid.calls (fun _ _ => ⟨Iff.rfl,Iff.rfl⟩) ?_
      constructor <;> simp [Pc.inside,holder,fresh,small]
    · intro opened
      simp [goto] at opened
    · intro _
      cases opened : s.isOpen with
      | true => rw [valid.rest_open opened]; exact current_torn valid
      | false => exact valid.rest_closed opened
  | idle | waiting | writing _ _ | unlocking _ | returned _ => simp [step,position] at moved

theorem unlock_intact (valid : Intact data s done rest)
    (moved : step data s (.unlock c) = some next) : Intact data next done rest := by
  cases position : s.pc c with
  | unlocking ret =>
    simp only [step,position,Option.some.injEq] at moved
    subst moved
    have call := valid.calls c
    rw [position] at call
    have holder : s.owner = some c := call.held.mpr trivial
    refine ⟨valid.wire,valid.nodup,?_,?_,valid.rest_closed⟩
    · refine calls_update (s := s) valid.calls
        (fun d other => ⟨Iff.rfl,by simp [holder,Ne.symm other]⟩) ?_
      constructor
      · simpa using call.finished
      · intro ret' same
        exact call.returns ret' (by simpa using same)
      · intro _
        exact call.small (.inr (.inl trivial))
      · simp [Pc.inside]
      · simp
    · intro opened
      rw [valid.rest_open opened]
      simp [current,goto,holder,position,sent]
  | idle | waiting | writing _ _ | closing _ _ | returned _ => simp [step,position] at moved

theorem step_intact {action : Action C} (valid : Intact data s done rest)
    (moved : step data s action = some next) : ∃ done' rest', Intact data next done' rest' := by
  cases action with
  | call c => exact ⟨_,_,call_intact valid moved⟩
  | lock c => exact ⟨_,_,lock_intact valid moved⟩
  | write c result => exact write_intact valid moved
  | close c => exact ⟨_,_,close_intact valid moved⟩
  | unlock c => exact ⟨_,_,unlock_intact valid moved⟩
  | hangup => cases moved; exact ⟨_,_,hangup_intact valid⟩
  | forget =>
    cases moved
    exact ⟨done,rest,valid.wire,valid.nodup,valid.calls,valid.rest_open,valid.rest_closed⟩

theorem run_intact {fd : Nat} {actions : List (Action C)}
    (ran : run (step data) (initial C fd) actions = some s) :
    ∃ done rest, Intact data s done rest :=
  run_invariant (fun s => ∃ done rest, Intact data s done rest)
    (fun _ _ _ valid moved => by
      obtain ⟨done,rest,valid⟩ := valid
      exact step_intact valid moved)
    ⟨_,_,initial_intact fd⟩ ran

theorem dead_step {action : Action C} (valid : Intact data s done rest) (dead : Dead s)
    (moved : step data s action = some next) : Dead next ∧ next.wire = s.wire := by
  have alone : ∀ {c d : C}, s.owner = some c → (s.pc d).inside → d = c := by
    intro c d holder inside
    exact Option.some.inj (((valid.calls d).held.mpr inside).symm.trans holder)
  rcases dead with closed | ⟨c,part,off,holder,closing⟩
  · cases action with
    | call d | lock d | close d | unlock d =>
      simp only [step] at moved
      repeat' split at moved
      all_goals cases moved
      all_goals exact ⟨.inl (by simp [closed]),rfl⟩
    | write d result =>
      simp only [step,closed] at moved
      repeat' split at moved
      all_goals cases moved
      · simp_all
      · exact ⟨.inl closed,rfl⟩
      · exact ⟨.inl (by simp [closed]),rfl⟩
    | hangup | forget => cases moved; exact ⟨.inl (by simp [closed]),rfl⟩
  · have stays : ∀ d pc, d ≠ c → Dead (goto s d pc) := fun d pc other =>
      .inr ⟨c,part,off,holder,by simp [goto,Ne.symm other,closing]⟩
    cases action with
    | call d =>
      have other : d ≠ c := by rintro rfl; simp [step,closing] at moved
      simp only [step] at moved
      repeat' split at moved
      all_goals cases moved
      all_goals exact ⟨stays d _ other,rfl⟩
    | lock d => simp [step,holder] at moved
    | write d result =>
      cases position : s.pc d with
      | writing part' off' =>
        have same := alone holder (d := d) (by rw [position]; trivial)
        rw [same,closing] at position
        cases position
      | idle | waiting | closing _ _ | unlocking _ | returned _ => simp [step,position] at moved
    | close d =>
      cases position : s.pc d with
      | closing part' off' =>
        simp only [step,position,Option.some.injEq] at moved
        subst moved
        exact ⟨.inl rfl,rfl⟩
      | idle | waiting | writing _ _ | unlocking _ | returned _ => simp [step,position] at moved
    | unlock d =>
      cases position : s.pc d with
      | unlocking ret =>
        have same := alone holder (d := d) (by rw [position]; trivial)
        rw [same,closing] at position
        cases position
      | idle | waiting | writing _ _ | closing _ _ | returned _ => simp [step,position] at moved
    | hangup => cases moved; exact ⟨.inl rfl,rfl⟩
    | forget => cases moved; exact ⟨.inr ⟨c,part,off,holder,closing⟩,rfl⟩

theorem dead_run {later : List (Action C)} (valid : Intact data s done rest) (dead : Dead s)
    (ran : run (step data) s later = some next) : next.wire = s.wire := by
  have kept := run_invariant
    (fun t => (∃ done rest, Intact data t done rest) ∧ Dead t ∧ t.wire = s.wire)
    (fun t action after old moved => by
      obtain ⟨⟨done,rest,valid⟩,dead,same⟩ := old
      obtain ⟨stillDead,unchanged⟩ := dead_step valid dead moved
      exact ⟨step_intact valid moved,stillDead,unchanged.trans same⟩)
    ⟨⟨done,rest,valid⟩,dead,rfl⟩ ran
  exact kept.2.2

-- An incomplete frame is still being written by its call, or is the last thing
-- the peer will ever see.
omit [DecidableEq C] in
theorem rest_cases (valid : Intact data s done rest) : rest = [] ∨ ∃ c, c ∉ done ∧
    (data c).length ≤ MAX_COMMAND_BYTES ∧ rest <+: frame (data c) ∧ rest ≠ frame (data c) ∧
    ((∃ part off, s.pc c = .writing part off) ∨ Dead s) := by
  have strict : ∀ {d : List UInt8} {n : Nat}, n < d.length → d.take n ≠ d := by
    intro d n short same
    have := congrArg List.length same
    rw [List.length_take] at this
    omega
  cases opened : s.isOpen with
  | false =>
    rcases valid.rest_closed opened with empty | ⟨c,n,fresh,small,prefix_,short⟩
    · exact .inl empty
    · exact .inr ⟨c,fresh,small,prefix_ ▸ List.take_prefix _ _,prefix_ ▸ strict short,.inr (.inl opened)⟩
  | true =>
    rw [valid.rest_open opened]
    rcases current_cases valid with empty | ⟨c,part,off,inLoop,shape,short⟩
    · exact .inl empty
    · obtain ⟨fresh,holder,small⟩ := loop_facts valid inLoop
      refine .inr ⟨c,fresh,small,shape ▸ List.take_prefix _ _,shape ▸ strict short,?_⟩
      rcases inLoop with writing | closing
      · exact .inl ⟨part,off,writing⟩
      · exact .inr (.inr ⟨c,part,off,holder,closing⟩)

end Steps

end Machine

-- Header and body are two resumable loops under one mutex: whatever write()
-- answers and however the calls interleave, the peer reads whole frames, then at
-- most the beginning of one more.
theorem frames_intact {C : Type} [DecidableEq C] (data : C → List UInt8) (fd : Nat)
    (actions : List (Action C)) (s : State C)
    (ran : run (step data) (initial C fd) actions = some s) :
    ∃ (done : List C) (rest : List UInt8),
      s.wire = (done.map fun c => frame (data c)).flatten ++ rest ∧ done.Nodup ∧
      (∀ c ∈ done, (data c).length ≤ MAX_COMMAND_BYTES) ∧
      (rest = [] ∨ ∃ c, c ∉ done ∧ (data c).length ≤ MAX_COMMAND_BYTES ∧
        rest <+: frame (data c) ∧ rest ≠ frame (data c) ∧
        ((∃ part off, s.pc c = .writing part off) ∨
          ∀ later t, run (step data) s later = some t → t.wire = s.wire)) ∧
      (∀ c ret, s.pc c = .returned ret → (ret = 0 ↔ c ∈ done) ∧ (ret = 0 ∨ ret = -1)) ∧
      ∀ c ∈ done, s.pc c = .unlocking 0 ∨ s.pc c = .returned 0 := by
  obtain ⟨done,rest,valid⟩ := run_intact ran
  refine ⟨done,rest,valid.wire,valid.nodup,?_,?_,?_,fun c => (valid.calls c).finished.mp⟩
  · intro c present
    have call := valid.calls c
    rcases call.finished.mp present with unlocking | returned
    · exact call.small (.inr (.inl (by rw [unlocking]; trivial)))
    · exact call.small (.inr (.inr returned))
  · rcases rest_cases valid with empty | ⟨c,fresh,small,begins,strict,ended⟩
    · exact .inl empty
    · exact .inr ⟨c,fresh,small,begins,strict,ended.imp_right fun dead _ _ => dead_run valid dead⟩
  · intro c ret returned
    have call := valid.calls c
    refine ⟨?_,call.returns ret (.inr returned)⟩
    rw [call.finished,returned]
    simp

def twoReplies (c : Bool) : List UInt8 := if c then [7,8] else [9]

def tornSecond : List (Action Bool) :=
  [.call false,.call true,.lock false,.write false (.bytes 3),.write false .retry,
    .write false (.bytes 1),.write false (.bytes 1),.unlock false,.lock true,
    .write true (.bytes 4),.write true (.bytes 1),.write true .error,.close true,.unlock true]

theorem frames_intact_torn : ∃ s,
    run (step twoReplies) (initial Bool 5) tornSecond = some s ∧
    (s.wire,s.pc false,s.pc true) = ([0,0,0,1,9,0,0,0,2,7],.returned 0,.returned (-1)) ∧
    ∃ (done : List Bool) (rest : List UInt8),
      s.wire = (done.map fun c => frame (twoReplies c)).flatten ++ rest := by
  have outcome : (run (step twoReplies) (initial Bool 5) tornSecond).map
      (fun s => (s.wire,s.pc false,s.pc true)) =
        some ([0,0,0,1,9,0,0,0,2,7],.returned 0,.returned (-1)) := by decide
  obtain ⟨s,ran,values⟩ := Option.map_eq_some_iff.mp outcome
  obtain ⟨done,rest,wire,_⟩ := frames_intact twoReplies 5 tornSecond s ran
  exact ⟨s,ran,values,done,rest,wire⟩

end SemcMsm7x30.FrameWriter

import SemcMsm7x30.PartialMachine

namespace SemcMsm7x30.Pmem
open PartialMachine

abbrev Word := BitVec 32

structure pmem_region where
  offset : Word
  len : Word
  deriving DecidableEq, Repr

inductive Request where
  | PMEM_MAP
  | PMEM_UNMAP
  deriving DecidableEq, Repr

-- One ioctl, with the memory that issued it.
structure Ioctl where
  memory : Nat
  our_fd : Int
  request : Request
  sub : pmem_region
  deriving DecidableEq, Repr

-- `alive` as long as there is a strong reference. Memories are numbered in the
-- order they are created in; m_ptr is the address.
structure SubRegionMemory where
  m_ptr : Nat
  mSize : Word
  mOffset : Word
  alive : Bool
  deriving DecidableEq, Repr

-- A wp<MemoryPmem>: the weakref_impl stands for the number of its memory.
structure wp where
  m_ptr : Nat
  m_refs : Nat
  deriving DecidableEq, Repr

def wp.lt (first second : wp) : Prop :=
  if first.m_ptr = second.m_ptr then first.m_refs < second.m_refs else first.m_ptr < second.m_ptr

instance (first second : wp) : Decidable (first.lt second) := by
  unfold wp.lt
  infer_instance

structure State where
  memories : List SubRegionMemory
  mAllocations : List wp
  ioctls : List Ioctl
  deriving DecidableEq, Repr

def initial : State := ⟨[],[],[]⟩

-- What the clients of the heap do: the third argument is the address `new`
-- returns, and a memory is destroyed with its last strong reference.
inductive Action where
  | mapMemory (offset size : Word) (m_ptr : Nat)
  | revoke
  | destroy (memory : Nat)
  deriving DecidableEq, Repr

section Code
variable (heapID : Int) (pagesize : Word)

def roundUp (size : Word) : Word := (size+pagesize-1) &&& ~~~(pagesize-1)

def mapRegion (memory : Nat) (offset size : Word) : List Ioctl :=
  if 0 < size then [⟨memory,heapID,.PMEM_MAP,⟨offset,roundUp pagesize size⟩⟩] else []

def SubRegionMemory.revoke (this : SubRegionMemory) (memory : Nat) : SubRegionMemory × List Ioctl :=
  if this.mSize ≠ 0 then
    ({this with mSize := 0},[⟨memory,heapID,.PMEM_UNMAP,⟨this.mOffset,this.mSize⟩⟩])
  else (this,[])

def revokeMemory (s : State) (memory : Nat) : State :=
  match s.memories[memory]? with
  | none => s
  | some this =>
    {s with
      memories := s.memories.set memory (this.revoke heapID memory).1
      ioctls := s.ioctls ++ (this.revoke heapID memory).2}

-- SortedVector::add and remove, on the order of wp.
def add (item : wp) : List wp → List wp
  | [] => [item]
  | first :: rest =>
    if first.lt item then first :: add item rest
    else if first = item then item :: rest
    else item :: first :: rest

def remove (s : State) (memory : wp) : State :=
  {s with mAllocations := s.mAllocations.erase memory}

def promote (s : State) (memory : wp) : Option Nat :=
  match s.memories[memory.m_refs]? with
  | none => none
  | some this => if this.alive then some memory.m_refs else none

def createMemory (s : State) (offset size : Word) (m_ptr : Nat) : Option State :=
  if 0 < heapID then
    some {s with
      memories := s.memories ++ [⟨m_ptr,size,offset,true⟩]
      ioctls := s.ioctls ++ mapRegion heapID pagesize s.memories.length offset size}
  else none

def mapMemory (s : State) (offset size : Word) (m_ptr : Nat) : State :=
  match createMemory heapID pagesize s offset size m_ptr with
  | none => s
  | some next => {next with mAllocations := add ⟨m_ptr,s.memories.length⟩ next.mAllocations}

def revokeNext (s : State) (memory : wp) : State :=
  match promote s memory with
  | none => s
  | some memory => revokeMemory heapID s memory

def revoke (s : State) : State := s.mAllocations.foldl (revokeNext heapID) s

def SubRegionMemory.dead (this : SubRegionMemory) : SubRegionMemory := {this with alive := false}

-- ~SubRegionMemory and then ~MemoryPmem; nothing is promoted meanwhile.
def destroyMemory (s : State) (memory : Nat) (this : SubRegionMemory) : State :=
  let s := revokeMemory heapID s memory
  remove {s with memories := s.memories.modify memory SubRegionMemory.dead} ⟨this.m_ptr,memory⟩

def step (s : State) : Action → Option State
  | .mapMemory offset size m_ptr => some (mapMemory heapID pagesize s offset size m_ptr)
  | .revoke => some (revoke heapID s)
  | .destroy memory =>
    match s.memories[memory]? with
    | none => none
    | some this => if this.alive then some (destroyMemory heapID s memory this) else none

end Code

structure Asked where
  offset : Word
  size : Word
  ended : Bool
  deriving DecidableEq, Repr

def Asked.finish (a : Asked) : Asked := {a with ended := true}

def record (heapID : Int) (asked : List Asked) : Action → List Asked
  | .mapMemory offset size _ => if 0 < heapID then asked ++ [⟨offset,size,false⟩] else asked
  | .revoke => asked.map Asked.finish
  | .destroy memory => asked.modify memory Asked.finish

def asked (heapID : Int) (actions : List Action) : List Asked := actions.foldl (record heapID) []

def ended (heapID : Int) (actions : List Action) (memory : Nat) : Bool :=
  (((asked heapID actions)[memory]?).map Asked.ended).getD false

def issued (s : State) (request : Request) (memory : Nat) : List pmem_region :=
  (s.ioctls.filter fun i => i.memory = memory ∧ i.request = request).map Ioctl.sub

def UnmappedAsMapped (heapID : Int) (actions : List Action) (s : State) : Prop :=
  ∀ memory,
    (∀ sub ∈ issued s .PMEM_MAP memory,
      issued s .PMEM_UNMAP memory = if ended heapID actions memory then [sub] else []) ∧
    (issued s .PMEM_MAP memory = [] → issued s .PMEM_UNMAP memory = [])

section Rounding

theorem low_bits_cleared (x mask : Word) {k : Nat} (low : mask.toNat = 2^k-1) :
    (x &&& ~~~mask).toNat = x.toNat/2^k*2^k := by
  have bits : x &&& ~~~mask = x >>> k <<< k := by
    apply BitVec.eq_of_getLsbD_eq
    intro i inside
    have bit : mask.getLsbD i = decide (i < k) := by
      rw [BitVec.getLsbD,low,Nat.testBit_two_pow_sub_one]
    by_cases below : i < k
    · simp [bit,below]
    · have back : k+(i-k) = i := by omega
      rw [BitVec.getLsbD_and,BitVec.getLsbD_not,bit,BitVec.getLsbD_shiftLeft,
        BitVec.getLsbD_ushiftRight,back]
      simp [below,Bool.and_comm]
  rw [bits,BitVec.toNat_shiftLeft,BitVec.toNat_ushiftRight,Nat.shiftLeft_eq,
    Nat.shiftRight_eq_div_pow]
  exact Nat.mod_eq_of_lt (lt_of_le_of_lt (Nat.div_mul_le_self _ _) x.isLt)

variable {pagesize size : Word} {k : Nat}

theorem roundUp_toNat (power : pagesize.toNat = 2^k) (fits : size.toNat+pagesize.toNat-1 < 2^32) :
    (roundUp pagesize size).toNat = (size.toNat+2^k-1)/2^k*2^k := by
  have positive : 0 < 2^k := Nat.two_pow_pos k
  have bound := pagesize.isLt
  have less : (pagesize-1).toNat = 2^k-1 := by
    rw [BitVec.toNat_sub]
    simp
    omega
  have sum : (size+pagesize-1).toNat = size.toNat+2^k-1 := by
    have inside := size.isLt
    rw [BitVec.toNat_sub,BitVec.toNat_add]
    simp
    omega
  rw [roundUp,low_bits_cleared _ _ less,sum]

theorem roundUp_same_iff (power : pagesize.toNat = 2^k) (fits : size.toNat+pagesize.toNat-1 < 2^32) :
    roundUp pagesize size = size ↔ pagesize.toNat ∣ size.toNat := by
  have positive : 0 < 2^k := Nat.two_pow_pos k
  rw [← BitVec.toNat_inj,roundUp_toNat power fits,power]
  constructor
  · intro same
    rw [← same]
    exact Nat.dvd_mul_left _ _
  · rintro ⟨pages,whole⟩
    have quotient : (2^k*pages+2^k-1)/2^k = pages := by
      rw [Nat.add_sub_assoc positive,Nat.mul_add_div positive,Nat.div_eq_of_lt (by omega),Nat.add_zero]
    rw [whole,quotient,Nat.mul_comm]

end Rounding

section Tracking
variable {heapID : Int} {pagesize : Word} {s next : State} {memory other : Nat} {a : Asked}

structure Tracked (pagesize : Word) (s : State) (memory : Nat) (a : Asked) : Prop where
  fields : ∃ m_ptr alive, s.memories[memory]? =
      some ⟨m_ptr,if a.ended then 0 else a.size,a.offset,alive⟩ ∧
    (alive = true → ⟨m_ptr,memory⟩ ∈ s.mAllocations) ∧ (alive = false → a.ended = true)
  mapped : issued s .PMEM_MAP memory =
    if a.size = 0 then [] else [⟨a.offset,roundUp pagesize a.size⟩]
  unmapped : issued s .PMEM_UNMAP memory =
    if a.ended = true ∧ a.size ≠ 0 then [⟨a.offset,a.size⟩] else []

structure Follows (pagesize : Word) (s : State) (l : List Asked) : Prop where
  length : s.memories.length = l.length
  tracked : ∀ memory a, l[memory]? = some a → Tracked pagesize s memory a
  quiet : ∀ memory request, l.length ≤ memory → issued s request memory = []

theorem Tracked.frame (tracked : Tracked pagesize s memory a)
    (same : next.memories[memory]? = s.memories[memory]?)
    (listed : ∀ w ∈ s.mAllocations, w.m_refs = memory → w ∈ next.mAllocations)
    (quiet : ∀ request, issued next request memory = issued s request memory) :
    Tracked pagesize next memory a := by
  obtain ⟨m_ptr,alive,found,known,dead⟩ := tracked.fields
  refine ⟨⟨m_ptr,alive,same.trans found,?_,dead⟩,?_,?_⟩
  · intro living
    exact listed _ (known living) rfl
  · rw [quiet,tracked.mapped]
  · rw [quiet,tracked.unmapped]

theorem issued_append (s : State) (memories : List SubRegionMemory) (mAllocations : List wp)
    (more : List Ioctl) (request : Request) (memory : Nat) :
    issued ⟨memories,mAllocations,s.ioctls ++ more⟩ request memory =
      issued s request memory ++ issued ⟨[],[],more⟩ request memory := by
  simp [issued]

theorem issued_none {more : List Ioctl} {request : Request}
    (foreign : ∀ i ∈ more, i.memory ≠ memory ∨ i.request ≠ request) :
    issued ⟨[],[],more⟩ request memory = [] := by
  simp only [issued,List.map_eq_nil_iff,List.filter_eq_nil_iff,decide_eq_true_eq]
  intro i member both
  rcases foreign i member with differs | differs
  · exact differs both.1
  · exact differs both.2

theorem revoke_issues {this : SubRegionMemory} {i : Ioctl}
    (issued : i ∈ (this.revoke heapID memory).2) : i.memory = memory ∧ i.request = .PMEM_UNMAP := by
  unfold SubRegionMemory.revoke at issued
  split at issued
  · rw [List.mem_singleton] at issued
    subst issued
    exact ⟨rfl,rfl⟩
  · cases issued

theorem revokeMemory_length : (revokeMemory heapID s memory).memories.length = s.memories.length := by
  unfold revokeMemory
  split
  · rfl
  · exact List.length_set

theorem revokeMemory_allocations : (revokeMemory heapID s memory).mAllocations = s.mAllocations := by
  unfold revokeMemory
  split <;> rfl

theorem revokeMemory_quiet (differs : memory ≠ other) (request : Request) :
    issued (revokeMemory heapID s memory) request other = issued s request other := by
  unfold revokeMemory
  split
  · rfl
  · rename_i this _
    rw [issued_append,issued_none,List.append_nil]
    intro i member
    rw [(revoke_issues member).1]
    exact .inl differs

theorem revokeMemory_other (differs : memory ≠ other) (tracked : Tracked pagesize s other a) :
    Tracked pagesize (revokeMemory heapID s memory) other a := by
  apply tracked.frame
  · unfold revokeMemory
    split
    · rfl
    · exact List.getElem?_set_ne differs
  · intro w member _
    rw [revokeMemory_allocations]
    exact member
  · exact revokeMemory_quiet differs

theorem finish_ended (done : a.ended = true) : a.finish = a := by
  cases a
  cases done
  rfl

theorem Tracked.finish_empty (tracked : Tracked pagesize s memory a) (empty : a.size = 0#32) :
    Tracked pagesize s memory a.finish := by
  obtain ⟨m_ptr,alive,found,listed,_⟩ := tracked.fields
  refine ⟨⟨m_ptr,alive,?_,listed,fun _ => rfl⟩,tracked.mapped,?_⟩
  · rw [found]
    simp [Asked.finish,empty]
  · rw [tracked.unmapped]
    simp [Asked.finish,empty]

theorem revokeMemory_idle {this : SubRegionMemory} (found : s.memories[memory]? = some this)
    (empty : this.mSize = 0) : revokeMemory heapID s memory = s := by
  obtain ⟨within,same⟩ := List.getElem?_eq_some_iff.mp found
  have unchanged : this.revoke heapID memory = (this,[]) := by simp [SubRegionMemory.revoke,empty]
  simp only [revokeMemory,found,unchanged,List.append_nil]
  rw [← same,List.set_getElem_self]

theorem revokeMemory_self (tracked : Tracked pagesize s memory a) :
    Tracked pagesize (revokeMemory heapID s memory) memory a.finish := by
  obtain ⟨m_ptr,alive,found,listed,_⟩ := tracked.fields
  have within := (List.getElem?_eq_some_iff.mp found).1
  by_cases empty : a.size = 0#32
  · rw [revokeMemory_idle found (by simp [empty])]
    exact tracked.finish_empty empty
  · cases done : a.ended with
    | true =>
      rw [revokeMemory_idle found (by simp [done]),finish_ended done]
      exact tracked
    | false =>
      have revoked : revokeMemory heapID s memory = ⟨s.memories.set memory ⟨m_ptr,0,a.offset,alive⟩,
          s.mAllocations,s.ioctls ++ [⟨memory,heapID,.PMEM_UNMAP,⟨a.offset,a.size⟩⟩]⟩ := by
        simp [revokeMemory,found,SubRegionMemory.revoke,done,empty]
      rw [revoked]
      refine ⟨⟨m_ptr,alive,?_,listed,fun _ => rfl⟩,?_,?_⟩
      · rw [List.getElem?_set_self within]
        rfl
      · rw [issued_append,issued_none (by simp),List.append_nil,tracked.mapped]
        rfl
      · rw [issued_append,tracked.unmapped]
        simp [done,empty,issued,Asked.finish]

theorem revokeNext_other {w : wp} (differs : w.m_refs ≠ memory) (tracked : Tracked pagesize s memory a) :
    Tracked pagesize (revokeNext heapID s w) memory a := by
  unfold revokeNext promote
  split
  · exact tracked
  · rename_i other promoted
    split at promoted
    · cases promoted
    · split at promoted
      · cases promoted
        exact revokeMemory_other differs tracked
      · cases promoted

theorem revokeNext_self {w : wp} (tracked : Tracked pagesize s w.m_refs a) :
    Tracked pagesize (revokeNext heapID s w) w.m_refs a.finish := by
  obtain ⟨m_ptr,alive,found,_,dead⟩ := tracked.fields
  cases alive with
  | true =>
    have promoted : revokeNext heapID s w = revokeMemory heapID s w.m_refs := by
      simp [revokeNext,promote,found]
    rw [promoted]
    exact revokeMemory_self tracked
  | false =>
    have gone : revokeNext heapID s w = s := by simp [revokeNext,promote,found]
    rw [gone,finish_ended (dead rfl)]
    exact tracked

theorem revoke_visits {allocations : List wp} (tracked : Tracked pagesize s memory a)
    (visited : a.ended = true ∨ ∃ w ∈ allocations, w.m_refs = memory) :
    Tracked pagesize (allocations.foldl (revokeNext heapID) s) memory a.finish := by
  induction allocations generalizing s a with
  | nil =>
    obtain done | ⟨w,member,_⟩ := visited
    · rw [finish_ended done]
      exact tracked
    · cases member
  | cons w rest ih =>
    rw [List.foldl_cons]
    by_cases here : w.m_refs = memory
    · subst here
      exact ih (a := a.finish) (revokeNext_self tracked) (.inl rfl)
    · apply ih (revokeNext_other here tracked)
      obtain done | ⟨v,member,same⟩ := visited
      · exact .inl done
      · obtain rfl | later := List.mem_cons.mp member
        · exact absurd same here
        · exact .inr ⟨v,later,same⟩

theorem revokeNext_length {w : wp} :
    (revokeNext heapID s w).memories.length = s.memories.length := by
  unfold revokeNext
  split
  · rfl
  · exact revokeMemory_length

theorem revokeNext_quiet {w : wp} {request : Request} (outside : s.memories.length ≤ memory) :
    issued (revokeNext heapID s w) request memory = issued s request memory := by
  unfold revokeNext promote
  split
  · rfl
  · rename_i other promoted
    split at promoted
    · cases promoted
    · rename_i this found
      split at promoted
      · cases promoted
        have within := (List.getElem?_eq_some_iff.mp found).1
        exact revokeMemory_quiet (by omega) request
      · cases promoted

theorem revoke_loop_length {allocations : List wp} :
    (allocations.foldl (revokeNext heapID) s).memories.length = s.memories.length := by
  induction allocations generalizing s with
  | nil => rfl
  | cons w rest ih =>
    rw [List.foldl_cons,ih,revokeNext_length]

theorem revoke_loop_quiet {allocations : List wp} {request : Request}
    (outside : s.memories.length ≤ memory) :
    issued (allocations.foldl (revokeNext heapID) s) request memory = issued s request memory := by
  induction allocations generalizing s with
  | nil => rfl
  | cons w rest ih =>
    rw [List.foldl_cons,ih (by rwa [revokeNext_length]),revokeNext_quiet outside]

end Tracking

section Steps
variable {heapID : Int} {pagesize : Word} {s next : State} {l : List Asked}

theorem revoke_follows (follows : Follows pagesize s l) :
    Follows pagesize (revoke heapID s) (l.map Asked.finish) := by
  refine ⟨?_,?_,?_⟩
  · rw [List.length_map,← follows.length]
    exact revoke_loop_length
  · intro memory b now
    rw [List.getElem?_map,Option.map_eq_some_iff] at now
    obtain ⟨a,before,rfl⟩ := now
    have tracked := follows.tracked memory a before
    apply revoke_visits tracked
    obtain ⟨m_ptr,alive,_,listed,dead⟩ := tracked.fields
    cases alive with
    | true => exact .inr ⟨_,listed rfl,rfl⟩
    | false => exact .inl (dead rfl)
  · intro memory request outside
    rw [List.length_map] at outside
    rw [revoke,revoke_loop_quiet (by rwa [follows.length])]
    exact follows.quiet memory request outside

theorem item_mem_add (item : wp) (allocations : List wp) : item ∈ add item allocations := by
  fun_induction add item allocations with
  | case1 => exact List.mem_singleton_self item
  | case2 first rest _ ih => exact List.mem_cons_of_mem first ih
  | case3 => exact List.mem_cons_self
  | case4 => exact List.mem_cons_self

theorem mem_add_of_mem {item w : wp} {allocations : List wp} (member : w ∈ allocations) :
    w ∈ add item allocations := by
  fun_induction add item allocations with
  | case1 => cases member
  | case2 first rest _ ih =>
    obtain rfl | later := List.mem_cons.mp member
    · exact List.mem_cons_self
    · exact List.mem_cons_of_mem first (ih later)
  | case3 => exact member
  | case4 => exact List.mem_cons_of_mem _ member

theorem mapRegion_issues (memory other : Nat) (offset size : Word) (request : Request) :
    issued ⟨[],[],mapRegion heapID pagesize memory offset size⟩ request other =
      if memory = other ∧ request = .PMEM_MAP ∧ size ≠ 0#32 then [⟨offset,roundUp pagesize size⟩]
      else [] := by
  by_cases empty : size = 0#32
  · simp [mapRegion,issued,empty]
  · have positive : 0 < size := by
      rw [BitVec.lt_def]
      exact Nat.pos_of_ne_zero fun zero => empty (BitVec.eq_of_toNat_eq zero)
    rw [mapRegion,if_pos positive]
    by_cases same : memory = other ∧ request = .PMEM_MAP
    · obtain ⟨rfl,rfl⟩ := same
      simp [issued,empty]
    · rw [if_neg (fun all => same ⟨all.1,all.2.1⟩),issued_none]
      intro i member
      rw [List.mem_singleton] at member
      subst member
      by_cases here : memory = other
      · exact .inr fun mapped => same ⟨here,mapped.symm⟩
      · exact .inl here

theorem mapMemory_follows (follows : Follows pagesize s l) (offset size : Word) (m_ptr : Nat) :
    Follows pagesize (mapMemory heapID pagesize s offset size m_ptr)
      (record heapID l (.mapMemory offset size m_ptr)) := by
  by_cases opened : 0 < heapID
  · simp only [mapMemory,createMemory,record,if_pos opened]
    have length := follows.length
    refine ⟨by simp [length],?_,?_⟩
    · intro memory a now
      rcases Nat.lt_trichotomy memory l.length with old | last | beyond
      · rw [List.getElem?_append_left old] at now
        apply (follows.tracked memory a now).frame
        · exact List.getElem?_append_left (by omega)
        · intro w member _
          exact mem_add_of_mem member
        · intro request
          rw [issued_append,mapRegion_issues,if_neg (by omega),List.append_nil]
      · subst last
        rw [List.getElem?_concat_length] at now
        cases now
        refine ⟨⟨m_ptr,true,?_,fun _ => ?_,by simp⟩,?_,?_⟩
        · rw [← length,List.getElem?_concat_length]
          rfl
        · rw [← length]
          exact item_mem_add _ _
        · rw [issued_append,follows.quiet _ _ le_rfl,mapRegion_issues]
          simp [length]
        · rw [issued_append,follows.quiet _ _ le_rfl,mapRegion_issues]
          simp
      · rw [List.getElem?_eq_none (by simp; omega)] at now
        cases now
    · intro memory request outside
      rw [List.length_append,List.length_singleton] at outside
      rw [issued_append,follows.quiet _ _ (by omega),mapRegion_issues,if_neg (by omega)]
      rfl
  · simp only [mapMemory,createMemory,record,if_neg opened]
    exact follows

theorem destroy_follows (follows : Follows pagesize s l) {memory : Nat} {this : SubRegionMemory}
    (found : s.memories[memory]? = some this) :
    Follows pagesize (destroyMemory heapID s memory this) (l.modify memory Asked.finish) := by
  have issues (request : Request) (other : Nat) :
      issued (destroyMemory heapID s memory this) request other =
        issued (revokeMemory heapID s memory) request other := rfl
  refine ⟨?_,?_,?_⟩
  · rw [List.length_modify,← follows.length]
    exact (List.length_modify ..).trans revokeMemory_length
  · intro other b now
    by_cases here : memory = other
    · subst here
      rw [List.getElem?_modify_eq,Option.map_eq_map,Option.map_eq_some_iff] at now
      obtain ⟨a,before,rfl⟩ := now
      have tracked : Tracked pagesize (revokeMemory heapID s memory) memory a.finish :=
        revokeMemory_self (follows.tracked memory a before)
      obtain ⟨m_ptr,alive,found,_,_⟩ := tracked.fields
      refine ⟨⟨m_ptr,false,?_,by simp,fun _ => rfl⟩,tracked.mapped,tracked.unmapped⟩
      show ((revokeMemory heapID s memory).memories.modify memory SubRegionMemory.dead)[memory]? = _
      rw [List.getElem?_modify_eq,found]
      rfl
    · rw [List.getElem?_modify_ne _ _ here] at now
      apply (revokeMemory_other here (follows.tracked other b now)).frame
      · exact List.getElem?_modify_ne _ _ here
      · intro w member same
        apply (List.mem_erase_of_ne ?_).mpr member
        intro erased
        rw [erased] at same
        exact here same
      · exact fun request => issues request other
  · intro other request outside
    rw [List.length_modify] at outside
    have within := (List.getElem?_eq_some_iff.mp found).1
    have differs : memory ≠ other := by
      rw [follows.length] at within
      omega
    rw [issues,revokeMemory_quiet differs]
    exact follows.quiet other request outside

theorem step_follows {action : Action} (follows : Follows pagesize s l)
    (moved : step heapID pagesize s action = some next) :
    Follows pagesize next (record heapID l action) := by
  cases action with
  | mapMemory offset size m_ptr =>
    cases moved
    exact mapMemory_follows follows offset size m_ptr
  | revoke =>
    cases moved
    exact revoke_follows follows
  | destroy memory =>
    simp only [step] at moved
    split at moved
    · cases moved
    · rename_i this found
      split at moved
      · cases moved
        exact destroy_follows follows found
      · cases moved

theorem run_follows {actions : List Action} (follows : Follows pagesize s l)
    (ran : run (step heapID pagesize) s actions = some next) :
    Follows pagesize next (actions.foldl (record heapID) l) := by
  induction actions generalizing s l with
  | nil =>
    cases ran
    exact follows
  | cons action rest ih =>
    obtain ⟨middle,moved,tail⟩ := run_cons ran
    exact ih (step_follows follows moved) tail

theorem initial_follows : Follows pagesize initial [] :=
  ⟨rfl,fun _ _ now => by simp at now,fun _ _ _ => rfl⟩

theorem asked_called {actions : List Action} {a : Asked} (member : a ∈ asked heapID actions) :
    ∃ m_ptr, .mapMemory a.offset a.size m_ptr ∈ actions := by
  induction actions using List.reverseRecOn generalizing a with
  | nil => cases member
  | append_singleton front action ih =>
    have earlier {b : Asked} (before : b ∈ asked heapID front) :
        ∃ m_ptr, .mapMemory b.offset b.size m_ptr ∈ front ++ [action] := by
      obtain ⟨m_ptr,called⟩ := ih before
      exact ⟨m_ptr,List.mem_append_left _ called⟩
    rw [asked,List.foldl_concat] at member
    change a ∈ record heapID (asked heapID front) action at member
    cases action with
    | mapMemory offset size m_ptr =>
      simp only [record] at member
      split at member
      · obtain old | new := List.mem_append.mp member
        · exact earlier old
        · rw [List.mem_singleton] at new
          subst new
          exact ⟨m_ptr,List.mem_append_right _ (List.mem_singleton_self _)⟩
      · exact earlier member
    | revoke =>
      obtain ⟨b,before,rfl⟩ := List.mem_map.mp member
      have called := earlier before
      exact called
    | destroy memory =>
      obtain ⟨n,now⟩ := List.mem_iff_getElem?.mp member
      rw [record,List.getElem?_modify,Option.map_eq_map,Option.map_eq_some_iff] at now
      obtain ⟨b,before,rfl⟩ := now
      have called := earlier (List.mem_of_getElem? before)
      split
      · exact called
      · exact called

theorem tracked_right_iff {memory : Nat} {a : Asked} (tracked : Tracked pagesize s memory a) :
    ((∀ sub ∈ issued s .PMEM_MAP memory,
        issued s .PMEM_UNMAP memory = if a.ended then [sub] else []) ∧
      (issued s .PMEM_MAP memory = [] → issued s .PMEM_UNMAP memory = [])) ↔
    (a.ended = true → a.size ≠ 0#32 → roundUp pagesize a.size = a.size) := by
  rw [tracked.mapped,tracked.unmapped]
  by_cases empty : a.size = 0#32
  · simp [empty]
  · cases done : a.ended with
    | false => simp [empty]
    | true => simp [empty,eq_comm]

end Steps

theorem unmapped_as_mapped_iff (heapID : Int) {pagesize : Word} {k : Nat}
    (power : pagesize.toNat = 2^k) {actions : List Action} {s : State}
    (fits : ∀ offset size m_ptr, .mapMemory offset size m_ptr ∈ actions →
      size.toNat+pagesize.toNat-1 < 2^32)
    (ran : run (step heapID pagesize) initial actions = some s) :
    UnmappedAsMapped heapID actions s ↔
      ∀ a ∈ asked heapID actions, a.ended = true → pagesize.toNat ∣ a.size.toNat := by
  have follows : Follows pagesize s (asked heapID actions) := run_follows initial_follows ran
  have whole {a : Asked} (member : a ∈ asked heapID actions) :
      (a.ended = true → a.size ≠ 0#32 → roundUp pagesize a.size = a.size) ↔
        (a.ended = true → pagesize.toNat ∣ a.size.toNat) := by
    obtain ⟨m_ptr,called⟩ := asked_called member
    have same := roundUp_same_iff power (fits _ _ _ called)
    by_cases empty : a.size = 0#32
    · simp [empty]
    · simp [empty,same]
  have recorded {memory : Nat} {a : Asked} (known : (asked heapID actions)[memory]? = some a) :
      ended heapID actions memory = a.ended := by
    simp [ended,known]
  constructor
  · intro right a member
    obtain ⟨memory,known⟩ := List.mem_iff_getElem?.mp member
    have here := right memory
    rw [recorded known] at here
    exact (whole member).mp ((tracked_right_iff (follows.tracked memory a known)).mp here)
  · intro pages memory
    cases known : (asked heapID actions)[memory]? with
    | none =>
      have outside := List.getElem?_eq_none_iff.mp known
      rw [follows.quiet memory .PMEM_MAP outside,follows.quiet memory .PMEM_UNMAP outside]
      simp
    | some a =>
      have member := List.mem_of_getElem? known
      rw [recorded known]
      exact (tracked_right_iff (follows.tracked memory a known)).mpr ((whole member).mpr (pages a member))

def twoRegions : List Action :=
  [.mapMemory 0 8192 0x50,.revoke,.mapMemory 8192 0 0x30,.destroy 0,.destroy 1]

theorem unmapped_as_mapped_iff_pages :
    ∃ s, run (step 7 4096) initial twoRegions = some s ∧ UnmappedAsMapped 7 twoRegions s ∧
      s.ioctls = [⟨0,7,.PMEM_MAP,⟨0,8192⟩⟩,⟨0,7,.PMEM_UNMAP,⟨0,8192⟩⟩] := by
  refine ⟨_,rfl,?_,by decide⟩
  apply (unmapped_as_mapped_iff 7 (k := 12) rfl ?_ rfl).mpr
  · decide
  · intro offset size m_ptr called
    simp only [twoRegions,List.mem_cons,List.not_mem_nil,Action.mapMemory.injEq,reduceCtorEq,
      or_false,false_or] at called
    obtain ⟨rfl,rfl,rfl⟩ | ⟨rfl,rfl,rfl⟩ := called <;> decide

theorem part_of_page_unmapped :
    ∃ s, run (step 7 4096) initial [.mapMemory 0 100 0x50,.destroy 0] = some s ∧
      issued s .PMEM_MAP 0 = [⟨0,4096⟩] ∧ issued s .PMEM_UNMAP 0 = [⟨0,100⟩] ∧
      ¬UnmappedAsMapped 7 [.mapMemory 0 100 0x50,.destroy 0] s := by
  refine ⟨_,rfl,by decide,by decide,?_⟩
  intro right
  have wrong := (right 0).1 ⟨0,4096⟩ (by decide)
  exact absurd wrong (by decide)

end SemcMsm7x30.Pmem

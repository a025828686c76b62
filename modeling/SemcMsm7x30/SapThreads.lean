import SemcMsm7x30.SapQueue

namespace SemcMsm7x30.SapThreads
open PartialMachine SapQueue

structure RilQueue where
  front : Option Nat
  p_next : Nat → Option Nat

namespace RilQueue

def empty (q : RilQueue) : Bool := q.front.isNone

def enqueue (q : RilQueue) (request : Nat) : RilQueue :=
  if q.front = none then ⟨some request,Function.update q.p_next request none⟩
  else ⟨some request,Function.update q.p_next request q.front⟩

-- What dequeue does after its wait loop; a NULL front would be followed here.
def takeFront (q : RilQueue) : Option Nat × RilQueue :=
  match q.front with
  | none => (none,q)
  | some temp =>
    if q.p_next temp ≠ none then (some temp,{q with front := q.p_next temp})
    else (some temp,{q with front := none})

end RilQueue

-- A thread of processRequestsLoop: about to call dequeue, asleep in
-- pthread_cond_wait, awake in it, or back from dequeue with a pointer.
inductive Thread where
  | unstarted
  | calling
  | waiting
  | woken
  | returned (req : Option Nat)
  deriving DecidableEq, Repr

-- `serial`, `enqueued` and `returned` are histories: which call of enqueue an
-- allocation belongs to, and what was passed to enqueue and came out of dequeue.
structure State (W : Type) where
  queue : RilQueue
  request : Nat → SapSocketRequest
  allocated : Finset Nat
  thread : W → Thread
  serial : Nat → Nat
  enqueued : List (Nat × SapSocketRequest)
  returned : List (Nat × SapSocketRequest)

def State.entry (s : State W) (addr : Nat) : Nat × SapSocketRequest := (s.serial addr,s.request addr)

def initial (W : Type) (p_next : Nat → Option Nat) (request : Nat → SapSocketRequest) : State W :=
  ⟨⟨none,p_next⟩,request,∅,fun _ => .unstarted,fun _ => 0,[],[]⟩

-- `addr` is what malloc returns for the request.
inductive Action (W : Type) where
  | onNewCommandConnect (thread : W)
  | pushRecord (addr : Nat) (request : SapSocketRequest)
  | dequeue (thread : W)
  | wake (thread : W)
  | dispatchRequest (thread : W)

section Machine
variable {W : Type} [DecidableEq W]

def setThread (s : State W) (w : W) (thread : Thread) : State W :=
  {s with thread := Function.update s.thread w thread}

def broadcast (thread : W → Thread) : W → Thread :=
  fun w => if thread w = .waiting then .woken else thread w

def pushRecord (s : State W) (addr : Nat) (request : SapSocketRequest) : State W :=
  {s with
    queue := s.queue.enqueue addr
    request := Function.update s.request addr request
    allocated := insert addr s.allocated
    thread := broadcast s.thread
    serial := Function.update s.serial addr s.enqueued.length
    enqueued := s.enqueued ++ [(s.enqueued.length,request)]}

def dequeueTurn (s : State W) (w : W) : State W :=
  if s.queue.empty then setThread s w .waiting
  else
    let taken := s.queue.takeFront
    {setThread s w (.returned taken.1) with
      queue := taken.2
      returned := s.returned ++ (taken.1.map s.entry).toList}

def step (s : State W) : Action W → Option (State W)
  | .onNewCommandConnect w =>
    if s.thread w = .unstarted then some (setThread s w .calling) else none
  | .pushRecord addr request => if addr ∉ s.allocated then some (pushRecord s addr request) else none
  | .dequeue w =>
    if s.thread w = .calling ∨ s.thread w = .woken then some (dequeueTurn s w) else none
  | .wake w => if s.thread w = .waiting then some (setThread s w .woken) else none
  | .dispatchRequest w =>
    match s.thread w with
    -- the request is passed on and freed
    | .returned (some req) => some {setThread s w .calling with allocated := s.allocated.erase req}
    | .returned none => some (setThread s w .calling)
    | _ => none

end Machine

def Linked (p_next : Nat → Option Nat) : Option Nat → List Nat → Prop
  | front,[] => front = none
  | front,addr :: rest => front = some addr ∧ Linked p_next (p_next addr) rest

theorem linked_frame {p_next other : Nat → Option Nat} {front : Option Nat} {chain : List Nat}
    (linked : Linked p_next front chain) (same : ∀ addr ∈ chain, other addr = p_next addr) :
    Linked other front chain := by
  induction chain generalizing front with
  | nil => exact linked
  | cons addr rest ih =>
    refine ⟨linked.1,?_⟩
    rw [same addr List.mem_cons_self]
    exact ih linked.2 (fun later present => same later (List.mem_cons_of_mem _ present))

theorem enqueue_linked {q : RilQueue} {chain : List Nat} {addr : Nat}
    (linked : Linked q.p_next q.front chain) (fresh : addr ∉ chain) :
    Linked (q.enqueue addr).p_next (q.enqueue addr).front (SapQueue.enqueue chain addr) := by
  have rest : ∀ value, Linked (Function.update q.p_next addr value) q.front chain := by
    intro value
    apply linked_frame linked
    intro other present
    have differs : other ≠ addr := fun same => fresh (same ▸ present)
    exact Function.update_of_ne differs ..
  rw [enqueue_eq]
  unfold RilQueue.enqueue
  split
  · rename_i empty
    have linkedRest := rest none
    rw [empty] at linkedRest
    refine ⟨rfl,?_⟩
    simpa only [Function.update_self] using linkedRest
  · refine ⟨rfl,?_⟩
    simpa only [Function.update_self] using rest q.front

theorem takeFront_linked {q : RilQueue} {chain rest : List Nat} {addr : Nat}
    (linked : Linked q.p_next q.front chain) (taken : SapQueue.dequeue chain = some (addr,rest)) :
    q.takeFront.1 = some addr ∧ Linked q.takeFront.2.p_next q.takeFront.2.front rest := by
  cases chain with
  | nil => cases taken
  | cons first others =>
    cases taken
    obtain ⟨front,later⟩ := linked
    simp only [RilQueue.takeFront,front]
    split
    · exact ⟨rfl,later⟩
    · rename_i ends
      refine ⟨rfl,?_⟩
      rw [not_not] at ends
      rw [ends] at later
      exact later

structure Holds (s : State W) (chain : List Nat) : Prop where
  linked : Linked s.queue.p_next s.queue.front chain
  nodup : chain.Nodup
  linkedLive : ∀ addr ∈ chain, addr ∈ s.allocated
  heldLive : ∀ w addr, s.thread w = .returned (some addr) → addr ∈ s.allocated ∧ addr ∉ chain
  heldOnce : ∀ w v addr, s.thread w = .returned (some addr) → s.thread v = .returned (some addr) →
    w = v
  notNull : ∀ w, s.thread w ≠ .returned none
  numbered : s.enqueued.map (·.1) = List.range s.enqueued.length
  conserved : s.enqueued.Perm (chain.map s.entry ++ s.returned)

section Steps
variable {W : Type} [DecidableEq W] {s next : State W} {chain : List Nat}

theorem setThread_holds {w : W} {thread : Thread} (holds : Holds s chain)
    (free : ∀ req, thread ≠ .returned req) : Holds (setThread s w thread) chain := by
  have old : ∀ v req, (setThread s w thread).thread v = .returned req → s.thread v = .returned req := by
    intro v req now
    by_cases here : v = w
    · subst here
      simp only [setThread,Function.update_self] at now
      exact absurd now (free req)
    · simpa only [setThread,Function.update_of_ne here] using now
  refine ⟨holds.linked,holds.nodup,holds.linkedLive,?_,?_,?_,holds.numbered,holds.conserved⟩
  · exact fun v addr now => holds.heldLive v addr (old v _ now)
  · exact fun v u addr one two => holds.heldOnce v u addr (old v _ one) (old u _ two)
  · exact fun v now => holds.notNull v (old v _ now)

omit [DecidableEq W] in
theorem broadcast_returned {thread : W → Thread} {w : W} {req : Option Nat} :
    broadcast thread w = .returned req ↔ thread w = .returned req := by
  unfold broadcast
  split
  · rename_i asleep
    simp [asleep]
  · exact Iff.rfl

omit [DecidableEq W] in
theorem push_holds {addr : Nat} {request : SapSocketRequest} (holds : Holds s chain)
    (fresh : addr ∉ s.allocated) :
    Holds (pushRecord s addr request) (SapQueue.enqueue chain addr) := by
  have unlinked : addr ∉ chain := fun present => fresh (holds.linkedLive addr present)
  have entries : chain.map (pushRecord s addr request).entry = chain.map s.entry := by
    apply List.map_congr_left
    intro other present
    have differs : other ≠ addr := fun same => unlinked (same ▸ present)
    simp [State.entry,pushRecord,Function.update_of_ne differs]
  have new : (pushRecord s addr request).entry addr = (s.enqueued.length,request) := by
    simp [State.entry,pushRecord]
  refine ⟨enqueue_linked holds.linked unlinked,?_,?_,?_,?_,?_,?_,?_⟩
  · rw [enqueue_eq]
    exact List.nodup_cons.mpr ⟨unlinked,holds.nodup⟩
  · rw [enqueue_eq]
    intro other present
    rcases List.mem_cons.mp present with rfl | before
    · exact Finset.mem_insert_self _ _
    · exact Finset.mem_insert_of_mem (holds.linkedLive other before)
  · intro w other held
    obtain ⟨live,off⟩ := holds.heldLive w other (broadcast_returned.mp held)
    refine ⟨Finset.mem_insert_of_mem live,?_⟩
    rw [enqueue_eq,List.mem_cons,not_or]
    exact ⟨fun same => fresh (same ▸ live),off⟩
  · exact fun w v other one two =>
      holds.heldOnce w v other (broadcast_returned.mp one) (broadcast_returned.mp two)
  · exact fun w null => holds.notNull w (broadcast_returned.mp null)
  · simp only [pushRecord,List.map_append,List.length_append,holds.numbered]
    exact (List.range_succ).symm
  · rw [enqueue_eq,List.map_cons,new,entries]
    exact (List.perm_append_singleton _ _).trans (holds.conserved.cons _)

theorem dequeue_holds {w : W} (holds : Holds s chain) (returning : ∀ req, s.thread w ≠ .returned req) :
    ∃ chain, Holds (dequeueTurn s w) chain := by
  unfold dequeueTurn
  split
  · exact ⟨chain,setThread_holds holds (by simp)⟩
  · rename_i occupied
    cases chain with
    | nil =>
      have front : s.queue.front = none := holds.linked
      exact absurd (by simp [RilQueue.empty,front]) occupied
    | cons addr rest =>
      obtain ⟨taken,linked⟩ := takeFront_linked holds.linked rfl
      obtain ⟨off,nodup⟩ := List.nodup_cons.mp holds.nodup
      have now : ∀ v req, Function.update s.thread w (.returned (some addr)) v = .returned req →
          (v = w ∧ req = some addr) ∨ (v ≠ w ∧ s.thread v = .returned req) := by
        intro v req held
        by_cases here : v = w
        · subst here
          rw [Function.update_self] at held
          exact .inl ⟨rfl,(Thread.returned.inj held).symm⟩
        · rw [Function.update_of_ne here] at held
          exact .inr ⟨here,held⟩
      have apart : ∀ v, s.thread v ≠ .returned (some addr) := by
        intro v held
        exact (holds.heldLive v addr held).2 List.mem_cons_self
      refine ⟨rest,linked,nodup,?_,?_,?_,?_,holds.numbered,?_⟩
      · exact fun other present => holds.linkedLive other (List.mem_cons_of_mem _ present)
      · intro v other held
        simp only [setThread,taken] at held
        rcases now v _ held with ⟨_,same⟩ | ⟨_,before⟩
        · cases same
          exact ⟨holds.linkedLive addr List.mem_cons_self,off⟩
        · obtain ⟨live,unlinked⟩ := holds.heldLive v other before
          exact ⟨live,fun present => unlinked (List.mem_cons_of_mem _ present)⟩
      · intro v u other one two
        simp only [setThread,taken] at one two
        rcases now v _ one with ⟨hereV,sameV⟩ | ⟨_,beforeV⟩
        · rcases now u _ two with ⟨hereU,_⟩ | ⟨_,beforeU⟩
          · exact hereV.trans hereU.symm
          · cases sameV
            exact absurd beforeU (apart u)
        · rcases now u _ two with ⟨_,sameU⟩ | ⟨_,beforeU⟩
          · cases sameU
            exact absurd beforeV (apart v)
          · exact holds.heldOnce v u other beforeV beforeU
      · intro v null
        simp only [setThread,taken] at null
        rcases now v _ null with ⟨_,same⟩ | ⟨_,before⟩
        · cases same
        · exact holds.notNull v before
      · have moved : (s.entry addr :: (rest.map s.entry ++ s.returned)).Perm
            (rest.map s.entry ++ (s.returned ++ [s.entry addr])) := by
          rw [← List.append_assoc]
          exact (List.perm_append_singleton _ _).symm
        simp only [taken,Option.map_some,Option.toList_some]
        exact holds.conserved.trans moved

theorem dispatch_holds {w : W} {req : Nat} (holds : Holds s chain)
    (held : s.thread w = .returned (some req)) :
    Holds {setThread s w .calling with allocated := s.allocated.erase req} chain := by
  have called : Holds (setThread s w .calling) chain := setThread_holds holds (by simp)
  have unlinked := (holds.heldLive w req held).2
  refine ⟨called.linked,called.nodup,?_,?_,called.heldOnce,called.notNull,called.numbered,
    called.conserved⟩
  · intro addr present
    exact Finset.mem_erase.mpr ⟨fun same => unlinked (same ▸ present),holds.linkedLive addr present⟩
  · intro v addr other
    obtain ⟨live,off⟩ := called.heldLive v addr other
    refine ⟨Finset.mem_erase.mpr ⟨?_,live⟩,off⟩
    intro same
    subst same
    -- Only the thread that frees the request held it, and it no longer does.
    have differs : v ≠ w := by
      intro here
      subst here
      simp [setThread] at other
    simp only [setThread,Function.update_of_ne differs] at other
    exact differs (holds.heldOnce v w addr other held)

theorem step_holds (s : State W) (action : Action W) (next : State W) (holds : ∃ chain, Holds s chain)
    (moved : step s action = some next) : ∃ chain, Holds next chain := by
  obtain ⟨chain,holds⟩ := holds
  cases action with
  | onNewCommandConnect w =>
    simp only [step] at moved
    split at moved
    · cases moved
      exact ⟨chain,setThread_holds holds (by simp)⟩
    · cases moved
  | pushRecord addr request =>
    simp only [step] at moved
    split at moved
    · rename_i fresh
      cases moved
      exact ⟨_,push_holds holds fresh⟩
    · cases moved
  | dequeue w =>
    simp only [step] at moved
    split at moved
    · rename_i outside
      cases moved
      apply dequeue_holds holds
      intro req held
      rw [held] at outside
      simp at outside
    · cases moved
  | wake w =>
    simp only [step] at moved
    split at moved
    · cases moved
      exact ⟨chain,setThread_holds holds (by simp)⟩
    · cases moved
  | dispatchRequest w =>
    simp only [step] at moved
    split at moved
    · rename_i req held
      cases moved
      exact ⟨chain,dispatch_holds holds held⟩
    · rename_i null
      exact absurd null (holds.notNull w)
    · cases moved

omit [DecidableEq W] in
theorem initial_holds (p_next : Nat → Option Nat) (request : Nat → SapSocketRequest) :
    Holds (initial W p_next request) [] := by
  refine ⟨rfl,List.nodup_nil,?_,?_,?_,?_,rfl,.refl _⟩
  · intro addr present
    cases present
  · intro w addr held
    cases held
  · intro w v addr held
    cases held
  · intro w null
    cases null

end Steps

theorem returned_once {W : Type} {s : State W} {chain : List Nat} (holds : Holds s chain) :
    (s.returned.map (·.1)).Nodup := by
  have all : (s.enqueued.map (·.1)).Nodup := by
    rw [holds.numbered]
    exact List.nodup_range
  have shuffled := (holds.conserved.map (·.1)).nodup_iff.mp all
  rw [List.map_append] at shuffled
  exact (List.nodup_append.mp shuffled).2.1

theorem dequeued_exactly_once {W : Type} [DecidableEq W] {p_next : Nat → Option Nat}
    {request : Nat → SapSocketRequest} {actions : List (Action W)} {s : State W}
    (ran : run step (initial W p_next request) actions = some s) :
    (∃ chain, Linked s.queue.p_next s.queue.front chain ∧
      Multiset.ofList s.enqueued = .ofList (chain.map s.entry) + .ofList s.returned) ∧
    (s.enqueued.map (·.1)).Nodup ∧ (s.returned.map (·.1)).Nodup ∧
    ∀ w, s.thread w ≠ .returned none := by
  obtain ⟨chain,holds⟩ := run_invariant (fun s => ∃ chain, Holds s chain) step_holds
    ⟨[],initial_holds p_next request⟩ ran
  refine ⟨⟨chain,holds.linked,?_⟩,?_,returned_once holds,holds.notNull⟩
  · exact Multiset.coe_eq_coe.mpr holds.conserved
  · rw [holds.numbered]
    exact List.nodup_range

def sapRequest (payload : List UInt8) : SapSocketRequest := ⟨0,⟨0,0,0,0,0,payload⟩,.socket1⟩

-- Two connections and so two threads, both asleep when the first of two requests
-- comes; the slower thread finds the queue empty again. The freed address is reused.
def twoThreads : List (Action Bool) :=
  [.onNewCommandConnect true,.dequeue true,.onNewCommandConnect false,.dequeue false,
    .pushRecord 7 (sapRequest [1]),.dequeue false,.dequeue true,.dispatchRequest false,
    .pushRecord 7 (sapRequest [2]),.dequeue true]

theorem dequeued_exactly_once_reused :
    ∃ s, run step (initial Bool (fun _ => none) (fun _ => sapRequest [])) twoThreads = some s ∧
      s.returned = [(0,sapRequest [1]),(1,sapRequest [2])] ∧ (s.returned.map (·.1)).Nodup := by
  refine ⟨_,rfl,rfl,?_⟩
  exact (@dequeued_exactly_once Bool _ (fun _ => none) (fun _ => sapRequest []) twoThreads _ rfl).2.2.1

end SemcMsm7x30.SapThreads

import SemcMsm7x30.SapThreads

namespace SemcMsm7x30.SapCompletion
open PartialMachine SapQueue SapThreads

-- What `T **ppCur` points to: `none` is front, an address the p_next field there.
def RilQueue.read (q : RilQueue) : Option Nat → Option Nat
  | none => q.front
  | some addr => q.p_next addr

def RilQueue.write (q : RilQueue) (ppCur value : Option Nat) : RilQueue :=
  match ppCur with
  | none => {q with front := value}
  | some addr => {q with p_next := Function.update q.p_next addr value}

-- The loop of checkAndDequeue. `found` is its comparison, which has no result when
-- it reads freed memory.
def checkLoop (found : Nat → Option Bool) : Nat → RilQueue → Option Nat →
    Option (Option Nat × RilQueue)
  | 0,_,_ => none
  | fuel+1,q,ppCur =>
    match RilQueue.read q ppCur with
    | none => some (none,q)
    | some temp =>
      (found temp).bind fun hit =>
        if hit then some (some temp,RilQueue.write q ppCur (q.p_next temp))
        else checkLoop found fuel q (some temp)

theorem checkLoop_linked {found : Nat → Option Bool} {same : Nat → Bool} {q : RilQueue}
    {ppCur : Option Nat} {rest : List Nat} {fuel : Nat} (enough : rest.length < fuel)
    (linked : Linked q.p_next (RilQueue.read q ppCur) rest) (nodup : rest.Nodup)
    (behind : ∀ addr ∈ rest, ppCur ≠ some addr)
    (readable : ∀ addr ∈ rest, found addr = some (same addr)) :
    ∃ q', checkLoop found fuel q ppCur = some (rest.find? same,q') ∧
      Linked q'.p_next (RilQueue.read q' ppCur) (rest.eraseP same) ∧
      ∀ place, place ≠ ppCur → (∀ addr ∈ rest, place ≠ some addr) →
        RilQueue.read q' place = RilQueue.read q place := by
  induction rest generalizing ppCur fuel with
  | nil =>
    obtain ⟨fuel,rfl⟩ := Nat.exists_eq_add_one.mpr enough
    have empty : RilQueue.read q ppCur = none := linked
    exact ⟨q,by simp only [checkLoop,empty,List.find?_nil],linked,fun _ _ _ => rfl⟩
  | cons temp tail ih =>
    obtain ⟨fuel,rfl⟩ := Nat.exists_eq_add_one.mpr (Nat.lt_of_le_of_lt (Nat.zero_le _) enough)
    obtain ⟨here,later⟩ := linked
    obtain ⟨notTail,tailNodup⟩ := List.nodup_cons.mp nodup
    have compared := readable temp List.mem_cons_self
    cases hit : same temp with
    | true =>
      rw [hit] at compared
      refine ⟨RilQueue.write q ppCur (q.p_next temp),?_,?_,?_⟩
      · simp only [checkLoop,here,compared,Option.bind_some,if_true,List.find?_cons,hit]
      · rw [List.eraseP_cons_of_pos hit]
        cases ppCur with
        | none => exact later
        | some addr =>
          simp only [RilQueue.write,RilQueue.read,Function.update_self]
          apply linked_frame later
          intro other present
          have differs : other ≠ addr :=
            fun equal => behind other (List.mem_cons_of_mem _ present) (congrArg some equal.symm)
          exact Function.update_of_ne differs ..
      · intro place elsewhere _
        cases ppCur with
        | none =>
          cases place with
          | none => exact absurd rfl elsewhere
          | some other => rfl
        | some addr =>
          cases place with
          | none => rfl
          | some other =>
            have differs : other ≠ addr := fun equal => elsewhere (congrArg some equal)
            exact Function.update_of_ne differs ..
    | false =>
      rw [hit] at compared
      have apart : ∀ addr ∈ tail, some temp ≠ some addr :=
        fun addr present equal => notTail (Option.some.inj equal ▸ present)
      have onward : Linked q.p_next (RilQueue.read q (some temp)) tail := later
      obtain ⟨q',ran,linked',frame⟩ := ih (Nat.lt_of_succ_lt_succ enough) onward tailNodup apart
        fun addr present => readable addr (List.mem_cons_of_mem _ present)
      refine ⟨q',?_,?_,?_⟩
      · simp only [checkLoop,here,compared,Option.bind_some,Bool.false_eq_true,if_false,
          List.find?_cons,hit]
        exact ran
      · rw [List.eraseP_cons_of_neg (by simp [hit])]
        refine ⟨?_,linked'⟩
        rw [frame ppCur (behind temp List.mem_cons_self)
          fun addr present => behind addr (List.mem_cons_of_mem _ present)]
        exact here
      · intro place elsewhere outside
        exact frame place (outside temp List.mem_cons_self)
          fun addr present => outside addr (List.mem_cons_of_mem _ present)

theorem linked_unique {p_next : Nat → Option Nat} {front : Option Nat} {one two : List Nat}
    (linkedOne : Linked p_next front one) (linkedTwo : Linked p_next front two) : one = two := by
  induction one generalizing front two with
  | nil =>
    cases two with
    | nil => rfl
    | cons addr rest => cases (show front = none from linkedOne).symm.trans linkedTwo.1
  | cons addr rest ih =>
    cases two with
    | nil => cases (show front = none from linkedTwo).symm.trans linkedOne.1
    | cons other tail =>
      cases Option.some.inj (linkedOne.1.symm.trans linkedTwo.1)
      rw [ih linkedOne.2 linkedTwo.2]

def newer (chain : List Nat) (t : Nat) : List Nat := chain.takeWhile fun addr => addr ≠ t

theorem eraseP_eq_erase_iff {same : Nat → Bool} {chain : List Nat} {t : Nat} (nodup : chain.Nodup)
    (present : t ∈ chain) (own : same t = true) :
    chain.eraseP same = chain.erase t ↔ ∀ other ∈ newer chain t, same other = false := by
  unfold newer
  induction chain with
  | nil => cases present
  | cons addr rest ih =>
    obtain ⟨notRest,restNodup⟩ := List.nodup_cons.mp nodup
    by_cases first : addr = t
    · subst first
      simp [own]
    · have later : t ∈ rest := (List.mem_cons.mp present).resolve_left fun equal => first equal.symm
      rw [List.erase_cons_tail (by simpa using first),
        List.takeWhile_cons_of_pos (by simpa using first),List.forall_mem_cons]
      cases hit : same addr with
      | true =>
        rw [List.eraseP_cons_of_pos hit]
        simp only [Bool.true_eq_false,false_and,iff_false]
        intro equal
        exact notRest (equal ▸ List.mem_cons_self)
      | false =>
        rw [List.eraseP_cons_of_neg (by simp [hit]),List.cons.injEq]
        simp only [true_and]
        exact ih restNodup later

-- The sockets of the list by their ids, which addSocketToList adds once each, and
-- the memory their requests and headers lie in. `sent` is the history of sendResponse.
structure State where
  pendingResponseQueue : SocketId → Option RilQueue
  request : Nat → SapSocketRequest
  allocated : Finset Nat
  headers : Finset Nat
  sent : List MsgHeader

-- `currRequest` is what malloc returns in dispatchRequest. `oom` is a failed malloc,
-- in onRequestComplete that of the payload of the response.
inductive Action where
  | dispatchRequest (id : SocketId) (currRequest : Nat) (req : MsgHeader) (oom : Bool)
  | sOnRequestComplete (t : Nat) (e : Int) (response : Option (List UInt8)) (oom : Bool)

section Machine
variable (MsgType_RESPONSE : Int)

-- The header of the vendor's answer; the address is that of a local variable.
def sendResponse (s : State) (hdr : MsgHeader) (e : Int) (response : Option (List UInt8)) (oom : Bool) :
    State :=
  match response with
  | none | some [] => s
  | some bytes =>
    if oom then s
    else {s with sent := s.sent ++ [⟨0,hdr.token,MsgType_RESPONSE,hdr.id,e,bytes⟩]}

def found (s : State) (id token : Int) (addr : Nat) : Option Bool :=
  if token = (s.request addr).token then
    if (s.request addr).curr.addr ∈ s.headers then some (id = (s.request addr).curr.id) else none
  else some false

def checkAndDequeue (s : State) (q : RilQueue) (id token : Int) : Option (Option Nat × RilQueue) :=
  checkLoop (found s id token) (s.allocated.card+1) q none

def onRequestComplete (s : State) (id : SocketId) (q : RilQueue) (t : Nat) (e : Int)
    (response : Option (List UInt8)) (oom : Bool) : Option State :=
  let hdr := (s.request t).curr
  let s := sendResponse MsgType_RESPONSE s hdr e response oom
  (checkAndDequeue s q hdr.id hdr.token).map fun (temp,q) =>
    {s with
      pendingResponseQueue := Function.update s.pendingResponseQueue id (some q)
      allocated := s.allocated \ temp.toList.toFinset
      headers := s.headers.erase hdr.addr}

def step (s : State) : Action → Option State
  | .dispatchRequest id currRequest req oom =>
    match s.pendingResponseQueue id with
    | none => none
    | some q =>
      if oom then some s
      else if currRequest ∉ s.allocated ∧ req.addr ∉ s.headers then
        some {s with
          pendingResponseQueue := Function.update s.pendingResponseQueue id (some (q.enqueue currRequest))
          request := Function.update s.request currRequest ⟨req.token,req,id⟩
          allocated := insert currRequest s.allocated
          headers := insert req.addr s.headers}
      else none
  | .sOnRequestComplete t e response oom =>
    if t ∈ s.allocated ∧ (s.request t).curr.addr ∈ s.headers then
      match s.pendingResponseQueue (s.request t).socketId with
      | some q => onRequestComplete MsgType_RESPONSE s (s.request t).socketId q t e response oom
      | none =>
        some {s with
          allocated := s.allocated.erase t
          headers := s.headers.erase (s.request t).curr.addr}
    else none

def initial (registered : SocketId → Bool) (p_next : Nat → Option Nat) (request : Nat → SapSocketRequest) :
    State :=
  ⟨fun id => if registered id then some ⟨none,p_next⟩ else none,request,∅,∅,[]⟩

end Machine

def Pending (s : State) (id : SocketId) (chain : List Nat) : Prop :=
  ∃ q, s.pendingResponseQueue id = some q ∧ Linked q.p_next q.front chain

def Alike (s : State) (other t : Nat) : Prop :=
  (s.request other).curr.id = (s.request t).curr.id ∧ (s.request other).token = (s.request t).curr.token

instance (s : State) (other t : Nat) : Decidable (Alike s other t) := inferInstanceAs (Decidable (_ ∧ _))

def Unmistakable (s : State) (chain : List Nat) (t : Nat) : Prop :=
  ∀ other ∈ newer chain t, ¬ Alike s other t

def Proper (s : State) : Action → Prop
  | .dispatchRequest _ _ _ _ => True
  | .sOnRequestComplete t _ _ _ => ∃ id chain, Pending s id chain ∧ t ∈ chain ∧ Unmistakable s chain t

structure Holds (s : State) (chains : SocketId → List Nat) : Prop where
  linked : ∀ id q, s.pendingResponseQueue id = some q → Linked q.p_next q.front (chains id)
  closed : ∀ id, s.pendingResponseQueue id = none → chains id = []
  nodup : ∀ id, (chains id).Nodup
  live : ∀ id, ∀ addr ∈ chains id, addr ∈ s.allocated ∧ (s.request addr).curr.addr ∈ s.headers
  own : ∀ id, ∀ addr ∈ chains id,
    (s.request addr).socketId = id ∧ (s.request addr).token = (s.request addr).curr.token
  apart : ∀ id jd a b, a ∈ chains id → b ∈ chains jd →
    (s.request a).curr.addr = (s.request b).curr.addr → a = b

section Steps
variable {MsgType_RESPONSE : Int} {s next : State} {chains : SocketId → List Nat}

def same (s : State) (t addr : Nat) : Bool :=
  (s.request t).curr.token = (s.request addr).token ∧ (s.request t).curr.id = (s.request addr).curr.id

theorem same_iff {t addr : Nat} : same s t addr = true ↔ Alike s addr t := by
  unfold same Alike
  rw [decide_eq_true_eq]
  exact ⟨fun ⟨token,id⟩ => ⟨id.symm,token.symm⟩,fun ⟨id,token⟩ => ⟨token.symm,id.symm⟩⟩

theorem found_readable {t addr : Nat} (readable : (s.request addr).curr.addr ∈ s.headers) :
    found s (s.request t).curr.id (s.request t).curr.token addr = some (same s t addr) := by
  unfold found same
  rw [if_pos readable]
  split
  · rename_i token
    simp [token]
  · rename_i token
    simp [token]

theorem sendResponse_sent (s : State) (hdr : MsgHeader) (e : Int) (response : Option (List UInt8))
    (oom : Bool) : ∃ sent, sendResponse MsgType_RESPONSE s hdr e response oom = {s with sent := sent} := by
  unfold sendResponse
  split
  · exact ⟨s.sent,rfl⟩
  · exact ⟨s.sent,rfl⟩
  · split
    · exact ⟨s.sent,rfl⟩
    · exact ⟨_,rfl⟩

theorem chain_le_card (holds : Holds s chains) (id : SocketId) :
    (chains id).length ≤ s.allocated.card := by
  rw [← List.toFinset_card_of_nodup (holds.nodup id)]
  apply Finset.card_le_card
  intro addr present
  exact (holds.live id addr (List.mem_toFinset.mp present)).1

theorem complete_first (holds : Holds s chains) {id : SocketId} {t : Nat} (present : t ∈ chains id)
    (e : Int) (response : Option (List UInt8)) (oom : Bool) :
    ∃ q sent, step MsgType_RESPONSE s (.sOnRequestComplete t e response oom) = some
        {s with
          pendingResponseQueue := Function.update s.pendingResponseQueue id (some q)
          allocated := s.allocated \ ((chains id).find? (same s t)).toList.toFinset
          headers := s.headers.erase (s.request t).curr.addr
          sent := sent} ∧
      Linked q.p_next q.front ((chains id).eraseP (same s t)) := by
  obtain ⟨socket,_⟩ := holds.own id t present
  cases queue : s.pendingResponseQueue id with
  | none =>
    rw [holds.closed id queue] at present
    cases present
  | some q =>
    have readable : ∀ addr ∈ chains id,
        found s (s.request t).curr.id (s.request t).curr.token addr = some (same s t addr) :=
      fun addr inside => found_readable (holds.live id addr inside).2
    obtain ⟨q',ran,linked,_⟩ := checkLoop_linked (Nat.lt_succ_of_le (chain_le_card holds id))
      (show Linked q.p_next (RilQueue.read q none) (chains id) from holds.linked id q queue)
      (holds.nodup id) (fun _ _ => by simp) readable
    obtain ⟨sent,sends⟩ := @sendResponse_sent MsgType_RESPONSE s (s.request t).curr e response oom
    refine ⟨q',sent,?_,linked⟩
    have compared : found {s with sent := sent} = found s := rfl
    simp only [step,holds.live id t present,and_self,if_true,socket,queue,onRequestComplete,sends,
      checkAndDequeue,compared,ran,Option.map_some]

theorem newer_unlike {id : SocketId} {t : Nat} (unmistakable : Unmistakable s (chains id) t) :
    ∀ other ∈ newer (chains id) t, same s t other = false := by
  intro other inside
  rw [← Bool.not_eq_true,same_iff]
  exact unmistakable other inside

theorem alike_self (holds : Holds s chains) {id : SocketId} {t : Nat} (present : t ∈ chains id) :
    same s t t = true :=
  same_iff.mpr ⟨rfl,(holds.own id t present).2⟩

theorem find_self {chain : List Nat} {t : Nat} {like : Nat → Bool} (present : t ∈ chain)
    (own : like t = true) (first : ∀ other ∈ newer chain t, like other = false) :
    chain.find? like = some t := by
  unfold newer at first
  induction chain with
  | nil => cases present
  | cons addr rest ih =>
    by_cases here : addr = t
    · subst here
      rw [List.find?_cons_of_pos own]
    · rw [List.takeWhile_cons_of_pos (by simpa using here),List.forall_mem_cons] at first
      rw [List.find?_cons_of_neg (by simp [first.1])]
      exact ih ((List.mem_cons.mp present).resolve_left fun equal => here equal.symm) first.2

theorem dispatch_holds {id : SocketId} {currRequest : Nat} {req : MsgHeader} {oom : Bool}
    (holds : Holds s chains)
    (moved : step MsgType_RESPONSE s (.dispatchRequest id currRequest req oom) = some next) :
    ∃ chains, Holds next chains := by
  simp only [step] at moved
  split at moved
  · cases moved
  · rename_i q queue
    split at moved
    · cases moved
      exact ⟨chains,holds⟩
    · split at moved
      · rename_i fresh
        cases moved
        have outside : ∀ jd, currRequest ∉ chains jd :=
          fun jd inside => fresh.1 (holds.live jd currRequest inside).1
        have kept : ∀ jd, ∀ addr ∈ chains jd,
            Function.update s.request currRequest ⟨req.token,req,id⟩ addr = s.request addr := by
          intro jd addr inside
          have differs : addr ≠ currRequest := fun equal => outside jd (equal ▸ inside)
          exact Function.update_of_ne differs ..
        have members : ∀ jd addr, addr ∈ Function.update chains id (currRequest :: chains id) jd ↔
            addr ∈ chains jd ∨ (jd = id ∧ addr = currRequest) := by
          intro jd addr
          by_cases equal : jd = id
          · subst equal
            simp [or_comm]
          · simp [equal]
        refine ⟨Function.update chains id (currRequest :: chains id),?_,?_,?_,?_,?_,?_⟩
        · intro jd q' opened
          by_cases equal : jd = id
          · subst equal
            simp only [Function.update_self,Option.some.injEq] at opened ⊢
            subst opened
            rw [← enqueue_eq]
            exact enqueue_linked (holds.linked jd q queue) (outside jd)
          · simp only [Function.update_of_ne equal] at opened ⊢
            exact holds.linked jd q' opened
        · intro jd closed
          by_cases equal : jd = id
          · subst equal
            simp at closed
          · simp only [Function.update_of_ne equal] at closed ⊢
            exact holds.closed jd closed
        · intro jd
          by_cases equal : jd = id
          · subst equal
            simp only [Function.update_self]
            exact List.nodup_cons.mpr ⟨outside jd,holds.nodup jd⟩
          · simp only [Function.update_of_ne equal]
            exact holds.nodup jd
        · intro jd addr inside
          rcases (members jd addr).mp inside with before | ⟨_,rfl⟩
          · simp only [kept jd addr before,Finset.mem_insert]
            exact ⟨.inr (holds.live jd addr before).1,.inr (holds.live jd addr before).2⟩
          · simp
        · intro jd addr inside
          rcases (members jd addr).mp inside with before | ⟨rfl,rfl⟩
          · simp only [kept jd addr before]
            exact holds.own jd addr before
          · simp
        · intro jd kd a b insideA insideB equal
          rcases (members jd a).mp insideA with beforeA | ⟨_,rfl⟩
          · rcases (members kd b).mp insideB with beforeB | ⟨_,rfl⟩
            · simp only [kept jd a beforeA,kept kd b beforeB] at equal
              exact holds.apart jd kd a b beforeA beforeB equal
            · simp only [kept jd a beforeA,Function.update_self] at equal
              exact absurd (equal ▸ (holds.live jd a beforeA).2) fresh.2
          · rcases (members kd b).mp insideB with beforeB | ⟨_,rfl⟩
            · simp only [kept kd b beforeB,Function.update_self] at equal
              exact absurd (equal ▸ (holds.live kd b beforeB).2) fresh.2
            · rfl
      · cases moved

theorem complete_holds {t : Nat} {e : Int} {response : Option (List UInt8)} {oom : Bool}
    (holds : Holds s chains) {id : SocketId} (present : t ∈ chains id)
    (unmistakable : Unmistakable s (chains id) t)
    (moved : step MsgType_RESPONSE s (.sOnRequestComplete t e response oom) = some next) :
    ∃ chains, Holds next chains := by
  obtain ⟨q,sent,completed,linked⟩ :=
    @complete_first MsgType_RESPONSE s chains holds id t present e response oom
  have first := newer_unlike unmistakable
  have own := alike_self holds present
  rw [(eraseP_eq_erase_iff (holds.nodup id) present own).mpr first] at linked
  rw [find_self present own first] at completed
  rw [completed] at moved
  cases moved
  have members : ∀ jd addr, addr ∈ Function.update chains id ((chains id).erase t) jd →
      addr ∈ chains jd ∧ addr ≠ t := by
    intro jd addr inside
    by_cases equal : jd = id
    · subst equal
      rw [Function.update_self] at inside
      obtain ⟨differs,before⟩ := (holds.nodup jd).mem_erase_iff.mp inside
      exact ⟨before,differs⟩
    · rw [Function.update_of_ne equal] at inside
      refine ⟨inside,fun same => equal ?_⟩
      rw [← (holds.own jd addr inside).1,← (holds.own id t present).1,same]
  refine ⟨Function.update chains id ((chains id).erase t),?_,?_,?_,?_,?_,?_⟩
  · intro jd q' opened
    by_cases equal : jd = id
    · subst equal
      simp only [Function.update_self,Option.some.injEq] at opened ⊢
      subst opened
      exact linked
    · simp only [Function.update_of_ne equal] at opened ⊢
      exact holds.linked jd q' opened
  · intro jd closed
    by_cases equal : jd = id
    · subst equal
      simp at closed
    · simp only [Function.update_of_ne equal] at closed ⊢
      exact holds.closed jd closed
  · intro jd
    by_cases equal : jd = id
    · subst equal
      rw [Function.update_self]
      exact (holds.nodup jd).erase t
    · rw [Function.update_of_ne equal]
      exact holds.nodup jd
  · intro jd addr inside
    obtain ⟨before,differs⟩ := members jd addr inside
    obtain ⟨allocated,header⟩ := holds.live jd addr before
    refine ⟨by simp [allocated,differs],Finset.mem_erase.mpr ⟨fun shared => ?_,header⟩⟩
    exact differs (holds.apart jd id addr t before present shared)
  · exact fun jd addr inside => holds.own jd addr (members jd addr inside).1
  · intro jd kd a b insideA insideB
    exact holds.apart jd kd a b (members jd a insideA).1 (members kd b insideB).1

theorem step_holds (holds : ∃ chains, Holds s chains) {action : Action} (proper : Proper s action)
    (moved : step MsgType_RESPONSE s action = some next) : ∃ chains, Holds next chains := by
  obtain ⟨chains,holds⟩ := holds
  cases action with
  | dispatchRequest id currRequest req oom => exact dispatch_holds holds moved
  | sOnRequestComplete t e response oom =>
    obtain ⟨id,chain,⟨q,queue,linked⟩,present,unmistakable⟩ := proper
    cases linked_unique linked (holds.linked id q queue)
    exact complete_holds holds present unmistakable moved

theorem initial_holds (registered : SocketId → Bool) (p_next : Nat → Option Nat)
    (request : Nat → SapSocketRequest) : Holds (initial registered p_next request) fun _ => [] := by
  refine ⟨?_,fun _ _ => rfl,fun _ => List.nodup_nil,?_,?_,?_⟩
  · intro id q queue
    unfold initial at queue
    simp only at queue
    split at queue
    · cases queue
      rfl
    · cases queue
  · exact fun id addr inside => by cases inside
  · exact fun id addr inside => by cases inside
  · exact fun id jd a b inside => by cases inside

end Steps

-- Of the requests like the one completed the newest goes: it is the right one
-- exactly when none of those dispatched later is like it.
theorem completion_removes_iff (MsgType_RESPONSE : Int) (registered : SocketId → Bool)
    (p_next : Nat → Option Nat) (request : Nat → SapSocketRequest) (actions : List Action) {s : State}
    (proper : Obeys (step MsgType_RESPONSE) Proper (initial registered p_next request) actions)
    (ran : run (step MsgType_RESPONSE) (initial registered p_next request) actions = some s)
    {id : SocketId} {chain : List Nat} {t : Nat} (pending : Pending s id chain) (present : t ∈ chain)
    (e : Int) (response : Option (List UInt8)) (oom : Bool) :
    ∃ after left, step MsgType_RESPONSE s (.sOnRequestComplete t e response oom) = some after ∧
      Pending after id left ∧ (left = chain.erase t ↔ Unmistakable s chain t) ∧
      ∀ other, other ≠ id → after.pendingResponseQueue other = s.pendingResponseQueue other := by
  obtain ⟨chains,holds⟩ := obeys_invariant (fun s => ∃ chains, Holds s chains)
    (fun _ _ _ holds proper moved => step_holds holds proper moved)
    ⟨_,initial_holds registered p_next request⟩ proper ran
  obtain ⟨q,queue,linked⟩ := pending
  cases linked_unique linked (holds.linked id q queue)
  obtain ⟨q',sent,completed,left⟩ :=
    @complete_first MsgType_RESPONSE s chains holds id t present e response oom
  refine ⟨_,_,completed,⟨q',Function.update_self ..,left⟩,?_,
    fun other differs => Function.update_of_ne differs ..⟩
  rw [eraseP_eq_erase_iff (holds.nodup id) present (alike_self holds present)]
  constructor
  · intro unlike other inside alike
    have distinct := unlike other inside
    rw [same_iff.mpr alike] at distinct
    cases distinct
  · exact newer_unlike

def responseType : Int := 2

def noRequests : State := initial (fun _ => true) (fun _ => none) fun _ => ⟨0,⟨0,0,0,0,0,[]⟩,.socket1⟩

def twoRequests (first second : Int) : List Action :=
  [.dispatchRequest .socket1 0 ⟨10,5,1,first,0,[]⟩ false,
    .dispatchRequest .socket1 1 ⟨11,5,1,second,0,[]⟩ false]

theorem completion_removes_iff_distinct :
    ∃ s, run (step responseType) noRequests (twoRequests 3 4) = some s ∧ Pending s .socket1 [1,0] ∧
      Unmistakable s [1,0] 0 ∧
      ∃ after left, step responseType s (.sOnRequestComplete 0 0 (some [7]) false) = some after ∧
        Pending after .socket1 left ∧ (left = [1] ↔ Unmistakable s [1,0] 0) := by
  have proper : Obeys (step responseType) Proper noRequests (twoRequests 3 4) :=
    ⟨trivial,fun _ _ => ⟨trivial,fun _ _ => trivial⟩⟩
  refine ⟨_,rfl,⟨_,rfl,rfl,rfl,rfl⟩,by unfold Unmistakable; decide,?_⟩
  obtain ⟨after,left,completed,pending,exactly,_⟩ := completion_removes_iff responseType (fun _ => true)
    (fun _ => none) (fun _ => ⟨0,⟨0,0,0,0,0,[]⟩,.socket1⟩) (twoRequests 3 4) proper rfl
    (show Pending _ .socket1 [1,0] from ⟨_,rfl,rfl,rfl,rfl⟩) (show 0 ∈ [1,0] by decide) 0 (some [7]) false
  exact ⟨after,left,completed,pending,exactly⟩

-- The older of two requests with the same id and token is completed and the newer
-- one is taken out and freed. What stays linked has lost its header.
theorem newer_request_removed :
    ∃ s after, Obeys (step responseType) Proper noRequests (twoRequests 3 3) ∧
      run (step responseType) noRequests (twoRequests 3 3) = some s ∧ Pending s .socket1 [1,0] ∧
      step responseType s (.sOnRequestComplete 0 0 (some [7]) false) = some after ∧
      Pending after .socket1 [0] ∧ ([0] : List Nat) ≠ [1,0].erase 0 ∧
      1 ∉ after.allocated ∧ (after.request 0).curr.addr ∉ after.headers := by
  refine ⟨_,_,⟨trivial,fun _ _ => ⟨trivial,fun _ _ => trivial⟩⟩,rfl,⟨_,rfl,rfl,rfl,rfl⟩,rfl,
    ⟨_,rfl,rfl,rfl⟩,by decide,by decide,by decide⟩

end SemcMsm7x30.SapCompletion

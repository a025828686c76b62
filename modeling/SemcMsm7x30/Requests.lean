import SemcMsm7x30.Effects

namespace SemcMsm7x30.Requests
open PartialMachine

def header (token : Int) : List UInt8 := Parcel.le32 RESPONSE_SOLICITED ++ Parcel.le32 token

def replies (s : Ril) (addr : Nat) : List Sent := s.sent.filter (·.origin = .reply addr)

theorem replyFrame_header (b : Build) (token e : Int) (response : Response) :
    (replyFrame b token e response).take 8 = header token := by
  have start : ((Parcel.empty.writeInt32 RESPONSE_SOLICITED).writeInt32 token).writeInt32 e =
      ⟨header token ++ Parcel.le32 e,12⟩ := by
    simp [Parcel.writeInt32,Parcel.write,Parcel.empty,header,Parcel.le32]
  simp only [replyFrame,start]
  cases marshal b response with
  | none => simp [header,Parcel.le32]
  | some result =>
    obtain ⟨payload,ret⟩ := result
    simp only
    split
    · simp [Parcel.write,Parcel.writeInt32,Parcel.setDataPosition,Parcel.empty,header,Parcel.le32]
    · simp [Parcel.write,header,Parcel.le32]

-- Everything a step can do to the requests, said once.
inductive Move (b : Build) : Ril → Ril → Prop
  | quiet {s next : Ril} (extra : List Sent)
      (pending : next.pendingRequests = s.pendingRequests) (requests : next.requests = s.requests)
      (fresh : next.nextAddr = s.nextAddr) (sent : next.sent = s.sent ++ extra)
      (other : ∀ f ∈ extra, ∀ addr, f.origin ≠ .reply addr) : Move b s next
  | enqueue {s : Ril} (hook : SocketId) (pRI : RequestInfo) (fresh : pRI.addr = s.nextAddr)
      (live : pRI.cancelled = false)
      (hooked : pRI.isLocal = false → hook = socketHook b.simCount pRI.socket_id) :
      Move b s (SemcMsm7x30.enqueue s hook pRI)
  | take {s next : Ril} (hook : SocketId) (pRI : RequestInfo)
      (listed : pRI ∈ s.pendingRequests hook)
      (pending : next.pendingRequests = Function.update s.pendingRequests hook
        ((s.pendingRequests hook).eraseP (·.addr = pRI.addr)))
      (requests : next.requests = s.requests) (fresh : next.nextAddr = s.nextAddr)
      (sent : (next.sent = s.sent ∧ (pRI.isLocal = true ∨ pRI.cancelled = true)) ∨
        (pRI.isLocal = false ∧ pRI.cancelled = false ∧ ∃ data ok,
          data.take 8 = header pRI.token ∧
          next.sent = s.sent ++ [⟨pRI.socket_id,data,.reply pRI.addr,ok⟩])) : Move b s next
  | sweep {s next : Ril} (hook : SocketId)
      (pending : next.pendingRequests = Function.update s.pendingRequests hook
        ((s.pendingRequests hook).map fun pRI => {pRI with cancelled := true}))
      (requests : next.requests = s.requests) (fresh : next.nextAddr = s.nextAddr)
      (sent : next.sent = s.sent) : Move b s next

abbrev Moves (b : Build) : Ril → Ril → Prop := Relation.ReflTransGen (Move b)

section Moving
variable {b : Build} {s next : Ril}

theorem moves_of_eq (pending : next.pendingRequests = s.pendingRequests)
    (requests : next.requests = s.requests) (fresh : next.nextAddr = s.nextAddr)
    (sent : next.sent = s.sent) : Moves b s next :=
  .single (.quiet [] pending requests fresh (by simp [sent]) (by simp))

theorem send_moves {writes : Writes} {code : Int} {data : List UInt8} {socket_id : SocketId}
    {origin : Origin} (other : ∀ addr, origin ≠ .reply addr) :
    Moves b s (sendResponse b writes s code data socket_id origin).1 :=
  .single (.quiet _ rfl rfl rfl rfl (by
    intro f present addr
    rw [List.mem_singleton.mp present]
    exact other addr))

theorem deliver_moves {writes : Writes} {code : Int} {data : List UInt8} {socket_id : SocketId} :
    Moves b s (deliverUnsol b writes s code data socket_id) := by
  unfold deliverUnsol
  split
  · have sending : Moves b s (sendResponse b writes s code data socket_id (.nitz s.nitzReceived.length)).1 :=
      send_moves (by simp)
    apply sending.trans
    simp only
    split <;> exact moves_of_eq rfl rfl rfl rfl
  · exact send_moves (by simp)

theorem moves_admits : Admits (Moves b) where
  refl := fun _ => .refl
  trans := Relation.ReflTransGen.trans
  wake := fun _ _ _ _ _ => moves_of_eq rfl rfl rfl rfl
  cached := fun _ _ _ _ => moves_of_eq rfl rfl rfl rfl
  sent := fun _ _ _ _ _ => .single (.quiet _ rfl rfl rfl rfl (by simp))

theorem onUnsolicited_moves {writes : Writes} {now : Int} {state : RadioState} {code : Int}
    {data : UnsolData} {socket_id : SocketId} (s : Ril) :
    Moves b s (RIL_onUnsolicitedResponse b writes now state s code data socket_id) :=
  unsolicited_admitted moves_admits (fun s => processRadioState_admitted moves_admits s) s
    fun _ _ _ _ _ => deliver_moves

theorem connect_moves {writes : Writes} {now : Int} {state : RadioState} {socket_id : SocketId}
    (s : Ril) : Moves b s (onNewCommandConnect b writes now state s socket_id) := by
  have flush : ∀ s, Moves b s (flushNitz b writes s socket_id) := by
    intro s
    unfold flushNitz
    split
    · exact .refl
    · exact (send_moves (by simp)).trans (moves_of_eq rfl rfl rfl rfl)
  exact (onUnsolicited_moves s).trans ((onUnsolicited_moves _).trans (flush _))

def without (s : Ril) (hook : SocketId) (addr : Nat) : Ril :=
  {s with
    pendingRequests := Function.update s.pendingRequests hook
      ((s.pendingRequests hook).eraseP (·.addr = addr))}

theorem dequeue_some {addr : Nat} {pRI : RequestInfo}
    (found : checkAndDequeueRequestInfo b s addr = some (pRI,next)) :
    pRI.addr = addr ∧ pRI ∈ s.pendingRequests (searchedList b s addr) ∧
      next = without s (searchedList b s addr) addr := by
  simp only [checkAndDequeueRequestInfo] at found
  split at found
  · cases found
  · rename_i first hit
    cases found
    exact ⟨by simpa using List.find?_some hit,List.mem_of_find?_eq_some hit,rfl⟩

theorem complete_moves {writes : Writes} {addr : Nat} {e : Int} {response : Response} (s : Ril) :
    Moves b s (RIL_onRequestComplete b writes s addr e response) := by
  have noted : Moves b s {s with completions := s.completions ++ [addr]} :=
    moves_of_eq rfl rfl rfl rfl
  apply noted.trans
  unfold RIL_onRequestComplete
  simp only
  split
  · exact .refl
  · rename_i pRI middle found
    obtain ⟨same,listed,rfl⟩ := dequeue_some found
    subst same
    split
    · rename_i isLocal
      exact .single (.take _ pRI listed rfl rfl rfl (.inl ⟨rfl,.inl isLocal⟩))
    · rename_i isLocal
      split
      · rename_i cancelled
        exact .single (.take _ pRI listed rfl rfl rfl (.inl ⟨rfl,.inr cancelled⟩))
      · rename_i cancelled
        refine .single (.take _ pRI listed rfl rfl rfl (.inr ⟨?_,?_,_,_,?_,rfl⟩))
        · simpa using isLocal
        · simpa using cancelled
        · exact replyFrame_header b _ _ _

theorem call_moves {writes : Writes} {pRI : RequestInfo} {call : Call}
    (moved : runCall b writes pRI s call = some next) : Moves b s next := by
  cases call with
  | onRequest data =>
    cases moved
    exact moves_of_eq rfl rfl rfl rfl
  | onRequestComplete e response =>
    cases moved
    exact complete_moves s
  | setVoiceRadioTech value =>
    cases moved
    exact moves_of_eq rfl rfl rfl rfl
  | setCdmaSubscriptionSource value =>
    cases moved
    exact moves_of_eq rfl rfl rfl rfl
  | invalidCommandBlock =>
    cases moved
    exact .refl
  | fault => cases moved

theorem calls_move {writes : Writes} {pRI : RequestInfo} {calls : List Call}
    (ran : runCalls b writes pRI s calls = some next) : Moves b s next :=
  run_invariant (Moves b s) (fun _ _ _ before moved => before.trans (call_moves moved)) .refl ran

theorem command_moves {writes : Writes} {state : RadioState} {buffer : List UInt8}
    {socket_id : SocketId}
    (moved : processCommandBuffer b writes state s buffer socket_id = some next) :
    Moves b s next := by
  rcases command_cases moved with rfl | ⟨token,rfl⟩ | ⟨token,pCI,calls,ran⟩
  · exact .refl
  · exact send_moves (by simp)
  · have queued : Move b s (enqueue s (socketHook b.simCount socket_id)
        (newRequest s token pCI socket_id)) := .enqueue _ _ rfl rfl fun _ => rfl
    exact Relation.ReflTransGen.head queued (calls_move ran)

theorem step_moves {action : Action} (moved : step b s action = some next) : Moves b s next := by
  cases action with
  | command socket_id buffer state writes =>
    exact command_moves moved
  | issueLocal socket_id request data =>
    simp only [step,issueLocalRequest] at moved
    split at moved
    · cases moved
    · cases moved
      refine Relation.ReflTransGen.trans (.single (.enqueue _ _ rfl rfl ?_))
        (moves_of_eq rfl rfl rfl rfl)
      exact fun notLocal => absurd notLocal (by simp)
  | complete addr e response writes =>
    cases moved
    exact complete_moves s
  | connect socket_id state now writes =>
    cases moved
    have opened : Moves b s (setConnected b s socket_id true) := moves_of_eq rfl rfl rfl rfl
    exact opened.trans (connect_moves _)
  | disconnect socket_id =>
    cases moved
    have closed : Moves b s (setConnected b s socket_id false) := moves_of_eq rfl rfl rfl rfl
    exact closed.trans (.single (.sweep (socketHook b.simCount socket_id) rfl rfl rfl rfl))
  | unsolicited socket_id code data state now writes =>
    cases moved
    exact onUnsolicited_moves s

end Moving

def created (s : Ril) : Action → List RequestInfo
  | .command socket_id buffer _ _ =>
    match readHeader buffer with
    | none => []
    | some (request,token,_) =>
      match lookupCommand request with
      | none => []
      | some pCI => [⟨s.nextAddr,token,pCI,false,false,socket_id⟩]
  | .issueLocal socket_id request _ =>
    match s_commands[request]? with
    | none => []
    | some pCI => [⟨s.nextAddr,0xffffffff,pCI,false,true,socket_id⟩]
  | _ => []

section Created
variable {b : Build} {s next : Ril}

abbrev SameRequests (s next : Ril) : Prop := next.requests = s.requests

theorem same_admits : Admits SameRequests where
  refl := fun _ => rfl
  trans := fun first second => second.trans first
  wake := fun _ _ _ _ _ => rfl
  cached := fun _ _ _ _ => rfl
  sent := fun _ _ _ _ _ => rfl

theorem same_admitsCalls : AdmitsCalls SameRequests where
  refl := fun _ => rfl
  trans := fun first second => second.trans first
  noted := fun _ _ _ => rfl
  cached := fun _ _ _ => rfl
  taken := fun _ _ _ => rfl
  replied := fun _ _ _ _ _ => rfl

theorem onUnsolicited_requests {writes : Writes} {now : Int} {state : RadioState} {code : Int}
    {data : UnsolData} {socket_id : SocketId} (s : Ril) :
    SameRequests s (RIL_onUnsolicitedResponse b writes now state s code data socket_id) := by
  apply unsolicited_admitted same_admits (fun s => processRadioState_admitted same_admits s)
  intro s code' info frame _
  unfold deliverUnsol
  split
  · simp only
    split <;> rfl
  · rfl

theorem connect_requests {writes : Writes} {now : Int} {state : RadioState} {socket_id : SocketId}
    (s : Ril) : SameRequests s (onNewCommandConnect b writes now state s socket_id) := by
  have flush : ∀ s, SameRequests s (flushNitz b writes s socket_id) := by
    intro s
    unfold flushNitz
    split <;> rfl
  exact (flush _).trans ((onUnsolicited_requests _).trans (onUnsolicited_requests s))

theorem command_requests {writes : Writes} {state : RadioState} {buffer : List UInt8}
    {socket_id : SocketId} (moved : processCommandBuffer b writes state s buffer socket_id = some next) :
    next.requests = s.requests ++ created s (.command socket_id buffer state writes) := by
  simp only [processCommandBuffer] at moved
  simp only [created]
  cases read : readHeader buffer with
  | none =>
    simp only [read] at moved ⊢
    cases moved
    exact (List.append_nil _).symm
  | some result =>
    obtain ⟨request,token,p⟩ := result
    simp only [read] at moved ⊢
    cases row : lookupCommand request with
    | none =>
      simp only [row] at moved ⊢
      cases moved
      exact (List.append_nil _).symm
    | some pCI =>
      simp only [row] at moved ⊢
      split at moved
      · cases moved
      · exact calls_admitted same_admitsCalls moved

theorem step_requests {action : Action} (moved : step b s action = some next) :
    next.requests = s.requests ++ created s action := by
  cases action with
  | command socket_id buffer state writes => exact command_requests moved
  | issueLocal socket_id request data =>
    simp only [step,issueLocalRequest] at moved
    simp only [created]
    cases row : s_commands[request]? with
    | none =>
      simp only [row] at moved
      cases moved
    | some pCI =>
      simp only [row] at moved ⊢
      cases moved
      rfl
  | complete addr e response writes =>
    cases moved
    exact (complete_admitted same_admitsCalls s addr e response).trans (List.append_nil _).symm
  | connect socket_id state now writes =>
    cases moved
    exact (connect_requests _).trans (List.append_nil _).symm
  | disconnect socket_id =>
    cases moved
    exact (List.append_nil _).symm
  | unsolicited socket_id code data state now writes =>
    cases moved
    exact (onUnsolicited_requests s).trans (List.append_nil _).symm

theorem run_requests {actions : List Action} (ran : run (step b) s actions = some next) :
    s.requests <+: next.requests := by
  apply run_invariant (fun reached => s.requests <+: reached.requests) _ (List.prefix_refl _) ran
  intro middle action after before moved
  rw [step_requests moved]
  exact before.trans (List.prefix_append _ _)

theorem recorded_created {actions : List Action} (ran : run (step b) .initial actions = some s)
    {r : RequestInfo} (recorded : r ∈ s.requests) : ∃ front action back before,
      actions = front ++ action :: back ∧ run (step b) .initial front = some before ∧
      r ∈ created before action := by
  induction actions using List.reverseRecOn generalizing s with
  | nil =>
    cases ran
    cases recorded
  | append_singleton earlier last ih =>
    rw [run_append] at ran
    obtain ⟨before,reached,tail⟩ := Option.bind_eq_some_iff.mp ran
    obtain ⟨after,moved,done⟩ := run_cons tail
    cases done
    rw [step_requests moved] at recorded
    rcases List.mem_append.mp recorded with old | new
    · obtain ⟨front,action,back,middle,split,earlierReached,made⟩ := ih reached old
      exact ⟨front,action,back ++ [last],middle,by simp [split],earlierReached,made⟩
    · exact ⟨earlier,last,[],before,rfl,reached,new⟩

theorem created_command {action : Action} {r : RequestInfo} (made : r ∈ created s action)
    (notLocal : r.isLocal = false) : ∃ socket_id buffer state writes request p,
      action = .command socket_id buffer state writes ∧ readHeader buffer = some (request,r.token,p) ∧
      lookupCommand request = some r.pCI ∧ r.socket_id = socket_id ∧ r.addr = s.nextAddr := by
  cases action with
  | command socket_id buffer state writes =>
    simp only [created] at made
    cases read : readHeader buffer with
    | none =>
      simp only [read] at made
      cases made
    | some result =>
      obtain ⟨request,token,p⟩ := result
      cases row : lookupCommand request with
      | none =>
        simp only [read,row] at made
        cases made
      | some pCI =>
        simp only [read,row,List.mem_singleton] at made
        subst made
        exact ⟨socket_id,buffer,state,writes,request,p,rfl,read,row,rfl,rfl⟩
  | issueLocal socket_id request data =>
    simp only [created] at made
    cases row : s_commands[request]? with
    | none =>
      simp only [row] at made
      cases made
    | some pCI =>
      simp only [row,List.mem_singleton] at made
      subst made
      cases notLocal
  | complete addr e response writes => cases made
  | connect socket_id state now writes => cases made
  | disconnect socket_id => cases made
  | unsolicited socket_id code data state now writes => cases made

end Created

structure Orderly (b : Build) (s : Ril) : Prop where
  known : ∀ hook, ∀ p ∈ s.pendingRequests hook, p.addr < s.nextAddr
  apart : ∀ i j, ∀ p ∈ s.pendingRequests i, ∀ q ∈ s.pendingRequests j, p.addr = q.addr → i = j
  nodup : ∀ hook, ((s.pendingRequests hook).map (·.addr)).Nodup
  hooked : ∀ hook, ∀ p ∈ s.pendingRequests hook, p.isLocal = false →
    hook = socketHook b.simCount p.socket_id
  recorded : ∀ hook, ∀ p ∈ s.pendingRequests hook, {p with cancelled := false} ∈ s.requests
  older : ∀ r ∈ s.requests, r.addr < s.nextAddr
  unique : ∀ r ∈ s.requests, ∀ q ∈ s.requests, r.addr = q.addr → r = q
  unanswered : ∀ hook, ∀ p ∈ s.pendingRequests hook, ∀ f ∈ s.sent, f.origin ≠ .reply p.addr
  once : ∀ addr, (replies s addr).length ≤ 1
  addressed : ∀ f ∈ s.sent, ∀ addr, f.origin = .reply addr → ∃ r ∈ s.requests,
    r.addr = addr ∧ r.isLocal = false ∧ f.socket_id = r.socket_id ∧ f.data.take 8 = header r.token

structure Silent (addr : Nat) (s : Ril) : Prop where
  known : addr < s.nextAddr
  unanswered : ∀ f ∈ s.sent, f.origin ≠ .reply addr
  muted : ∀ hook, ∀ p ∈ s.pendingRequests hook, p.addr = addr →
    p.cancelled = true ∨ p.isLocal = true

theorem initial_orderly (b : Build) : Orderly b .initial := by
  constructor <;> simp [Ril.initial,replies]

section Invariant
variable {b : Build} {s next : Ril}

theorem replies_append_other {extra : List Sent} {addr : Nat} (sent : next.sent = s.sent ++ extra)
    (other : ∀ f ∈ extra, f.origin ≠ .reply addr) : replies next addr = replies s addr := by
  have none : extra.filter (·.origin = .reply addr) = [] := by
    apply List.filter_eq_nil_iff.mpr
    intro f present
    simpa using other f present
  simp only [replies,sent,List.filter_append,none,List.append_nil]

theorem replies_nil {addr : Nat} (unanswered : ∀ f ∈ s.sent, f.origin ≠ .reply addr) :
    replies s addr = [] := by
  apply List.filter_eq_nil_iff.mpr
  intro f present
  simpa using unanswered f present

theorem quiet_orderly {extra : List Sent} (pending : next.pendingRequests = s.pendingRequests)
    (requests : next.requests = s.requests) (fresh : next.nextAddr = s.nextAddr)
    (sent : next.sent = s.sent ++ extra) (other : ∀ f ∈ extra, ∀ addr, f.origin ≠ .reply addr)
    (orderly : Orderly b s) : Orderly b next where
  known := by rw [pending,fresh]; exact orderly.known
  apart := by rw [pending]; exact orderly.apart
  nodup := by rw [pending]; exact orderly.nodup
  hooked := by rw [pending]; exact orderly.hooked
  recorded := by rw [pending,requests]; exact orderly.recorded
  older := by rw [requests,fresh]; exact orderly.older
  unique := by rw [requests]; exact orderly.unique
  unanswered := by
    rw [pending,sent]
    intro hook p listed f present
    rcases List.mem_append.mp present with before | new
    · exact orderly.unanswered hook p listed f before
    · exact other f new _
  once := by
    intro addr
    rw [replies_append_other sent fun f present => other f present addr]
    exact orderly.once addr
  addressed := by
    rw [requests,sent]
    intro f present addr reply
    rcases List.mem_append.mp present with before | new
    · exact orderly.addressed f before addr reply
    · exact absurd reply (other f new addr)

theorem enqueue_mem {hook other : SocketId} {pRI p : RequestInfo}
    (listed : p ∈ (enqueue s hook pRI).pendingRequests other) :
    (other = hook ∧ p = pRI) ∨ p ∈ s.pendingRequests other := by
  by_cases same : other = hook
  · subst same
    simp only [enqueue,Function.update_self,List.mem_cons] at listed
    exact listed.imp (fun new => ⟨rfl,new⟩) id
  · simp only [enqueue,Function.update_of_ne same] at listed
    exact .inr listed

theorem enqueue_orderly {hook : SocketId} {pRI : RequestInfo} (fresh : pRI.addr = s.nextAddr)
    (live : pRI.cancelled = false)
    (hooked : pRI.isLocal = false → hook = socketHook b.simCount pRI.socket_id)
    (orderly : Orderly b s) : Orderly b (enqueue s hook pRI) where
  known := by
    intro other p listed
    rcases enqueue_mem listed with ⟨_,rfl⟩ | old
    · exact fresh ▸ Nat.lt_succ_self _
    · exact Nat.lt_succ_of_lt (orderly.known other p old)
  apart := by
    intro i j p listedP q listedQ same
    rcases enqueue_mem listedP with ⟨rfl,rfl⟩ | oldP
    · rcases enqueue_mem listedQ with ⟨rfl,rfl⟩ | oldQ
      · rfl
      · have := orderly.known j q oldQ
        omega
    · rcases enqueue_mem listedQ with ⟨rfl,rfl⟩ | oldQ
      · have := orderly.known i p oldP
        omega
      · exact orderly.apart i j p oldP q oldQ same
  nodup := by
    intro other
    by_cases same : other = hook
    · subst same
      simp only [enqueue,Function.update_self,List.map_cons]
      apply List.nodup_cons.mpr
      refine ⟨fun present => ?_,orderly.nodup other⟩
      obtain ⟨p,listed,equal⟩ := List.mem_map.mp present
      have := orderly.known other p listed
      omega
    · simp only [enqueue,Function.update_of_ne same]
      exact orderly.nodup other
  hooked := by
    intro other p listed notLocal
    rcases enqueue_mem listed with ⟨rfl,rfl⟩ | old
    · exact hooked notLocal
    · exact orderly.hooked other p old notLocal
  recorded := by
    intro other p listed
    apply List.mem_append.mpr
    rcases enqueue_mem listed with ⟨_,rfl⟩ | old
    · exact .inr (List.mem_singleton.mpr (by cases p; simp_all))
    · exact .inl (orderly.recorded other p old)
  older := by
    intro r present
    rcases List.mem_append.mp present with old | new
    · exact Nat.lt_succ_of_lt (orderly.older r old)
    · rw [List.mem_singleton.mp new,fresh]
      exact Nat.lt_succ_self _
  unique := by
    intro r presentR q presentQ same
    rcases List.mem_append.mp presentR with oldR | newR <;>
      rcases List.mem_append.mp presentQ with oldQ | newQ
    · exact orderly.unique r oldR q oldQ same
    · have := orderly.older r oldR
      rw [List.mem_singleton.mp newQ] at same
      omega
    · have := orderly.older q oldQ
      rw [List.mem_singleton.mp newR] at same
      omega
    · rw [List.mem_singleton.mp newR,List.mem_singleton.mp newQ]
  unanswered := by
    intro other p listed f present
    rcases enqueue_mem listed with ⟨_,rfl⟩ | old
    · intro reply
      obtain ⟨r,recorded,same,_⟩ := orderly.addressed f present _ reply
      have := orderly.older r recorded
      omega
    · exact orderly.unanswered other p old f present
  once := orderly.once
  addressed := by
    intro f present addr reply
    obtain ⟨r,recorded,rest⟩ := orderly.addressed f present addr reply
    exact ⟨r,List.mem_append_left _ recorded,rest⟩

theorem without_mem {hook other : SocketId} {addr : Nat} {p : RequestInfo}
    (listed : p ∈ (without s hook addr).pendingRequests other) : p ∈ s.pendingRequests other := by
  by_cases same : other = hook
  · subst same
    simp only [without,Function.update_self] at listed
    exact List.mem_of_mem_eraseP listed
  · simpa [without,same] using listed

theorem erase_ne {pending : List RequestInfo} {addr : Nat} {p : RequestInfo}
    (nodup : (pending.map (·.addr)).Nodup) (listed : p ∈ pending.eraseP (·.addr = addr)) :
    p.addr ≠ addr := by
  induction pending with
  | nil => simp at listed
  | cons first rest ih =>
    obtain ⟨fresh,tail⟩ := List.nodup_cons.mp nodup
    by_cases hit : first.addr = addr
    · rw [List.eraseP_cons_of_pos (by simpa using hit)] at listed
      intro same
      exact fresh (List.mem_map.mpr ⟨p,listed,same.trans hit.symm⟩)
    · rw [List.eraseP_cons_of_neg (by simpa using hit)] at listed
      rcases List.mem_cons.mp listed with rfl | later
      · exact hit
      · exact ih tail later

theorem without_ne {hook other : SocketId} {pRI p : RequestInfo} (orderly : Orderly b s)
    (taken : pRI ∈ s.pendingRequests hook)
    (listed : p ∈ (without s hook pRI.addr).pendingRequests other) : p.addr ≠ pRI.addr := by
  by_cases same : other = hook
  · subst same
    simp only [without,Function.update_self] at listed
    exact erase_ne (orderly.nodup other) listed
  · intro equal
    exact same (orderly.apart other hook p (without_mem listed) pRI taken equal)

theorem take_orderly {hook : SocketId} {pRI : RequestInfo} (taken : pRI ∈ s.pendingRequests hook)
    (pending : next.pendingRequests = (without s hook pRI.addr).pendingRequests)
    (requests : next.requests = s.requests) (fresh : next.nextAddr = s.nextAddr)
    (sent : (next.sent = s.sent ∧ (pRI.isLocal = true ∨ pRI.cancelled = true)) ∨
      (pRI.isLocal = false ∧ pRI.cancelled = false ∧ ∃ data ok,
        data.take 8 = header pRI.token ∧
        next.sent = s.sent ++ [⟨pRI.socket_id,data,.reply pRI.addr,ok⟩]))
    (orderly : Orderly b s) : Orderly b next := by
  have frames : ∀ f ∈ next.sent, f ∈ s.sent ∨ (f.origin = .reply pRI.addr ∧ pRI.isLocal = false ∧
      f.socket_id = pRI.socket_id ∧ f.data.take 8 = header pRI.token) := by
    intro f present
    rcases sent with ⟨same,_⟩ | ⟨notLocal,_,data,ok,start,more⟩
    · exact .inl (same ▸ present)
    · rw [more] at present
      rcases List.mem_append.mp present with before | new
      · exact .inl before
      · rw [List.mem_singleton.mp new]
        exact .inr ⟨rfl,notLocal,rfl,start⟩
  constructor
  case known =>
    rw [pending,fresh]
    exact fun other p listed => orderly.known other p (without_mem listed)
  case apart =>
    rw [pending]
    exact fun i j p listedP q listedQ =>
      orderly.apart i j p (without_mem listedP) q (without_mem listedQ)
  case nodup =>
    rw [pending]
    intro other
    by_cases same : other = hook
    · subst same
      simp only [without,Function.update_self]
      exact (orderly.nodup other).sublist (List.eraseP_sublist.map _)
    · simpa [without,same] using orderly.nodup other
  case hooked =>
    rw [pending]
    exact fun other p listed => orderly.hooked other p (without_mem listed)
  case recorded =>
    rw [pending,requests]
    exact fun other p listed => orderly.recorded other p (without_mem listed)
  case older =>
    rw [requests,fresh]
    exact orderly.older
  case unique =>
    rw [requests]
    exact orderly.unique
  case unanswered =>
    rw [pending]
    intro other p listed f present
    rcases frames f present with before | ⟨reply,_⟩
    · exact orderly.unanswered other p (without_mem listed) f before
    · rw [reply]
      intro same
      exact without_ne orderly taken listed (Origin.reply.inj same).symm
  case once =>
    intro addr
    rcases sent with ⟨same,_⟩ | ⟨_,_,data,ok,_,more⟩
    · simp only [replies,same]
      exact orderly.once addr
    · by_cases own : pRI.addr = addr
      · subst own
        have none := replies_nil (orderly.unanswered hook pRI taken)
        simp only [replies,more,List.filter_append] at none ⊢
        rw [none]
        simp
      · rw [replies_append_other more (by simpa using own)]
        exact orderly.once addr
  case addressed =>
    rw [requests]
    intro f present addr reply
    rcases frames f present with before | ⟨own,notLocal,socket,start⟩
    · exact orderly.addressed f before addr reply
    · rw [own] at reply
      exact ⟨_,orderly.recorded hook pRI taken,Origin.reply.inj reply,notLocal,socket,start⟩

theorem sweep_mem {hook other : SocketId} {p : RequestInfo}
    (listed : p ∈ Function.update s.pendingRequests hook
      ((s.pendingRequests hook).map fun pRI => {pRI with cancelled := true}) other) :
    ∃ old ∈ s.pendingRequests other, p = old ∨ p = {old with cancelled := true} := by
  by_cases same : other = hook
  · subst same
    rw [Function.update_self] at listed
    obtain ⟨old,present,rfl⟩ := List.mem_map.mp listed
    exact ⟨old,present,.inr rfl⟩
  · rw [Function.update_of_ne same] at listed
    exact ⟨p,listed,.inl rfl⟩

theorem sweep_orderly {hook : SocketId}
    (pending : next.pendingRequests = Function.update s.pendingRequests hook
      ((s.pendingRequests hook).map fun pRI => {pRI with cancelled := true}))
    (requests : next.requests = s.requests) (fresh : next.nextAddr = s.nextAddr)
    (sent : next.sent = s.sent) (orderly : Orderly b s) : Orderly b next := by
  have origin : ∀ other, ∀ p ∈ next.pendingRequests other, ∃ old ∈ s.pendingRequests other,
      p.addr = old.addr ∧ p.isLocal = old.isLocal ∧ p.socket_id = old.socket_id ∧
      {p with cancelled := false} = {old with cancelled := false} := by
    intro other p listed
    rw [pending] at listed
    obtain ⟨old,present,rfl | rfl⟩ := sweep_mem listed
    · exact ⟨p,present,rfl,rfl,rfl,rfl⟩
    · exact ⟨old,present,rfl,rfl,rfl,rfl⟩
  constructor
  case known =>
    rw [fresh]
    intro other p listed
    obtain ⟨old,present,addr,_⟩ := origin other p listed
    exact addr ▸ orderly.known other old present
  case apart =>
    intro i j p listedP q listedQ same
    obtain ⟨oldP,presentP,addrP,_⟩ := origin i p listedP
    obtain ⟨oldQ,presentQ,addrQ,_⟩ := origin j q listedQ
    exact orderly.apart i j oldP presentP oldQ presentQ (addrP.symm.trans (same.trans addrQ))
  case nodup =>
    intro other
    have addrs : (next.pendingRequests other).map (·.addr) =
        (s.pendingRequests other).map (·.addr) := by
      rw [pending]
      by_cases same : other = hook
      · subst same
        simp [Function.comp_def]
      · rw [Function.update_of_ne same]
    rw [addrs]
    exact orderly.nodup other
  case hooked =>
    intro other p listed notLocal
    obtain ⟨old,present,_,isLocal,socket,_⟩ := origin other p listed
    rw [socket]
    exact orderly.hooked other old present (isLocal ▸ notLocal)
  case recorded =>
    rw [requests]
    intro other p listed
    obtain ⟨old,present,_,_,_,same⟩ := origin other p listed
    rw [same]
    exact orderly.recorded other old present
  case older =>
    rw [requests,fresh]
    exact orderly.older
  case unique =>
    rw [requests]
    exact orderly.unique
  case unanswered =>
    rw [sent]
    intro other p listed
    obtain ⟨old,present,addr,_⟩ := origin other p listed
    rw [addr]
    exact orderly.unanswered other old present
  case once =>
    simp only [replies,sent]
    exact orderly.once
  case addressed =>
    rw [requests,sent]
    exact orderly.addressed

theorem move_orderly (orderly : Orderly b s) (moved : Move b s next) : Orderly b next := by
  cases moved with
  | quiet extra pending requests fresh sent other =>
    exact quiet_orderly pending requests fresh sent other orderly
  | enqueue hook pRI fresh live hooked => exact enqueue_orderly fresh live hooked orderly
  | take hook pRI listed pending requests fresh sent =>
    exact take_orderly listed pending requests fresh sent orderly
  | sweep hook pending requests fresh sent => exact sweep_orderly pending requests fresh sent orderly

theorem moves_orderly (orderly : Orderly b s) (moved : Moves b s next) : Orderly b next := by
  induction moved with
  | refl => exact orderly
  | tail _ last ih => exact move_orderly ih last

theorem move_silent {addr : Nat} (silent : Silent addr s) (moved : Move b s next) :
    Silent addr next := by
  cases moved with
  | quiet extra pending requests fresh sent other =>
    refine ⟨fresh ▸ silent.known,?_,pending ▸ silent.muted⟩
    rw [sent]
    intro f present
    rcases List.mem_append.mp present with before | new
    · exact silent.unanswered f before
    · exact other f new addr
  | enqueue hook pRI fresh live hooked =>
    refine ⟨Nat.lt_succ_of_lt silent.known,silent.unanswered,?_⟩
    intro other p listed same
    rcases enqueue_mem listed with ⟨_,rfl⟩ | old
    · have := silent.known
      omega
    · exact silent.muted other p old same
  | take hook pRI listed pending requests fresh sent =>
    refine ⟨fresh ▸ silent.known,?_,?_⟩
    · rcases sent with ⟨same,_⟩ | ⟨notLocal,live,data,ok,_,more⟩
      · exact same ▸ silent.unanswered
      · rw [more]
        intro f present
        rcases List.mem_append.mp present with before | new
        · exact silent.unanswered f before
        · rw [List.mem_singleton.mp new]
          intro reply
          have muted := silent.muted hook pRI listed (Origin.reply.inj reply)
          simp [live,notLocal] at muted
    · rw [pending]
      exact fun other p remains same => silent.muted other p (without_mem (s := s) remains) same
  | sweep hook pending requests fresh sent =>
    refine ⟨fresh ▸ silent.known,sent ▸ silent.unanswered,?_⟩
    rw [pending]
    intro other p listed same
    obtain ⟨old,present,rfl | rfl⟩ := sweep_mem listed
    · exact silent.muted other p present same
    · exact .inl rfl

theorem moves_silent {addr : Nat} (silent : Silent addr s) (moved : Moves b s next) :
    Silent addr next := by
  induction moved with
  | refl => exact silent
  | tail _ last ih => exact move_silent ih last

theorem run_orderly {actions : List Action} (ran : run (step b) .initial actions = some s) :
    Orderly b s :=
  run_invariant (Orderly b) (fun _ _ _ orderly moved => moves_orderly orderly (step_moves moved))
    (initial_orderly b) ran

theorem run_silent {addr : Nat} {actions : List Action} (silent : Silent addr s)
    (ran : run (step b) s actions = some next) : Silent addr next :=
  run_invariant (Silent addr) (fun _ _ _ silent moved => moves_silent silent (step_moves moved))
    silent ran

-- The sweep of a disconnect reaches every request of the socket that could
-- still be answered.
theorem disconnect_silent {socket_id hook : SocketId} {p : RequestInfo} (orderly : Orderly b s)
    (listed : p ∈ s.pendingRequests hook) (own : p.socket_id = socket_id)
    (moved : step b s (.disconnect socket_id) = some next) : Silent p.addr next := by
  cases moved
  refine ⟨orderly.known hook p listed,orderly.unanswered hook p listed,?_⟩
  intro other q present same
  obtain ⟨old,before,shape⟩ := sweep_mem (s := setConnected b s socket_id false) present
  have equal : old.addr = p.addr := by
    rcases shape with rfl | rfl <;> exact same
  have place : other = hook := orderly.apart other hook old before p listed equal
  subst place
  have identical : old = p := List.inj_on_of_nodup_map (orderly.nodup other) before listed equal
  subst identical
  cases isLocal : old.isLocal with
  | true =>
    rcases shape with rfl | rfl <;> exact .inr isLocal
  | false =>
    have swept := orderly.hooked other old listed isLocal
    rw [own] at swept
    subst swept
    simp only [onCommandsSocketClosed,Function.update_self,List.mem_map] at present
    obtain ⟨_,_,rfl⟩ := present
    exact .inl rfl

theorem dequeue_none {addr : Nat} (absent : ∀ hook, ∀ p ∈ s.pendingRequests hook, p.addr ≠ addr) :
    checkAndDequeueRequestInfo b s addr = none := by
  have missing : (s.pendingRequests (searchedList b s addr)).find? (·.addr = addr) = none := by
    apply List.find?_eq_none.mpr
    intro p listed
    simpa using absent _ p listed
  simp only [checkAndDequeueRequestInfo,missing]

theorem command_replies {actions front back : List Action} {socket_id : SocketId} {buffer : List UInt8}
    {state : RadioState} {writes : Writes} {before : Ril} {request token : Int} {p : Parcel}
    {pCI : CommandInfo} (split : actions = front ++ .command socket_id buffer state writes :: back)
    (ran : run (step b) .initial actions = some s) (reached : run (step b) .initial front = some before)
    (read : readHeader buffer = some (request,token,p)) (row : lookupCommand request = some pCI) :
    (⟨before.nextAddr,token,pCI,false,false,socket_id⟩ : RequestInfo) ∈ s.requests ∧
      ∀ f ∈ s.sent, f.origin = .reply before.nextAddr →
        f.data.take 8 = header token ∧ f.socket_id = socket_id := by
  have orderly := run_orderly ran
  rw [split,run_append,reached,Option.bind_some] at ran
  obtain ⟨after,moved,rest⟩ := run_cons ran
  have made : (⟨before.nextAddr,token,pCI,false,false,socket_id⟩ : RequestInfo) ∈ after.requests := by
    rw [step_requests moved]
    apply List.mem_append_right
    simp only [created,read,row,List.mem_singleton]
  have kept := (run_requests rest).subset made
  refine ⟨kept,fun f present reply => ?_⟩
  obtain ⟨r,recorded,same,_,socket,start⟩ := orderly.addressed f present _ reply
  cases orderly.unique r recorded _ kept same
  exact ⟨start,socket⟩

theorem replies_once (b : Build) (actions : List Action) (s : Ril)
    (ran : run (step b) .initial actions = some s) :
    (∀ addr, (replies s addr).length ≤ 1) ∧
    (∀ f ∈ s.sent, ∀ addr, f.origin = .reply addr → ∃ r ∈ s.requests, r.addr = addr ∧
      f.data.take 8 = header r.token ∧ f.socket_id = r.socket_id ∧ r.isLocal = false ∧
      ∀ q ∈ s.requests, q.addr = addr → q = r) ∧
    (∀ r ∈ s.requests, r.isLocal = false →
      ∃ front back socket_id buffer state writes before request p,
        actions = front ++ .command socket_id buffer state writes :: back ∧
        run (step b) .initial front = some before ∧ readHeader buffer = some (request,r.token,p) ∧
        lookupCommand request = some r.pCI ∧ r.socket_id = socket_id ∧ r.addr = before.nextAddr) ∧
    (∀ front back socket_id buffer state writes before request token p pCI,
      actions = front ++ .command socket_id buffer state writes :: back →
      run (step b) .initial front = some before → readHeader buffer = some (request,token,p) →
      lookupCommand request = some pCI →
      (⟨before.nextAddr,token,pCI,false,false,socket_id⟩ : RequestInfo) ∈ s.requests ∧
        ∀ f ∈ s.sent, f.origin = .reply before.nextAddr →
          f.data.take 8 = header token ∧ f.socket_id = socket_id) ∧
    (∀ front back socket_id before hook p, actions = front ++ .disconnect socket_id :: back →
      run (step b) .initial front = some before → p ∈ before.pendingRequests hook →
      p.socket_id = socket_id → replies s p.addr = []) ∧
    (∀ addr e response writes next, (∀ hook, ∀ p ∈ s.pendingRequests hook, p.addr ≠ addr) →
      step b s (.complete addr e response writes) = some next →
      next.sent = s.sent ∧ next.pendingRequests = s.pendingRequests) := by
  have orderly := run_orderly ran
  refine ⟨orderly.once,?_,?_,?_,?_,?_⟩
  · intro f present addr reply
    obtain ⟨r,recorded,same,notLocal,socket,start⟩ := orderly.addressed f present addr reply
    refine ⟨r,recorded,same,start,socket,notLocal,fun q other equal => ?_⟩
    exact orderly.unique q other r recorded (equal.trans same.symm)
  · intro r recorded notLocal
    obtain ⟨front,action,back,before,split,reached,made⟩ := recorded_created ran recorded
    obtain ⟨socket_id,buffer,state,writes,request,p,rfl,read,row,socket,addr⟩ :=
      created_command made notLocal
    exact ⟨front,back,socket_id,buffer,state,writes,before,request,p,split,reached,read,row,socket,addr⟩
  · intro front back socket_id buffer state writes before request token p pCI split reached read row
    exact command_replies split ran reached read row
  · intro front back socket_id before hook p split reached listed own
    rw [split,run_append,reached,Option.bind_some] at ran
    obtain ⟨after,closed,rest⟩ := run_cons ran
    have silent := disconnect_silent (run_orderly reached) listed own closed
    exact replies_nil (run_silent silent rest).unanswered
  · intro addr e response writes next absent moved
    have none : checkAndDequeueRequestInfo b {s with completions := s.completions ++ [addr]} addr =
        none := dequeue_none absent
    simp only [step,RIL_onRequestComplete,none,Option.some.injEq] at moved
    subst moved
    exact ⟨rfl,rfl⟩

-- The radio is off: the dispatch function completes the request twice and the
-- vendor a third time.
theorem replies_once_radio_off :
    ∃ s, run (step (asciiBuild 1)) .initial
        [.connect .socket1 .off 0 fun _ => true,
         .command .socket1 (Parcel.le32 108 ++ Parcel.le32 7) .off fun _ => true,
         .complete 0 RIL_E_SUCCESS .null fun _ => true] = some s ∧
      s.completions = [0,0,0] ∧ (replies s 0).length ≤ 1 := by
  refine ⟨_,rfl,rfl,?_⟩
  exact (replies_once (asciiBuild 1)
    [.connect .socket1 .off 0 fun _ => true,
     .command .socket1 (Parcel.le32 108 ++ Parcel.le32 7) .off fun _ => true,
     .complete 0 RIL_E_SUCCESS .null fun _ => true] _ rfl).1 0

end Invariant

end SemcMsm7x30.Requests

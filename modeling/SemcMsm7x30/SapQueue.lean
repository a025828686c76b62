import SemcMsm7x30.PartialMachine
import SemcMsm7x30.RilTypes

namespace SemcMsm7x30.SapQueue
open PartialMachine

-- Ril_queue<T>: the elements reached from `front` through p_next, front first.
-- Both branches of enqueue leave the new request in front of what was there.
def enqueue (front : List T) (request : T) : List T :=
  match front with
  | [] => [request]
  | first :: rest => request :: first :: rest

def dequeue (front : List T) : Option (T × List T) :=
  match front with
  | [] => none
  | temp :: p_next => some (temp,p_next)

theorem enqueue_eq (front : List T) (request : T) : enqueue front request = request :: front := by
  cases front <;> rfl

-- The header pushRecord allocates; its address tells equal messages apart.
structure MsgHeader where
  addr : Nat
  token : Int
  type : Int
  id : Int
  error : Int
  payload : List UInt8
  deriving DecidableEq, Repr

structure SapSocketRequest where
  token : Int
  curr : MsgHeader
  socketId : SocketId
  deriving DecidableEq, Repr

-- One RilSapSocket. `W` names the threads running processRequestsLoop and
-- `held` the request such a thread has dequeued and not yet dispatched.
-- `read` and `onRequest` are histories: the headers in the order their records
-- were read, and in the order uimFuncs->onRequest was called with them.
structure State (W : Type) where
  id : SocketId
  nextAddr : Nat
  dispatchQueue : List SapSocketRequest
  pendingResponseQueue : List SapSocketRequest
  held : W → Option SapSocketRequest
  read : List MsgHeader
  onRequest : List MsgHeader

def initial (W : Type) (id : SocketId) : State W := ⟨id,0,[],[],fun _ => none,[],[]⟩

inductive Action (W : Type) where
  | pushRecord (record : List UInt8) (oom : Bool)
  | dequeue (worker : W)
  | dispatchRequest (worker : W) (oom : Bool)
  deriving DecidableEq, Repr

section Machine
variable {W : Type} [DecidableEq W] (decode : List UInt8 → Option MsgHeader)

def pushRecord (s : State W) (record : List UInt8) (oom : Bool) : State W :=
  match decode record with
  | none => s
  | some decoded =>
    if oom then s else
    let reqHeader := {decoded with addr := s.nextAddr}
    {s with
      nextAddr := s.nextAddr+1
      dispatchQueue := enqueue s.dispatchQueue ⟨reqHeader.token,reqHeader,s.id⟩
      read := s.read ++ [reqHeader]}

def dispatchRequest (s : State W) (req : MsgHeader) (oom : Bool) : State W :=
  if oom then s else
  {s with
    pendingResponseQueue := enqueue s.pendingResponseQueue ⟨req.token,req,s.id⟩
    onRequest := s.onRequest ++ [req]}

-- processRequestsLoop is two steps: the critical section of dequeue, and the
-- dispatch of what it returned.
def step (s : State W) : Action W → Option (State W)
  | .pushRecord record oom => some (pushRecord decode s record oom)
  | .dequeue worker =>
    match s.held worker,dequeue s.dispatchQueue with
    | none,some (req,rest) =>
      some {s with dispatchQueue := rest,held := Function.update s.held worker (some req)}
    | _,_ => none
  | .dispatchRequest worker oom =>
    match s.held worker with
    | none => none
    | some req =>
      some (dispatchRequest {s with held := Function.update s.held worker none} req.curr oom)

end Machine

section Order
variable (decode : List UInt8 → Option MsgHeader)

def InOrder (s : State W) : Prop := s.onRequest.Sublist s.read

def PushedOntoEmpty (s : State Unit) : Action Unit → Prop
  | .pushRecord record oom => (decode record).isSome → oom = false → s.dispatchQueue = []
  | _ => True

def heldHeaders (s : State Unit) : List MsgHeader := ((s.held ()).map (·.curr)).toList

structure Orderly (s : State Unit) : Prop where
  short : s.dispatchQueue.length ≤ 1
  fresh : ∀ header ∈ s.read, header.addr < s.nextAddr
  ordered : (s.onRequest ++ heldHeaders s ++ s.dispatchQueue.map (·.curr)).Sublist s.read

theorem initial_orderly (id : SocketId) : Orderly (initial Unit id) :=
  ⟨by simp [initial],by simp [initial],by simp [initial,heldHeaders]⟩

theorem push_orderly {s : State Unit} (valid : Orderly s)
    (emptied : PushedOntoEmpty decode s (.pushRecord record oom)) :
    Orderly (pushRecord decode s record oom) := by
  unfold pushRecord
  cases decoded : decode record with
  | none => exact valid
  | some header =>
    cases oom with
    | true => exact valid
    | false =>
      have empty : s.dispatchQueue = [] := emptied (by simp [decoded]) rfl
      have ordered := valid.ordered
      simp only [empty,List.map_nil,List.append_nil] at ordered
      refine ⟨by simp [empty,enqueue],?_,?_⟩
      · intro old present
        rcases List.mem_append.mp present with earlier | last
        · exact Nat.lt_succ_of_lt (valid.fresh old earlier)
        · simp only [List.mem_singleton] at last
          subst last
          exact Nat.lt_succ_self _
      · simpa [empty,enqueue,heldHeaders] using ordered.append (List.Sublist.refl _)

theorem dequeue_orderly {s next : State Unit} (valid : Orderly s)
    (moved : step decode s (.dequeue ()) = some next) : Orderly next := by
  cases held : s.held () with
  | some req => simp [step,held] at moved
  | none =>
    cases queue : s.dispatchQueue with
    | nil => simp [step,held,queue,dequeue] at moved
    | cons req rest =>
      simp only [step,held,queue,dequeue,Option.some.injEq] at moved
      have short := valid.short
      have ordered := valid.ordered
      rw [queue] at short ordered
      subst moved
      refine ⟨by simp only [List.length_cons] at short ⊢; omega,valid.fresh,?_⟩
      simpa [heldHeaders,held] using ordered

theorem dispatch_orderly {s next : State Unit} (valid : Orderly s)
    (moved : step decode s (.dispatchRequest () oom) = some next) : Orderly next := by
  cases held : s.held () with
  | none => simp [step,held] at moved
  | some req =>
    simp only [step,held,Option.some.injEq] at moved
    have ordered := valid.ordered
    simp only [heldHeaders,held] at ordered
    subst moved
    cases oom with
    | true =>
      refine ⟨valid.short,valid.fresh,List.Sublist.trans ?_ ordered⟩
      simp [dispatchRequest,heldHeaders]
    | false =>
      refine ⟨valid.short,valid.fresh,?_⟩
      simpa [dispatchRequest,heldHeaders] using ordered

theorem step_orderly {s next : State Unit} {action : Action Unit} (valid : Orderly s)
    (emptied : PushedOntoEmpty decode s action) (moved : step decode s action = some next) :
    Orderly next := by
  cases action with
  | pushRecord record oom =>
    cases moved
    exact push_orderly decode valid emptied
  | dequeue worker => exact dequeue_orderly decode valid moved
  | dispatchRequest worker oom => exact dispatch_orderly decode valid moved

theorem Orderly.inOrder {s : State Unit} (valid : Orderly s) : InOrder s :=
  (List.sublist_append_left _ _).trans ((List.append_assoc _ _ _ ▸ valid.ordered))

theorem overtaken_not_sublist {passed old : List MsgHeader} {first last : MsgHeader}
    (fresh : last ∉ old) (before : first ∈ old) :
    ¬ (passed ++ [last,first]).Sublist (old ++ [last]) := by
  intro ordered
  have reversed : ([first,last] ++ passed.reverse).Sublist (last :: old.reverse) := by
    simpa using ordered.reverse
  cases reversed with
  | cons _ tail =>
    have present : last ∈ old.reverse := tail.subset (by simp)
    exact fresh (List.mem_reverse.mp present)
  | cons_cons _ tail => exact fresh before

def drain (s : State Unit) : List (Action Unit) :=
  (if (s.held ()).isSome then [.dispatchRequest () false] else []) ++
    [.dequeue (),.dispatchRequest () false,.dequeue (),.dispatchRequest () false]

theorem drain_reverses {s : State Unit} {first : SapSocketRequest}
    (queue : s.dispatchQueue = [first]) (decoded : decode record = some header) :
    ∃ next, run (step decode) s (.pushRecord record false :: drain s) = some next ∧
      next.read = s.read ++ [{header with addr := s.nextAddr}] ∧
      next.onRequest = s.onRequest ++ heldHeaders s ++ [{header with addr := s.nextAddr},first.curr] := by
  cases held : s.held () with
  | none =>
    refine ⟨_,by simp [run,step,drain,pushRecord,decoded,queue,held,enqueue,dequeue,
      dispatchRequest]; rfl,?_,?_⟩
    · simp
    · simp [heldHeaders,held]
  | some req =>
    refine ⟨_,by simp [run,step,drain,pushRecord,decoded,queue,held,enqueue,dequeue,
      dispatchRequest]; rfl,?_,?_⟩
    · simp
    · simp [heldHeaders,held]

-- Ril_queue is last-in first-out. Arrival order survives exactly as long as no
-- record is pushed onto a queue that still holds one.
theorem dispatched_in_arrival_order (id : SocketId) :
    (∀ actions s, Obeys (step decode) (PushedOntoEmpty decode) (initial Unit id) actions →
      run (step decode) (initial Unit id) actions = some s → InOrder s) ∧
    ∀ actions s record, Obeys (step decode) (PushedOntoEmpty decode) (initial Unit id) actions →
      run (step decode) (initial Unit id) actions = some s →
      ¬ PushedOntoEmpty decode s (.pushRecord record false) →
      ∃ rest next, run (step decode) s (.pushRecord record false :: rest) = some next ∧
        ¬ InOrder next := by
  have reached : ∀ actions s, Obeys (step decode) (PushedOntoEmpty decode) (initial Unit id) actions →
      run (step decode) (initial Unit id) actions = some s → Orderly s :=
    fun actions s obeyed ran => obeys_invariant Orderly
      (fun _ _ _ valid emptied moved => step_orderly decode valid emptied moved)
      (initial_orderly id) obeyed ran
  refine ⟨fun actions s obeyed ran => (reached actions s obeyed ran).inOrder,?_⟩
  intro actions s record obeyed ran crowded
  have valid := reached actions s obeyed ran
  simp only [PushedOntoEmpty,Classical.not_imp,forall_const] at crowded
  obtain ⟨decodes,occupied⟩ := crowded
  obtain ⟨header,decoded⟩ := Option.isSome_iff_exists.mp decodes
  obtain ⟨first,queue⟩ : ∃ first, s.dispatchQueue = [first] := by
    have short := valid.short
    have positive := List.length_pos_iff.mpr occupied
    exact List.length_eq_one_iff.mp (by omega)
  obtain ⟨next,drained,read,passed⟩ := drain_reverses decode queue decoded
  refine ⟨drain s,next,drained,?_⟩
  unfold InOrder
  rw [read,passed]
  apply overtaken_not_sublist
  · intro present
    exact Nat.lt_irrefl _ (valid.fresh _ present)
  · exact valid.ordered.subset (by simp [queue])

end Order

-- Stands for pb_decode on records it accepts: the bytes become the payload.
def payloadOnly (record : List UInt8) : Option MsgHeader := some ⟨0,0,0,0,0,record⟩

def alternating : List (Action Unit) :=
  [.pushRecord [1] false,.dequeue (),.pushRecord [2] false,.dispatchRequest () false,
    .dequeue (),.dispatchRequest () false]

theorem alternating_pushes_in_order : ∃ s,
    run (step payloadOnly) (initial Unit .socket1) alternating = some s ∧
    s.onRequest.map (·.payload) = [[1],[2]] ∧ InOrder s := by
  refine ⟨_,rfl,rfl,(dispatched_in_arrival_order payloadOnly .socket1).1 alternating _ ?_ rfl⟩
  simp [alternating,Obeys,PushedOntoEmpty,step,pushRecord,payloadOnly,initial,enqueue,dequeue,
    dispatchRequest]

theorem queued_pair_reversed : ∃ s,
    run (step payloadOnly) (initial Unit .socket1)
      [.pushRecord [1] false,.pushRecord [2] false,.dequeue (),.dispatchRequest () false,
        .dequeue (),.dispatchRequest () false] = some s ∧
    s.read.map (·.payload) = [[1],[2]] ∧ s.onRequest.map (·.payload) = [[2],[1]] ∧ ¬ InOrder s := by
  refine ⟨_,rfl,rfl,rfl,?_⟩
  unfold InOrder
  decide

end SemcMsm7x30.SapQueue

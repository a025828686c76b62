import SemcMsm7x30.Connections
import SemcMsm7x30.Requests

namespace SemcMsm7x30.PendingLists
open PartialMachine Requests Connections

def Listed (b : Build) (s : Ril) : Prop :=
  ∀ hook, ∀ p ∈ s.pendingRequests hook, dequeueHook b.simCount p.socket_id = hook

def Picked (b : Build) (_ : Ril) : SemcMsm7x30.Action → Prop
  | .issueLocal socket_id _ _ => ∃ sim_id, socket_id = debugSocket b.simCount sim_id
  | _ => True

def Agrees (b : Build) (_ : Ril) : SemcMsm7x30.Action → Prop
  | .issueLocal socket_id _ _ => b.simCount ≤ 2 ∨ socket_id = .socket1
  | _ => True

def Keeps (s next : Ril) : Prop :=
  ∀ hook, ∀ p ∈ next.pendingRequests hook, ∃ old ∈ s.pendingRequests hook,
    old.socket_id = p.socket_id

section Kept
variable {b : Build} {writes : Writes} {s middle next : Ril}

theorem keeps_of_eq (pending : next.pendingRequests = s.pendingRequests) : Keeps s next := by
  intro hook p present
  rw [pending] at present
  exact ⟨p,present,rfl⟩

theorem Keeps.trans (one : Keeps s middle) (two : Keeps middle next) : Keeps s next := by
  intro hook p present
  obtain ⟨old,listed,same⟩ := two hook p present
  obtain ⟨older,before,equal⟩ := one hook old listed
  exact ⟨older,before,equal.trans same⟩

theorem Keeps.listed (kept : Keeps s next) (listed : Listed b s) : Listed b next := by
  intro hook p present
  obtain ⟨old,before,same⟩ := kept hook p present
  rw [← same]
  exact listed hook old before

theorem keeps_admits : Admits Keeps where
  refl := fun _ => keeps_of_eq rfl
  trans := Keeps.trans
  wake := fun _ _ _ _ _ => keeps_of_eq rfl
  cached := fun _ _ _ _ => keeps_of_eq rfl
  sent := fun _ _ _ _ _ => keeps_of_eq rfl

theorem deliver_keeps (code : Int) (data : List UInt8) (socket_id : SocketId) :
    Keeps s (deliverUnsol b writes s code data socket_id) := by
  apply keeps_of_eq
  unfold deliverUnsol
  split
  · simp only [receiveNitz]
    split <;> rfl
  · rfl

theorem onUnsolicited_keeps {now : Int} {state : RadioState} {socket_id : SocketId} (code : Int)
    (data : UnsolData) (s : Ril) :
    Keeps s (RIL_onUnsolicitedResponse b writes now state s code data socket_id) :=
  unsolicited_admitted keeps_admits (fun s => processRadioState_admitted keeps_admits s) s
    fun _ _ _ _ _ => deliver_keeps _ _ _

theorem flush_keeps {socket_id : SocketId} (s : Ril) : Keeps s (flushNitz b writes s socket_id) := by
  apply keeps_of_eq
  unfold flushNitz
  split <;> rfl

theorem connect_keeps {now : Int} {state : RadioState} {socket_id : SocketId} (s : Ril) :
    Keeps s (onNewCommandConnect b writes now state s socket_id) := by
  exact ((onUnsolicited_keeps _ _ s).trans (onUnsolicited_keeps _ _ _)).trans (flush_keeps _)

theorem complete_pending {addr : Nat} {e : Int} {response : Response} :
    (RIL_onRequestComplete b writes s addr e response).pendingRequests =
      ((checkAndDequeueRequestInfo b s addr).map (·.2.pendingRequests)).getD s.pendingRequests := by
  have same : searchedList b {s with completions := s.completions ++ [addr]} addr =
      searchedList b s addr := rfl
  unfold RIL_onRequestComplete checkAndDequeueRequestInfo
  simp only [same]
  cases (s.pendingRequests (searchedList b s addr)).find? (·.addr = addr) with
  | none => rfl
  | some pRI =>
    simp only
    split
    · rfl
    · split <;> rfl

theorem keeps_admitsCalls : AdmitsCalls Keeps where
  refl := fun _ => keeps_of_eq rfl
  trans := Keeps.trans
  noted := fun _ _ _ => keeps_of_eq rfl
  cached := fun _ _ _ => keeps_of_eq rfl
  taken := fun _ _ _ _ p present => ⟨p,without_mem present,rfl⟩
  replied := fun _ _ _ _ _ => keeps_of_eq rfl

end Kept

section Steps
variable {b : Build} {s next : Ril}

theorem enqueue_listed {hook : SocketId} {pRI : RequestInfo} (listed : Listed b s)
    (agrees : dequeueHook b.simCount pRI.socket_id = hook) : Listed b (enqueue s hook pRI) := by
  intro other p present
  rcases enqueue_mem present with ⟨rfl,rfl⟩ | before
  · exact agrees
  · exact listed other p before

theorem command_listed {writes : Writes} {state : RadioState} {buffer : List UInt8}
    {socket_id : SocketId} (listed : Listed b s)
    (moved : processCommandBuffer b writes state s buffer socket_id = some next) : Listed b next := by
  rcases command_cases moved with rfl | ⟨token,rfl⟩ | ⟨token,pCI,calls,ran⟩
  · exact listed
  · exact (keeps_of_eq rfl).listed listed
  · apply Keeps.listed (calls_admitted keeps_admitsCalls ran)
    exact enqueue_listed listed (dequeueHook_eq _ _)

-- The one place where the two sides choose the list by different conditions.
theorem local_hook {socket_id : SocketId} (agrees : b.simCount ≤ 2 ∨ socket_id = .socket1) :
    dequeueHook b.simCount socket_id =
      if b.simCount = 2 ∧ socket_id = .socket2 then .socket2 else .socket1 := by
  rw [dequeueHook_eq]
  cases socket_id with
  | socket1 => simp [socketHook]
  | socket2 =>
    have small := agrees.resolve_right (by simp)
    have exactly : (2 ≤ b.simCount) = (b.simCount = 2) := by
      apply propext
      omega
    simp [socketHook,exactly]
  | socket3 =>
    have small := agrees.resolve_right (by simp)
    simp [socketHook,show ¬ 3 ≤ b.simCount by omega]
  | socket4 =>
    have small := agrees.resolve_right (by simp)
    simp [socketHook,show ¬ 4 ≤ b.simCount by omega]

theorem step_listed (s : Ril) (action : SemcMsm7x30.Action) (next : Ril) (listed : Listed b s)
    (agrees : Agrees b s action) (moved : SemcMsm7x30.step b s action = some next) :
    Listed b next := by
  cases action with
  | command socket_id buffer state writes => exact command_listed listed moved
  | issueLocal socket_id request data =>
    simp only [SemcMsm7x30.step,issueLocalRequest] at moved
    split at moved
    · cases moved
    · cases moved
      apply (keeps_of_eq rfl).listed
      exact enqueue_listed listed (local_hook agrees)
  | complete addr e response writes =>
    cases moved
    exact Keeps.listed (complete_admitted keeps_admitsCalls s _ _ _) listed
  | connect socket_id state now writes =>
    cases moved
    exact (connect_keeps _).listed listed
  | disconnect socket_id =>
    cases moved
    intro hook p present
    obtain ⟨old,before,same⟩ := sweep_mem present
    rcases same with rfl | rfl
    · exact listed hook p before
    · exact listed hook old before
  | unsolicited socket_id code data state now writes =>
    cases moved
    exact (onUnsolicited_keeps code data s).listed listed

theorem deref_listed {hook : SocketId} {p : RequestInfo} (orderly : Orderly b s)
    (present : p ∈ s.pendingRequests hook) : deref s p.addr = some p := by
  have somewhere : ∀ q, q ∈ s.pendingRequests .socket1 ++ s.pendingRequests .socket2 ++
      s.pendingRequests .socket3 ++ s.pendingRequests .socket4 ↔ ∃ hook, q ∈ s.pendingRequests hook := by
    intro q
    simp only [List.mem_append]
    constructor
    · rintro (((one | two) | three) | four)
      · exact ⟨_,one⟩
      · exact ⟨_,two⟩
      · exact ⟨_,three⟩
      · exact ⟨_,four⟩
    · intro ⟨hook,listed⟩
      cases hook <;> simp [listed]
  cases found : deref s p.addr with
  | none =>
    have absent := List.find?_eq_none.mp found p ((somewhere p).mpr ⟨hook,present⟩)
    exact absurd absent (by simp)
  | some q =>
    obtain ⟨place,listed⟩ := (somewhere q).mp (List.mem_of_find?_eq_some found)
    have same : q.addr = p.addr := by simpa using List.find?_some found
    have here := orderly.apart place hook q listed p present same
    subst here
    rw [List.inj_on_of_nodup_map (orderly.nodup place) listed present same]

theorem dequeue_listed {hook : SocketId} {p : RequestInfo} (orderly : Orderly b s)
    (listed : Listed b s) (present : p ∈ s.pendingRequests hook) :
    checkAndDequeueRequestInfo b s p.addr = some (p,without s hook p.addr) := by
  have searched : searchedList b s p.addr = hook := by
    simp only [searchedList,deref_listed orderly present,Option.map_some,Option.getD_some]
    exact listed hook p present
  have found : (s.pendingRequests hook).find? (·.addr = p.addr) = some p := by
    cases first : (s.pendingRequests hook).find? (·.addr = p.addr) with
    | none =>
      have absent := List.find?_eq_none.mp first p present
      exact absurd absent (by simp)
    | some q =>
      have same : q.addr = p.addr := by simpa using List.find?_some first
      rw [List.inj_on_of_nodup_map (orderly.nodup hook) (List.mem_of_find?_eq_some first) present same]
  simp only [checkAndDequeueRequestInfo,searched,found]
  rfl

end Steps

theorem completions_find_requests {b : Build} {actions : List SemcMsm7x30.Action} {s : Ril}
    (agrees : Obeys (SemcMsm7x30.step b) (Agrees b) .initial actions)
    (ran : run (SemcMsm7x30.step b) .initial actions = some s) :
    Listed b s ∧ ∀ hook, ∀ p ∈ s.pendingRequests hook,
      (∃ left, checkAndDequeueRequestInfo b s p.addr = some (p,left)) ∧
      ∀ writes e response other, ∀ q ∈
        (RIL_onRequestComplete b writes s p.addr e response).pendingRequests other,
        q.addr ≠ p.addr := by
  have orderly := run_orderly ran
  have listed : Listed b s := by
    apply obeys_invariant (Listed b) step_listed _ agrees ran
    intro hook p present
    cases present
  refine ⟨listed,fun hook p present => ?_⟩
  have dequeued := dequeue_listed orderly listed present
  refine ⟨⟨_,dequeued⟩,?_⟩
  intro writes e response other q left
  rw [complete_pending,dequeued] at left
  exact without_ne orderly present left

theorem completions_find_requests_reset :
    ∃ s, run (SemcMsm7x30.step (asciiBuild 2)) .initial [.issueLocal .socket2 58 .null] = some s ∧
      s.pendingRequests .socket2 ≠ [] ∧ ∀ p ∈ s.pendingRequests .socket2, ∀ q ∈
        (RIL_onRequestComplete (asciiBuild 2) (fun _ => true) s p.addr 0 .null).pendingRequests
          .socket2, q.addr ≠ p.addr := by
  have agrees : Obeys (SemcMsm7x30.step (asciiBuild 2)) (Agrees (asciiBuild 2)) .initial
      [.issueLocal .socket2 58 .null] := obeys_step rfl (.inl (Nat.le_refl 2)) trivial
  refine ⟨_,rfl,List.cons_ne_nil _ _,fun p present => ?_⟩
  exact ((completions_find_requests agrees rfl).2 .socket2 p present).2 _ _ _ _

-- With three SIMs the request is put into the first list and looked for in the second.
theorem local_request_lost :
    Obeys (SemcMsm7x30.step (asciiBuild 3)) (Picked (asciiBuild 3)) .initial
      [.issueLocal .socket2 58 .null] ∧
    ∃ s, run (SemcMsm7x30.step (asciiBuild 3)) .initial [.issueLocal .socket2 58 .null] = some s ∧
      ∃ p ∈ s.pendingRequests .socket1, p ∉ s.pendingRequests (dequeueHook 3 p.socket_id) ∧
        ∀ writes e response,
          p ∈ (RIL_onRequestComplete (asciiBuild 3) writes s p.addr e response).pendingRequests
            .socket1 := by
  refine ⟨obeys_step rfl ⟨1,rfl⟩ trivial,_,rfl,_,List.mem_singleton_self _,List.not_mem_nil,?_⟩
  intro writes e response
  rw [complete_pending]
  exact List.mem_singleton_self _

end SemcMsm7x30.PendingLists

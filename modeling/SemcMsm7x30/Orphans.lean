import SemcMsm7x30.MalformedPayload
import SemcMsm7x30.Ril

namespace SemcMsm7x30.Orphans
open PartialMachine

def Answered (s next : Ril) : Prop :=
  ((next.calls.drop s.calls.length).filter (·.addr = s.nextAddr)).length = 1 ∨
  s.nextAddr ∈ next.completions.drop s.completions.length

def Pending (s : Ril) (addr : Nat) : Prop := ∃ hook, ∃ p ∈ s.pendingRequests hook, p.addr = addr

def vendorCall (pRI : RequestInfo) : Call → Option VendorCall
  | .onRequest data => some ⟨pRI.addr,pRI.pCI.requestNumber,data,pRI.socket_id⟩
  | _ => none

def completion (pRI : RequestInfo) : Call → Option Nat
  | .onRequestComplete _ _ => some pRI.addr
  | _ => none

section Calls
variable {b : Build} {writes : Writes} {pRI : RequestInfo} {s next : Ril}

theorem complete_history (b : Build) (writes : Writes) (s : Ril) (addr : Nat) (e : Int)
    (response : Response) :
    (RIL_onRequestComplete b writes s addr e response).calls = s.calls ∧
    (RIL_onRequestComplete b writes s addr e response).completions = s.completions ++ [addr] := by
  simp only [RIL_onRequestComplete,checkAndDequeueRequestInfo]
  split
  · exact ⟨rfl,rfl⟩
  · rename_i found
    split at found
    · cases found
    · cases found
      split
      · exact ⟨rfl,rfl⟩
      · split <;> exact ⟨rfl,rfl⟩

theorem runCall_history {call : Call} (moved : runCall b writes pRI s call = some next) :
    call ≠ .fault ∧ next.calls = s.calls ++ (vendorCall pRI call).toList ∧
      next.completions = s.completions ++ (completion pRI call).toList := by
  cases call with
  | onRequestComplete e response =>
    cases moved
    obtain ⟨calls,completions⟩ := complete_history b writes s pRI.addr e response
    exact ⟨by simp,by simpa [vendorCall] using calls,completions⟩
  | fault => cases moved
  | onRequest data =>
    cases moved
    exact ⟨by simp,rfl,by simp [completion]⟩
  | setVoiceRadioTech value | setCdmaSubscriptionSource value | invalidCommandBlock =>
    cases moved
    exact ⟨by simp,by simp [vendorCall],by simp [completion]⟩

theorem runCalls_history {calls : List Call} (ran : runCalls b writes pRI s calls = some next) :
    .fault ∉ calls ∧ next.calls = s.calls ++ calls.filterMap (vendorCall pRI) ∧
      next.completions = s.completions ++ calls.filterMap (completion pRI) := by
  induction calls generalizing s with
  | nil =>
    cases ran
    simp
  | cons call rest ih =>
    obtain ⟨middle,moved,tail⟩ := run_cons ran
    obtain ⟨sound,calls,completions⟩ := runCall_history moved
    obtain ⟨restSound,restCalls,restCompletions⟩ := ih tail
    refine ⟨by simp [Ne.symm sound,restSound],?_,?_⟩
    · rw [restCalls,calls]
      cases seen : vendorCall pRI call <;> simp [seen]
    · rw [restCompletions,completions]
      cases seen : completion pRI call <;> simp [seen]

theorem dropped_history (pRI : RequestInfo) {calls : List Call} (dropped : Dropped calls) :
    calls.filterMap (vendorCall pRI) = [] ∧ calls.filterMap (completion pRI) = [] := by
  constructor <;> apply List.filterMap_eq_nil_iff.mpr <;> intro call present <;>
    rw [dropped call present] <;> rfl

theorem settled_history (pRI : RequestInfo) {calls : List Call} (settled : Settled calls) :
    (∃ call, calls.filterMap (vendorCall pRI) = [call] ∧ call.addr = pRI.addr) ∨
    pRI.addr ∈ calls.filterMap (completion pRI) := by
  rcases settled with ⟨data,rfl⟩ | ⟨⟨e,response,present⟩,_⟩
  · exact .inl ⟨_,rfl,rfl⟩
  · exact .inr (List.mem_filterMap.mpr ⟨_,present,rfl⟩)

end Calls

theorem readHeader_inside {buffer : List UInt8} {request token : Int} {p : Parcel}
    (read : readHeader buffer = some (request,token,p)) : p.pos ≤ p.data.length := by
  unfold readHeader at read
  by_cases first : 4 ≤ (Parcel.setData buffer).avail
  · simp only [readInt32_some first] at read
    by_cases second : 4 ≤ ((Parcel.setData buffer).skip 4).avail
    · simp only [readInt32_some second,Option.some.injEq,Prod.mk.injEq] at read
      obtain ⟨_,_,rfl⟩ := read
      simp only [Parcel.avail,Parcel.setData,Parcel.skip] at second ⊢
      omega
    · simp only [readInt32_none (Nat.not_le.mp second)] at read
      cases read
  · simp only [readInt32_none (Nat.not_le.mp first)] at read
    cases read

theorem processCommandBuffer_calls {b : Build} {writes : Writes} {state : RadioState} {s next : Ril}
    {buffer : List UInt8} {socket_id : SocketId} {request token : Int} {p : Parcel}
    {pCI : CommandInfo} {f : DispatchFunction} (read : readHeader buffer = some (request,token,p))
    (row : lookupCommand request = some pCI) (function : pCI.dispatchFunction = some f)
    (returned : processCommandBuffer b writes state s buffer socket_id = some next) :
    runCalls b writes (newRequest s token pCI socket_id)
      (enqueue s (socketHook b.simCount socket_id) (newRequest s token pCI socket_id))
      (dispatch b.platform state p f) = some next := by
  simpa only [processCommandBuffer,read,row,function] using returned

-- A call that returns has taken care of the new request exactly when its
-- dispatch function accepts the payload.
theorem answered_iff_wellformed (b : Build) (writes : Writes) (state : RadioState) (s next : Ril)
    (buffer : List UInt8) (socket_id : SocketId) (request token : Int) (p : Parcel)
    (pCI : CommandInfo) (read : readHeader buffer = some (request,token,p))
    (supported : lookupCommand request = some pCI)
    (returned : processCommandBuffer b writes state s buffer socket_id = some next) :
    ∃ f, pCI.dispatchFunction = some f ∧ (Answered s next ↔ ¬ Malformed p f) := by
  obtain ⟨f,_,function,_⟩ := commands_dispatch supported
  refine ⟨f,function,?_⟩
  have ran := processCommandBuffer_calls read supported function returned
  obtain ⟨sound,calls,completions⟩ := runCalls_history ran
  have follows := dispatch_follows b.platform p state (readHeader_inside read) f sound
  simp only [enqueue] at calls completions
  by_cases bad : Malformed p f
  · obtain ⟨noCalls,noCompletions⟩ := dropped_history (newRequest s token pCI socket_id)
      (follows.1 bad)
    simp [Answered,calls,completions,noCalls,noCompletions,bad]
  · have settled := settled_history (newRequest s token pCI socket_id) (follows.2 bad)
    refine ⟨fun _ => bad,fun _ => ?_⟩
    rcases settled with ⟨call,single,same⟩ | completed
    · left
      rw [calls,single,List.drop_left]
      simp [same,newRequest]
    · right
      rw [completions,List.drop_left]
      exact completed

theorem radio_power_answered :
    ∃ next, processCommandBuffer (asciiBuild 1) (fun _ => true) .on .initial
        (Parcel.le32 23 ++ Parcel.le32 7 ++ Parcel.le32 1 ++ Parcel.le32 1) .socket1 = some next ∧
      Answered .initial next := by
  refine ⟨_,rfl,?_⟩
  obtain ⟨f,function,answered⟩ := answered_iff_wellformed (asciiBuild 1) (fun _ => true) .on .initial
    _ (Parcel.le32 23 ++ Parcel.le32 7 ++ Parcel.le32 1 ++ Parcel.le32 1) .socket1 23 7
    ⟨Parcel.le32 23 ++ Parcel.le32 7 ++ Parcel.le32 1 ++ Parcel.le32 1,8⟩
    (command 23 .dispatchInts .responseVoid) rfl rfl rfl
  cases function
  rw [answered]
  simp [Malformed]
  decide

-- The same request with an empty int array: it stays in the list, the vendor
-- does not know it and the client hears nothing.
theorem radio_power_orphaned :
    ∃ next, processCommandBuffer (asciiBuild 1) (fun _ => true) .on
        {Ril.initial with connected := fun _ => true}
        (Parcel.le32 23 ++ Parcel.le32 7 ++ Parcel.le32 0) .socket1 = some next ∧
      ¬ Answered {Ril.initial with connected := fun _ => true} next ∧ Pending next 0 ∧
      next.sent = [] := by
  refine ⟨_,rfl,?_,?_,rfl⟩
  · unfold Answered
    decide
  · exact ⟨.socket1,_,List.mem_singleton.mpr rfl,rfl⟩

end SemcMsm7x30.Orphans

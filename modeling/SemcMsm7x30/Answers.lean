import SemcMsm7x30.Responses

namespace SemcMsm7x30.Answers
open Responses (Memory Layout Marshalled completionResponse responseFunction supported_runs
  responseFunction_runs replyFrame_null replyFrame_whole replyFrame_failed complete_appends
  threeInts words32 asciiString)

-- The frames that went out whole between the two states.
def written (s next : Ril) : List Sent := (next.sent.drop s.sent.length).filter (·.ok)

def Answered (s next : Ril) (pRI : RequestInfo) : Prop :=
  ∃ frame rest, written s next = [frame] ∧ frame.socket_id = pRI.socket_id ∧
    frame.data = Parcel.le32 RESPONSE_SOLICITED ++ Parcel.le32 pRI.token ++ rest

section Frames
variable {b : Build} {writes : Writes} {s next : Ril} {addr : Nat} {pRI : RequestInfo} {e : Int}

theorem replyFrame_vendor (b : Build) (token e : Int) (payload : List UInt8) (ret : Int) :
    ∃ code, replyFrame b token e (.vendor payload ret) = threeInts token code ++ payload := by
  by_cases zero : ret = 0
  · subst zero
    exact ⟨e,replyFrame_whole b token e payload⟩
  · exact ⟨ret,replyFrame_failed b token e payload zero⟩

theorem written_complete (dequeued : checkAndDequeueRequestInfo b s addr = some (pRI,next))
    (own : pRI.isLocal = false) (live : pRI.cancelled = false)
    (opened : s.connected (socketHook b.simCount pRI.socket_id) = true)
    (succeed : ∀ code, writes code = true) (response : Response) :
    written s (RIL_onRequestComplete b writes s addr e response) =
      if (replyFrame b pRI.token e response).length ≤ MAX_COMMAND_BYTES then
        [⟨pRI.socket_id,replyFrame b pRI.token e response,.reply addr,true⟩]
      else [] := by
  unfold written
  rw [complete_appends b writes dequeued own live,List.drop_left]
  split
  · rename_i fits
    simp [opened,fits,succeed]
  · rename_i large
    simp [large]

theorem answered_iff (dequeued : checkAndDequeueRequestInfo b s addr = some (pRI,next))
    (own : pRI.isLocal = false) (live : pRI.cancelled = false)
    (opened : s.connected (socketHook b.simCount pRI.socket_id) = true)
    (succeed : ∀ code, writes code = true) {response : Response} {code : Int}
    {payload : List UInt8}
    (frame : replyFrame b pRI.token e response = threeInts pRI.token code ++ payload) :
    Answered s (RIL_onRequestComplete b writes s addr e response) pRI ↔
      12+payload.length ≤ MAX_COMMAND_BYTES := by
  have length : (replyFrame b pRI.token e response).length = 12+payload.length := by
    rw [frame,List.length_append]
    rfl
  unfold Answered
  rw [written_complete dequeued own live opened succeed,length]
  constructor
  · rintro ⟨sent,rest,only,_⟩
    by_contra large
    rw [if_neg large] at only
    cases only
  · intro fits
    refine ⟨_,Parcel.le32 code ++ payload,if_pos fits,rfl,?_⟩
    rw [frame,threeInts]
    simp only [List.append_assoc]

end Frames

def payloadLength {Text : Type} (run : Memory Text → Option Marshalled)
    (response : Option (Memory Text)) : Nat :=
  ((response.bind run).map fun result => result.1.length).getD 0

section Replies
variable {Text : Type}

theorem completions_answered (b : Build) (writes : Writes) (layout : Layout)
    (writeString : Option Text → List UInt8) {s next : Ril} {addr : Nat} {pRI : RequestInfo}
    {request : Int} (dequeued : checkAndDequeueRequestInfo b s addr = some (pRI,next))
    (supported : lookupCommand request = some pRI.pCI) (own : pRI.isLocal = false)
    (live : pRI.cancelled = false)
    (opened : s.connected (socketHook b.simCount pRI.socket_id) = true)
    (succeed : ∀ code, writes code = true) (e : Int) (response : Option (Memory Text))
    (responselen : UInt32) :
    ∃ function completed, pRI.pCI.responseFunction = some function ∧
      completionResponse layout RIL_VERSION_V3 writeString pRI.pCI response responselen =
        some completed ∧
      (Answered s (RIL_onRequestComplete b writes s addr e completed) pRI ↔
        12+payloadLength (fun memory =>
          responseFunction layout RIL_VERSION_V3 writeString memory responselen function) response ≤
          MAX_COMMAND_BYTES) := by
  obtain ⟨function,present,solicited⟩ := supported_runs supported
  cases response with
  | none =>
    refine ⟨function,.null,present,rfl,?_⟩
    have frame : replyFrame b pRI.token e .null = threeInts pRI.token e ++ [] := by
      rw [replyFrame_null,List.append_nil]
    exact answered_iff dequeued own live opened succeed frame
  | some memory =>
    obtain ⟨⟨payload,ret⟩,ran⟩ :=
      responseFunction_runs layout writeString RIL_VERSION_V3 memory responselen solicited
    refine ⟨function,.vendor payload ret,present,by simp [completionResponse,present,ran],?_⟩
    obtain ⟨code,frame⟩ := replyFrame_vendor b pRI.token e payload ret
    simp only [payloadLength,Option.bind_some,ran,Option.map_some,Option.getD_some]
    exact answered_iff dequeued own live opened succeed frame

end Replies

theorem responseRaw_length {Text : Type} (memory : Memory Text) {responselen : UInt32}
    (small : responselen.toNat ≤ Parcel.INT32_MAX) :
    (Responses.responseRaw (some memory) responselen).1.length =
      4+Parcel.pad responselen.toNat := by
  have wide : responselen.toNat ≤ Parcel.pad responselen.toNat := by
    unfold Parcel.pad
    omega
  simp only [Responses.responseRaw,Responses.writeSize,Responses.writeBlock,if_pos small,
    List.length_append,Parcel.le32_length,List.length_map,List.length_range,List.length_replicate]
  omega

-- RIL_REQUEST_OEM_HOOK_RAW
def rawRequest : RequestInfo := ⟨0,7,command 59 .dispatchRaw .responseRaw,false,false,.socket1⟩

def rawPending : Ril :=
  {enqueue Ril.initial .socket1 rawRequest with connected := fun _ => true}

theorem rawPending_dequeued :
    ∃ next, checkAndDequeueRequestInfo (asciiBuild 1) rawPending 0 = some (rawRequest,next) := ⟨_,rfl⟩

theorem completions_answered_short :
    ∃ completed, completionResponse words32 RIL_VERSION_V3 asciiString rawRequest.pCI
        (some default) 16 = some completed ∧
      Answered rawPending
        (RIL_onRequestComplete (asciiBuild 1) (fun _ => true) rawPending 0 0 completed)
        rawRequest := by
  obtain ⟨next,dequeued⟩ := rawPending_dequeued
  obtain ⟨function,completed,present,found,answered⟩ := completions_answered (asciiBuild 1)
    (fun _ => true) words32 asciiString dequeued (rfl : lookupCommand 59 = some rawRequest.pCI)
    rfl rfl rfl (fun _ => rfl) 0 (some default) 16
  refine ⟨completed,found,answered.mpr ?_⟩
  cases present
  decide

-- The client waits for ever: the frame of 8208 bytes is turned down by
-- sendResponseRaw and nobody looks at what it returns.
theorem large_reply_unsent :
    (∃ next, checkAndDequeueRequestInfo (asciiBuild 1) rawPending 0 = some (rawRequest,next)) ∧
    (rawRequest.isLocal = false ∧ rawRequest.cancelled = false ∧
      rawPending.connected (socketHook 1 rawRequest.socket_id) = true) ∧
    ∃ completed, completionResponse words32 RIL_VERSION_V3 asciiString rawRequest.pCI
        (some default) 8192 = some completed ∧
      written rawPending
        (RIL_onRequestComplete (asciiBuild 1) (fun _ => true) rawPending 0 0 completed) = [] := by
  obtain ⟨next,dequeued⟩ := rawPending_dequeued
  refine ⟨⟨next,dequeued⟩,⟨rfl,rfl,rfl⟩,
    .vendor (Responses.responseRaw (some (default : Memory (List UInt8))) 8192).1 0,rfl,?_⟩
  have size := responseRaw_length (default : Memory (List UInt8))
    (by decide : (8192 : UInt32).toNat ≤ Parcel.INT32_MAX)
  rw [written_complete dequeued rfl rfl rfl (fun _ => rfl),replyFrame_whole,if_neg]
  rw [List.length_append,size]
  decide

end SemcMsm7x30.Answers

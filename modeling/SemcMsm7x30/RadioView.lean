import SemcMsm7x30.Ril

namespace SemcMsm7x30.RadioView
open PartialMachine

def told (b : Build) (requests : List RequestInfo) (socket_id : SocketId) (code request : Int)
    (f : Sent) : Option Int :=
  let p : Parcel := ⟨f.data,0⟩
  if f.ok = true ∧ socketHook b.simCount f.socket_id = socketHook b.simCount socket_id then
    if p.int32At 0 = RESPONSE_UNSOLICITED ∧ p.int32At 4 = code then some (p.int32At 12)
    else
      match f.origin with
      | .reply addr =>
        if (∃ r ∈ requests, r.addr = addr ∧ r.pCI.requestNumber = request) ∧
            p.int32At 8 = RIL_E_SUCCESS then some (p.int32At 16)
        else none
      | _ => none
  else none

def view (value : Sent → Option Int) (sent : List Sent) : Option Int :=
  sent.foldl (fun last f => (value f).or last) none

def voiceView (b : Build) (s : Ril) (socket_id : SocketId) : Option Int :=
  view (told b s.requests socket_id RIL_UNSOL_VOICE_RADIO_TECH_CHANGED
    RIL_REQUEST_VOICE_RADIO_TECH_V3) s.sent

def sourceView (b : Build) (s : Ril) (socket_id : SocketId) : Option Int :=
  view (told b s.requests socket_id RIL_UNSOL_CDMA_SUBSCRIPTION_SOURCE_CHANGED
    RIL_REQUEST_CDMA_GET_SUBSCRIPTION_SOURCE_V3) s.sent

def Right (b : Build) (s : Ril) (socket_id : SocketId) (state : RadioState) : Prop :=
  voiceView b s socket_id = some (decodeVoiceRadioTechnology state) ∧
  (is3gpp2 (decodeVoiceRadioTechnology state) = true →
    sourceView b s socket_id = some (decodeCdmaSubscriptionSource state))

-- The client believes it already, and no subscription source change is raised.
def Settled (b : Build) (s : Ril) (socket_id : SocketId) (state : RadioState) : Prop :=
  Right b s socket_id state ∧ (is3gpp2 (decodeVoiceRadioTechnology state) = true →
    s.cdmaSubscriptionSource = decodeCdmaSubscriptionSource state)

theorem view_append (value : Sent → Option Int) (sent : List Sent) (f : Sent) :
    view value (sent ++ [f]) = (value f).or (view value sent) := by
  simp [view]

section Report
variable {b : Build} {socket_id : SocketId} {now : Int}

def allSucceed : Writes := fun _ => true

def frame (socket_id : SocketId) (code : Int) (payload extra : List UInt8) : Sent :=
  ⟨socket_id,unsolFrame code payload extra,.unsolicited code,true⟩

theorem send_ok {s : Ril} {code : Int} {data : List UInt8} {origin : Origin}
    (connected : s.connected (socketHook b.simCount socket_id) = true)
    (short : data.length ≤ MAX_COMMAND_BYTES) :
    (sendResponse b allSucceed s code data socket_id origin).1 =
      {s with sent := s.sent ++ [⟨socket_id,data,origin,true⟩]} := by
  simp [sendResponse,connected,short,allSucceed]

structure Sends (extra : List Sent) (s next : Ril) : Prop where
  sent : next.sent = s.sent ++ extra
  connected : next.connected = s.connected
  requests : next.requests = s.requests

theorem sends_none (s : Ril) : Sends [] s s := ⟨by simp,rfl,rfl⟩

theorem Sends.trans {first second : List Sent} {s middle next : Ril} (one : Sends first s middle)
    (two : Sends second middle next) : Sends (first ++ second) s next :=
  ⟨by rw [two.sent,one.sent,List.append_assoc],two.connected.trans one.connected,
    two.requests.trans one.requests⟩

theorem unsolicited_frame (b : Build) (radio : Ril → Ril × List UInt8) (now : Int) (s : Ril)
    (socket_id : SocketId) (code : Int) (data : UnsolData) {code' : Int} {payload : List UInt8}
    {info : UnsolResponseInfo} {extra : List Sent}
    (entry : unsolEntry code = some (code',info)) (wakes : info.wakeType = .WAKE_PARTIAL)
    (marshalled : unsolPayload info.responseFunction data = (payload,0))
    (notNitz : code' ≠ RIL_UNSOL_NITZ_TIME_RECEIVED)
    (inner : Sends extra {s with wakeLockHeld := true}
      (morePayload radio now code' {s with wakeLockHeld := true}).1)
    (connected : s.connected (socketHook b.simCount socket_id) = true)
    (short : (unsolFrame code' payload
      (morePayload radio now code' {s with wakeLockHeld := true}).2).length ≤ MAX_COMMAND_BYTES) :
    Sends (extra ++ [frame socket_id code' payload
        (morePayload radio now code' {s with wakeLockHeld := true}).2]) s
      (unsolicitedWith b radio allSucceed now s code data socket_id) := by
  have still : (morePayload radio now code' {s with wakeLockHeld := true}).1.connected
      (socketHook b.simCount socket_id) = true := by
    rw [inner.connected]
    exact connected
  simp only [unsolicitedWith,entry,marshalled,ne_eq,not_true,if_false,grabFor,scheduleFor,wakes,
    if_true,deliverUnsol,notNitz,send_ok still short]
  exact ⟨by simp [scheduleWakeTimeout,inner.sent,frame],inner.connected,inner.requests⟩

theorem notify_frame (b : Build) (now : Int) (s : Ril) (socket_id : SocketId) (code : Int)
    (data : UnsolData) {code' : Int} {payload : List UInt8} {info : UnsolResponseInfo}
    (entry : unsolEntry code = some (code',info))
    (wakes : info.wakeType = .WAKE_PARTIAL)
    (marshalled : unsolPayload info.responseFunction data = (payload,0))
    (plain : code' ≠ RIL_UNSOL_RESPONSE_RADIO_STATE_CHANGED)
    (notNitz : code' ≠ RIL_UNSOL_NITZ_TIME_RECEIVED)
    (connected : s.connected (socketHook b.simCount socket_id) = true)
    (short : (unsolFrame code' payload []).length ≤ MAX_COMMAND_BYTES) :
    Sends [frame socket_id code' payload []] s
      (notify b allSucceed now s code data socket_id) := by
  have more : ∀ s, morePayload (fun s => (s,[])) now code' s = (s,[]) := by
    intro s
    simp only [morePayload,if_neg plain,if_neg notNitz]
  have quiet : Sends [] {s with wakeLockHeld := true}
      (morePayload (fun s => (s,[])) now code' {s with wakeLockHeld := true}).1 := by
    rw [more]
    exact ⟨by simp,rfl,rfl⟩
  have sent := unsolicited_frame b (fun s => (s,[])) now s socket_id code data entry wakes marshalled
    notNitz quiet connected (by rw [more]; exact short)
  rw [more] at sent
  exact sent

theorem intFrame_short (code value : Int) :
    (unsolFrame code (responseInts [value]) []).length ≤ MAX_COMMAND_BYTES := by
  simp [unsolFrame,responseInts,MAX_COMMAND_BYTES]

def voiceFrames (s : Ril) (socket_id : SocketId) (state : RadioState) : List Sent :=
  if decodeVoiceRadioTechnology state ≠ s.voiceRadioTech then
    [frame socket_id RIL_UNSOL_CDMA_PRL_CHANGED
      (responseInts [decodeVoiceRadioTechnology state]) []]
  else []

def sourceFrames (s : Ril) (socket_id : SocketId) (state : RadioState) : List Sent :=
  if is3gpp2 (decodeVoiceRadioTechnology state) ∧
      decodeCdmaSubscriptionSource state ≠ s.cdmaSubscriptionSource then
    [frame socket_id RIL_UNSOL_VOICE_RADIO_TECH_CHANGED
      (responseInts [decodeCdmaSubscriptionSource state]) []]
  else []

def simFrames (s : Ril) (socket_id : SocketId) (state : RadioState) : List Sent :=
  if decodeSimStatus state ≠ s.simRuimStatus then
    [frame socket_id RIL_UNSOL_RESPONSE_SIM_STATUS_CHANGED [] []]
  else []

theorem voice_sends (b : Build) (now : Int) {s : Ril} (state : RadioState)
    (connected : s.connected (socketHook b.simCount socket_id) = true) :
    Sends (voiceFrames s socket_id state) s
      (notifyVoice b allSucceed now state socket_id s) := by
  simp only [notifyVoice,voiceFrames]
  split
  · have sent := notify_frame b now {s with voiceRadioTech := decodeVoiceRadioTechnology state}
      socket_id RIL_UNSOL_VOICE_RADIO_TECH_CHANGED (.int (decodeVoiceRadioTechnology state))
      rfl rfl rfl (by decide) (by decide) connected (intFrame_short _ _)
    exact ⟨sent.sent,sent.connected,sent.requests⟩
  · exact sends_none s

theorem source_sends (b : Build) (now : Int) {s : Ril} (state : RadioState)
    (connected : s.connected (socketHook b.simCount socket_id) = true) :
    Sends (sourceFrames s socket_id state) s
      (notifySource b allSucceed now state socket_id s) := by
  simp only [notifySource,sourceFrames]
  split
  · have sent := notify_frame b now
      {s with cdmaSubscriptionSource := decodeCdmaSubscriptionSource state} socket_id
      RIL_UNSOL_CDMA_SUBSCRIPTION_SOURCE_CHANGED (.int (decodeCdmaSubscriptionSource state))
      rfl rfl rfl (by decide) (by decide) connected (intFrame_short _ _)
    exact ⟨sent.sent,sent.connected,sent.requests⟩
  · exact sends_none s

theorem simStatus_sends (b : Build) (now : Int) {s : Ril} (state : RadioState)
    (connected : s.connected (socketHook b.simCount socket_id) = true) :
    Sends (simFrames s socket_id state) s
      (notifySimStatus b allSucceed now state socket_id s) := by
  simp only [notifySimStatus,simFrames]
  split
  · have sent := notify_frame b now {s with simRuimStatus := decodeSimStatus state} socket_id
      RIL_UNSOL_RESPONSE_SIM_STATUS_CHANGED .null rfl rfl rfl (by decide) (by decide) connected
      (by decide)
    exact ⟨sent.sent,sent.connected,sent.requests⟩
  · exact sends_none s

theorem deliver_source (writes : Writes) (s : Ril) (code : Int) (data : List UInt8) :
    (deliverUnsol b writes s code data socket_id).cdmaSubscriptionSource =
      s.cdmaSubscriptionSource := by
  unfold deliverUnsol
  split
  · simp only [receiveNitz]
    split <;> rfl
  · rfl

theorem notify_source (s : Ril) (code : Int) (data : UnsolData) :
    (notify b allSucceed now s code data socket_id).cdmaSubscriptionSource =
      s.cdmaSubscriptionSource := by
  have grabbed : ∀ info, (grabFor info s).cdmaSubscriptionSource = s.cdmaSubscriptionSource := by
    intro info
    unfold grabFor
    split <;> rfl
  unfold notify unsolicitedWith
  split
  · rfl
  · rename_i code' info _
    simp only
    split
    · unfold releaseFor
      split <;> exact grabbed info
    · have more : (morePayload (fun s => (s,[])) now code' (grabFor info s)).1 = grabFor info s := by
        unfold morePayload
        split
        · rfl
        · split <;> rfl
      unfold scheduleFor
      split
      · simp only [scheduleWakeTimeout,deliver_source,more,grabbed]
      · simp only [deliver_source,more,grabbed]

theorem sourceFrames_after_voice (s : Ril) (state : RadioState) :
    sourceFrames (notifyVoice b allSucceed now state socket_id s) socket_id state =
      sourceFrames s socket_id state := by
  have kept : (notifyVoice b allSucceed now state socket_id s).cdmaSubscriptionSource =
      s.cdmaSubscriptionSource := by
    simp only [notifyVoice]
    split
    · exact notify_source _ _ _
    · rfl
  simp only [sourceFrames,kept]

-- A report sends the notifications of what changed, then the radio state itself.
theorem report_sends (b : Build) (now : Int) {s : Ril} {state : RadioState} (data : UnsolData) (old : state.isOld = true)
    (connected : s.connected (socketHook b.simCount socket_id) = true) :
    ∃ last : Ril, Sends (voiceFrames s socket_id state ++ (sourceFrames s socket_id state ++
        simFrames last socket_id state) ++
        [frame socket_id RIL_UNSOL_RESPONSE_RADIO_STATE_CHANGED [] (Parcel.le32 10)]) s
      (RIL_onUnsolicitedResponse b allSucceed now state s RIL_UNSOL_RESPONSE_RADIO_STATE_CHANGED
        data socket_id) := by
  let held : Ril := {s with wakeLockHeld := true}
  have voice := voice_sends b now (s := held) state connected
  have stillVoice := voice.connected.symm ▸ connected
  have source := source_sends b now state stillVoice
  rw [sourceFrames_after_voice] at source
  have stillSource := source.connected.symm ▸ stillVoice
  have status := simStatus_sends b now state stillSource
  let radio : Ril → Ril × List UInt8 := fun s =>
    ((processRadioState b allSucceed now s state socket_id).1,
      Parcel.le32 (processRadioState b allSucceed now s state socket_id).2.number)
  have state_eq : processRadioState b allSucceed now held state socket_id =
      (notifySimStatus b allSucceed now state socket_id
        (notifySource b allSucceed now state socket_id
          (notifyVoice b allSucceed now state socket_id held)),.on) := by
    simp only [processRadioState,old,if_true]
  have extra : (radio held).2 = Parcel.le32 10 := by
    simp only [radio,state_eq,RadioState.number]
  have inner : Sends (voiceFrames s socket_id state ++ (sourceFrames s socket_id state ++
      simFrames (notifySource b allSucceed now state socket_id
        (notifyVoice b allSucceed now state socket_id held)) socket_id state)) held
      (radio held).1 := by
    simp only [radio,state_eq]
    exact voice.trans (source.trans status)
  have sent := unsolicited_frame b radio now s socket_id RIL_UNSOL_RESPONSE_RADIO_STATE_CHANGED data
    rfl rfl rfl (by decide) inner connected (by
      change (unsolFrame _ _ (radio held).2).length ≤ _
      rw [extra]
      decide)
  have same : (morePayload radio now RIL_UNSOL_RESPONSE_RADIO_STATE_CHANGED held).2 =
      Parcel.le32 10 := extra
  rw [same] at sent
  exact ⟨_,sent⟩

end Report

section View
variable {b : Build} {requests : List RequestInfo} {socket_id : SocketId} {code request : Int}

theorem told_frame (code' : Int) (payload extra : List UInt8) :
    told b requests socket_id code request (frame socket_id code' payload extra) =
      if (⟨unsolFrame code' payload extra,0⟩ : Parcel).int32At 0 = RESPONSE_UNSOLICITED ∧
          (⟨unsolFrame code' payload extra,0⟩ : Parcel).int32At 4 = code then
        some ((⟨unsolFrame code' payload extra,0⟩ : Parcel).int32At 12)
      else none := by
  simp only [told]
  rw [if_pos ⟨rfl,rfl⟩]
  rfl

theorem unsolFrame_code {code' : Int} (payload extra : List UInt8) (low : -2^31 ≤ code')
    (high : code' < 2^31) : (⟨unsolFrame code' payload extra,0⟩ : Parcel).int32At 4 = code' := by
  have shifted : (⟨unsolFrame code' payload extra,0⟩ : Parcel).int32At 4 =
      (⟨Parcel.le32 RESPONSE_UNSOLICITED ++ Parcel.le32 code' ++ (payload ++ extra),
        (Parcel.le32 RESPONSE_UNSOLICITED).length⟩ : Parcel).int32At 0 := by
    simp only [Parcel.int32At,Parcel.wordAt,Parcel.byteAt,unsolFrame,List.append_assoc,
      Parcel.le32_length]
  rw [shifted,Parcel.int32At_le32 low high]

theorem told_other {code' : Int} {payload extra : List UInt8} (low : -2^31 ≤ code')
    (high : code' < 2^31) (other : code' ≠ code) :
    told b requests socket_id code request (frame socket_id code' payload extra) = none := by
  rw [told_frame,if_neg]
  rw [unsolFrame_code payload extra low high]
  exact fun both => other both.2

theorem view_others {value : Sent → Option Int} {extra : List Sent}
    (silent : ∀ f ∈ extra, value f = none) (sent : List Sent) :
    view value (sent ++ extra) = view value sent := by
  induction extra generalizing sent with
  | nil => simp
  | cons f rest ih =>
    rw [List.append_cons,ih fun g later => silent g (List.mem_cons_of_mem f later),view_append,
      silent f List.mem_cons_self]
    rfl

theorem told_source (state : RadioState) :
    told b requests socket_id RIL_UNSOL_VOICE_RADIO_TECH_CHANGED request
      (frame socket_id RIL_UNSOL_VOICE_RADIO_TECH_CHANGED
        (responseInts [decodeCdmaSubscriptionSource state]) []) =
      some (decodeCdmaSubscriptionSource state) := by
  rw [told_frame]
  cases state <;> decide

end View

section Knowing
variable {b : Build} {s : Ril} {socket_id : SocketId} {now : Int} {state : RadioState}

theorem voiceFrames_silent {code request : Int} (other : RIL_UNSOL_CDMA_PRL_CHANGED ≠ code) :
    ∀ f ∈ voiceFrames s socket_id state, told b s.requests socket_id code request f = none := by
  intro f present
  unfold voiceFrames at present
  split at present
  · rw [List.mem_singleton.mp present]
    exact told_other (by decide) (by decide) other
  · cases present

theorem simFrames_silent {last : Ril} {code request : Int}
    (other : RIL_UNSOL_RESPONSE_SIM_STATUS_CHANGED ≠ code) :
    ∀ f ∈ simFrames last socket_id state, told b s.requests socket_id code request f = none := by
  intro f present
  unfold simFrames at present
  split at present
  · rw [List.mem_singleton.mp present]
    exact told_other (by decide) (by decide) other
  · cases present

-- The voice technology message goes out as a PRL change, so a report never
-- tells the client a voice technology; a subscription source change does, wrongly.
theorem report_voiceView (data : UnsolData) (old : state.isOld = true)
    (connected : s.connected (socketHook b.simCount socket_id) = true) :
    voiceView b (RIL_onUnsolicitedResponse b allSucceed now state s
        RIL_UNSOL_RESPONSE_RADIO_STATE_CHANGED data socket_id) socket_id =
      if is3gpp2 (decodeVoiceRadioTechnology state) = true ∧
          decodeCdmaSubscriptionSource state ≠ s.cdmaSubscriptionSource then
        some (decodeCdmaSubscriptionSource state)
      else voiceView b s socket_id := by
  obtain ⟨last,sends⟩ := report_sends b now data old connected
  simp only [voiceView,sends.sent,sends.requests]
  rw [← List.append_assoc,view_append,told_other (by decide) (by decide) (by decide),Option.none_or,
    ← List.append_assoc,← List.append_assoc,view_others (simFrames_silent (by decide))]
  unfold sourceFrames
  split
  · rw [view_append,told_source]
    rfl
  · rw [List.append_nil,view_others (voiceFrames_silent (by decide))]

theorem report_sourceView (data : UnsolData) (old : state.isOld = true)
    (connected : s.connected (socketHook b.simCount socket_id) = true) :
    sourceView b (RIL_onUnsolicitedResponse b allSucceed now state s
        RIL_UNSOL_RESPONSE_RADIO_STATE_CHANGED data socket_id) socket_id =
      sourceView b s socket_id := by
  obtain ⟨last,sends⟩ := report_sends b now data old connected
  simp only [sourceView,sends.sent,sends.requests]
  rw [← List.append_assoc,view_append,told_other (by decide) (by decide) (by decide),Option.none_or,
    ← List.append_assoc,← List.append_assoc,view_others (simFrames_silent (by decide))]
  unfold sourceFrames
  split
  · rw [view_append,told_other (by decide) (by decide) (by decide),Option.none_or,
      view_others (voiceFrames_silent (by decide))]
  · rw [List.append_nil,view_others (voiceFrames_silent (by decide))]

theorem voice_ne_source (old : state.isOld = true) :
    decodeCdmaSubscriptionSource state ≠ decodeVoiceRadioTechnology state := by
  cases state <;> revert old <;> decide

theorem report_right_iff (data : UnsolData) (old : state.isOld = true)
    (connected : s.connected (socketHook b.simCount socket_id) = true) :
    Right b (RIL_onUnsolicitedResponse b allSucceed now state s
        RIL_UNSOL_RESPONSE_RADIO_STATE_CHANGED data socket_id) socket_id state ↔
      Settled b s socket_id state := by
  unfold Settled Right
  rw [report_voiceView data old connected,report_sourceView data old connected]
  by_cases raised : is3gpp2 (decodeVoiceRadioTechnology state) = true ∧
      decodeCdmaSubscriptionSource state ≠ s.cdmaSubscriptionSource
  · rw [if_pos raised]
    constructor
    · rintro ⟨voice,_⟩
      exact absurd (Option.some.inj voice) (voice_ne_source old)
    · rintro ⟨_,cached⟩
      exact absurd (cached raised.1).symm raised.2
  · rw [if_neg raised]
    constructor
    · intro right
      refine ⟨right,fun cdma => ?_⟩
      by_contra different
      exact raised ⟨cdma,Ne.symm different⟩
    · exact fun settled => settled.1

end Knowing

-- The reports meant: a radio state between UNAVAILABLE and ON, all
-- writes succeeding.
def report (socket_id : SocketId) (data : UnsolData) (state : RadioState) (now : Int) : Action :=
  .unsolicited socket_id RIL_UNSOL_RESPONSE_RADIO_STATE_CHANGED data state now allSucceed

def ReportsSettled (b : Build) (s : Ril) : Action → Prop
  | .unsolicited socket_id code _ state _ _ =>
    code = RIL_UNSOL_RESPONSE_RADIO_STATE_CHANGED → state.isOld = true → Settled b s socket_id state
  | _ => True

-- Exactly the reports that have nothing to tell leave the client with the right
-- values, after every run; so a run of such reports does throughout.
theorem view_right_iff_settled (b : Build) (socket_id : SocketId) (data : UnsolData)
    (state : RadioState) (now : Int) (old : state.isOld = true) :
    (∀ (actions : List Action) (before after : Ril), run (step b) .initial actions = some before →
      before.connected (socketHook b.simCount socket_id) = true →
      step b before (report socket_id data state now) = some after →
      (Right b after socket_id state ↔ Settled b before socket_id state)) ∧
    (∀ (front back : List Action) (before after : Ril),
      Obeys (step b) (ReportsSettled b) .initial
        (front ++ report socket_id data state now :: back) →
      run (step b) .initial front = some before →
      before.connected (socketHook b.simCount socket_id) = true →
      step b before (report socket_id data state now) = some after →
      Right b after socket_id state) := by
  constructor
  · intro actions before after _ connected reported
    cases reported
    exact report_right_iff data old connected
  · intro front back before after obeyed ran connected reported
    cases reported
    exact (report_right_iff data old connected).mpr (obeys_at obeyed ran rfl old)

theorem view_right_after_query :
    ∃ before after, run (step (asciiBuild 1)) .initial
        [.connect .socket1 .off 0 allSucceed,
         .command .socket1 (Parcel.le32 108 ++ Parcel.le32 7) .simReady allSucceed] = some before ∧
      step (asciiBuild 1) before (report .socket1 .null .simReady 0) = some after ∧
      Right (asciiBuild 1) after .socket1 .simReady := by
  refine ⟨_,_,rfl,rfl,?_⟩
  refine ((view_right_iff_settled (asciiBuild 1) .socket1 .null .simReady 0 (by decide)).1
    [.connect .socket1 .off 0 allSucceed,
     .command .socket1 (Parcel.le32 108 ++ Parcel.le32 7) .simReady allSucceed] _ _ rfl rfl rfl).mpr ?_
  exact ⟨⟨rfl,by decide⟩,by decide⟩

theorem first_report_unseen :
    ∃ before after, run (step (asciiBuild 1)) .initial [.connect .socket1 .off 0 allSucceed] =
        some before ∧
      step (asciiBuild 1) before (report .socket1 .null .simReady 0) = some after ∧
      voiceView (asciiBuild 1) after .socket1 = none ∧
      ¬ Right (asciiBuild 1) after .socket1 .simReady := by
  refine ⟨_,_,rfl,rfl,rfl,fun right => ?_⟩
  exact absurd right.1 (by decide)

end SemcMsm7x30.RadioView

import SemcMsm7x30.PartialMachine
import SemcMsm7x30.Dispatch

namespace SemcMsm7x30

-- `addr` is the identity of the allocation, which is also the vendor's token.
structure RequestInfo where
  addr : Nat
  token : Int
  pCI : CommandInfo
  cancelled : Bool
  isLocal : Bool
  socket_id : SocketId
  deriving DecidableEq, Repr

inductive Origin where
  | reply (addr : Nat)
  | unsupported
  | unsolicited (code : Int)
  | nitz (number : Nat)
  deriving DecidableEq, Repr

structure Sent where
  socket_id : SocketId
  data : List UInt8
  origin : Origin
  ok : Bool
  deriving DecidableEq, Repr

structure VendorCall where
  addr : Nat
  request : Int
  data : VendorData
  socket_id : SocketId
  deriving DecidableEq, Repr

-- The kept copy of a NITZ message. Its number and socket are history.
structure NitzCopy where
  data : List UInt8
  number : Nat
  socket_id : SocketId
  deriving DecidableEq, Repr

structure WakeTimer where
  info : Nat
  cancelled : Bool
  deriving DecidableEq, Repr

-- The globals of ril.cpp after RIL_register. `requests`, `sent`, `calls`,
-- `completions` and `nitzReceived` (the sockets of the NITZ messages so far) are
-- history.
structure Ril where
  nextAddr : Nat
  pendingRequests : SocketId → List RequestInfo
  connected : SocketId → Bool
  voiceRadioTech : Int
  cdmaSubscriptionSource : Int
  simRuimStatus : Int
  lastNITZTimeData : Option NitzCopy
  wakeLockHeld : Bool
  wakeTimers : List WakeTimer
  nextTimer : Nat
  lastWakeTimeoutInfo : Option Nat
  requests : List RequestInfo
  sent : List Sent
  calls : List VendorCall
  completions : List Nat
  nitzReceived : List SocketId

def Ril.initial : Ril where
  nextAddr := 0
  pendingRequests := fun _ => []
  connected := fun _ => false
  voiceRadioTech := -1
  cdmaSubscriptionSource := -1
  simRuimStatus := -1
  lastNITZTimeData := none
  wakeLockHeld := false
  wakeTimers := []
  nextTimer := 0
  lastWakeTimeoutInfo := none
  requests := []
  sent := []
  calls := []
  completions := []
  nitzReceived := []

-- SIM_COUNT, and what freed memory holds where socket_id was.
structure Build where
  simCount : Nat
  platform : Platform
  stale : Nat → SocketId

def asciiBuild (simCount : Nat) : Build :=
  ⟨simCount,⟨fun s => s.map UInt16.toUInt8,fun s => s.map UInt8.toUInt16,2^16,by decide⟩,
    fun _ => .socket1⟩

-- Which of the writes of one step succeed, by message code; a solicited frame
-- goes under code 0.
abbrev Writes := Int → Bool

section Functions
variable (b : Build)

-- sendResponse with sendResponseRaw: 0 exactly when all of the frame was written.
def sendResponse (writes : Writes) (s : Ril) (code : Int) (data : List UInt8) (socket_id : SocketId)
    (origin : Origin) : Ril × Bool :=
  let ok := s.connected (socketHook b.simCount socket_id) ∧ data.length ≤ MAX_COMMAND_BYTES ∧
    writes code
  ({s with sent := s.sent ++ [⟨socket_id,data,origin,ok⟩]},ok)

def responseInts (values : List Int) : List UInt8 :=
  Parcel.le32 values.length ++ values.flatMap Parcel.le32

def responseSimIo (sw1 sw2 : Int) (simResponse : List UInt8) : List UInt8 :=
  (writeStringToParcel b.platform ((Parcel.empty.writeInt32 sw1).writeInt32 sw2)
    (some simResponse)).data

def marshal : Response → Option (List UInt8 × Int)
  | .null => none
  | .int value => some (responseInts [value],0)
  | .simIo sw1 sw2 simResponse => some (responseSimIo b sw1 sw2 simResponse,0)
  | .vendor payload ret => some (payload,ret)

def replyFrame (token e : Int) (response : Response) : List UInt8 :=
  let p := (Parcel.empty.writeInt32 RESPONSE_SOLICITED).writeInt32 token
  let errorOffset := p.pos
  let p := p.writeInt32 e
  match marshal b response with
  | none => p.data
  | some (payload,ret) =>
    let p := p.write payload
    -- if an error occurred, rewind and mark it
    if ret ≠ 0 then ((p.setDataPosition errorOffset).writeInt32 ret).data else p.data

def deref (s : Ril) (addr : Nat) : Option RequestInfo :=
  (s.pendingRequests .socket1 ++ s.pendingRequests .socket2 ++ s.pendingRequests .socket3 ++
    s.pendingRequests .socket4).find? (·.addr = addr)

-- The list is chosen by pRI->socket_id, read also when pRI is no longer valid.
def searchedList (s : Ril) (addr : Nat) : SocketId :=
  dequeueHook b.simCount (((deref s addr).map (·.socket_id)).getD (b.stale addr))

def checkAndDequeueRequestInfo (s : Ril) (addr : Nat) : Option (RequestInfo × Ril) :=
  let hook := searchedList b s addr
  match (s.pendingRequests hook).find? (·.addr = addr) with
  | none => none
  | some pRI =>
    let rest := (s.pendingRequests hook).eraseP (·.addr = addr)
    some (pRI,{s with pendingRequests := Function.update s.pendingRequests hook rest})

def RIL_onRequestComplete (writes : Writes) (s : Ril) (addr : Nat) (e : Int) (response : Response) :
    Ril :=
  let s := {s with completions := s.completions ++ [addr]}
  match checkAndDequeueRequestInfo b s addr with
  | none => s
  | some (pRI,s) =>
    -- Locally issued command: the response does not go back up the command socket
    if pRI.isLocal then s
    else if pRI.cancelled then s
    else (sendResponse b writes s RESPONSE_SOLICITED (replyFrame b pRI.token e response)
      pRI.socket_id (.reply addr)).1

def enqueue (s : Ril) (hook : SocketId) (pRI : RequestInfo) : Ril :=
  {s with
    nextAddr := s.nextAddr+1
    requests := s.requests ++ [pRI]
    pendingRequests := Function.update s.pendingRequests hook (pRI :: s.pendingRequests hook)}

def runCall (writes : Writes) (pRI : RequestInfo) (s : Ril) : Call → Option Ril
  | .onRequest data =>
    some {s with calls := s.calls ++ [⟨pRI.addr,pRI.pCI.requestNumber,data,pRI.socket_id⟩]}
  | .onRequestComplete e response => some (RIL_onRequestComplete b writes s pRI.addr e response)
  | .setVoiceRadioTech value => some {s with voiceRadioTech := value}
  | .setCdmaSubscriptionSource value => some {s with cdmaSubscriptionSource := value}
  | .invalidCommandBlock => some s
  | .fault => none

def runCalls (writes : Writes) (pRI : RequestInfo) : Ril → List Call → Option Ril :=
  PartialMachine.run (runCall b writes pRI)

def newRequest (s : Ril) (token : Int) (pCI : CommandInfo) (socket_id : SocketId) : RequestInfo :=
  ⟨s.nextAddr,token,pCI,false,false,socket_id⟩

def unsupportedFrame (token : Int) : List UInt8 :=
  (((Parcel.empty.writeInt32 RESPONSE_SOLICITED).writeInt32 token).writeInt32
    RIL_E_GENERIC_FAILURE).data

-- The two header ints; status is checked once, after both.
def readHeader (buffer : List UInt8) : Option (Int × Int × Parcel) :=
  match (Parcel.setData buffer).readInt32 with
  | none => none
  | some (request,p) =>
    match p.readInt32 with
    | none => none
    | some (token,p) => some (request,token,p)

def processCommandBuffer (writes : Writes) (state : RadioState) (s : Ril) (buffer : List UInt8)
    (socket_id : SocketId) : Option Ril :=
  match readHeader buffer with
  | none => some s
  | some (request,token,p) =>
    match lookupCommand request with
    | none =>
      some (sendResponse b writes s RESPONSE_SOLICITED (unsupportedFrame token) socket_id
        .unsupported).1
    | some pCI =>
      let pRI := newRequest s token pCI socket_id
      match pCI.dispatchFunction with
      | none => none
      | some f =>
        runCalls b writes pRI (enqueue s (socketHook b.simCount socket_id) pRI)
          (dispatch b.platform state p f)

-- Only a build with exactly two SIMs has a second list here.
def issueLocalRequest (s : Ril) (request : Nat) (data : VendorData) (socket_id : SocketId) :
    Option Ril :=
  match s_commands[request]? with
  | none => none
  | some pCI =>
    let hook := if b.simCount = 2 ∧ socket_id = .socket2 then SocketId.socket2 else .socket1
    let pRI : RequestInfo := ⟨s.nextAddr,0xffffffff,pCI,false,true,socket_id⟩
    let s := enqueue s hook pRI
    some {s with calls := s.calls ++ [⟨pRI.addr,request,data,socket_id⟩]}

-- mark pending requests as "cancelled" so we dont report responses
def onCommandsSocketClosed (s : Ril) (socket_id : SocketId) : Ril :=
  let hook := socketHook b.simCount socket_id
  let cancelled := (s.pendingRequests hook).map fun pRI => {pRI with cancelled := true}
  {s with pendingRequests := Function.update s.pendingRequests hook cancelled}

-- What an unsolicited response is called with; for the vendor's data what the
-- response function of the code appends for it and returns.
inductive UnsolData where
  | null
  | int (value : Int)
  | vendor (payload : List UInt8) (ret : Int)
  deriving DecidableEq, Repr

-- The daemon's own notifications only reach responseVoid and responseInts.
def unsolPayload : ResponseFunction → UnsolData → List UInt8 × Int
  | .responseVoid,_ => ([],0)
  | .responseInts,.null => (responseInts [],0)
  | .responseInts,.int value => (responseInts [value],0)
  | _,.vendor payload ret => (payload,ret)
  | _,_ => ([],0)

def convertUnsol (unsolResponse : Int) : Option Int :=
  match unsolResponse_conv.find? (·.1 = unsolResponse) with
  | none => some unsolResponse
  | some (_,curr) => if curr = 0 then none else some curr

def scheduleWakeTimeout (s : Ril) : Ril :=
  {s with
    wakeTimers := s.wakeTimers.map (fun t =>
      if some t.info = s.lastWakeTimeoutInfo then {t with cancelled := true} else t) ++
        [⟨s.nextTimer,false⟩]
    nextTimer := s.nextTimer+1
    lastWakeTimeoutInfo := some s.nextTimer}

def keepNitz (s : Ril) (data : List UInt8) (socket_id : SocketId) : Ril :=
  {s with lastNITZTimeData := some ⟨data,s.nitzReceived.length,socket_id⟩}

def receiveNitz (s : Ril) (socket_id : SocketId) : Ril :=
  {s with nitzReceived := s.nitzReceived ++ [socket_id]}

def deliverUnsol (writes : Writes) (s : Ril) (code : Int) (data : List UInt8)
    (socket_id : SocketId) : Ril :=
  if code = RIL_UNSOL_NITZ_TIME_RECEIVED then
    let result := sendResponse b writes s code data socket_id (.nitz s.nitzReceived.length)
    receiveNitz (if result.2 then result.1 else keepNitz result.1 data socket_id) socket_id
  else (sendResponse b writes s code data socket_id (.unsolicited code)).1

def unsolEntry (unsolResponse : Int) : Option (Int × UnsolResponseInfo) :=
  match convertUnsol unsolResponse with
  | none => none
  | some code =>
    if code < RIL_UNSOL_RESPONSE_BASE then none
    else (s_unsolResponses[(code-RIL_UNSOL_RESPONSE_BASE).toNat]?).map (code,·)

def grabFor (info : UnsolResponseInfo) (s : Ril) : Ril :=
  if info.wakeType = .WAKE_PARTIAL then {s with wakeLockHeld := true} else s

def releaseFor (info : UnsolResponseInfo) (s : Ril) : Ril :=
  if info.wakeType = .WAKE_PARTIAL then {s with wakeLockHeld := false} else s

def scheduleFor (info : UnsolResponseInfo) (s : Ril) : Ril :=
  if info.wakeType = .WAKE_PARTIAL then scheduleWakeTimeout s else s

def morePayload (radio : Ril → Ril × List UInt8) (now : Int) (code : Int) (s : Ril) :
    Ril × List UInt8 :=
  if code = RIL_UNSOL_RESPONSE_RADIO_STATE_CHANGED then radio s
  else if code = RIL_UNSOL_NITZ_TIME_RECEIVED then (s,Parcel.le64 now)
  else (s,[])

def unsolFrame (code : Int) (payload extra : List UInt8) : List UInt8 :=
  Parcel.le32 RESPONSE_UNSOLICITED ++ Parcel.le32 code ++ payload ++ extra

-- RIL_onUnsolicitedResponse, with what it does for a radio state change as a
-- parameter: the notifications made there are calls of the same function.
def unsolicitedWith (radio : Ril → Ril × List UInt8) (writes : Writes) (now : Int) (s : Ril)
    (unsolResponse : Int) (data : UnsolData) (socket_id : SocketId) : Ril :=
  match unsolEntry unsolResponse with
  | none => s
  | some (code,info) =>
    let result := unsolPayload info.responseFunction data
    if result.2 ≠ 0 then releaseFor info (grabFor info s)
    else
      let more := morePayload radio now code (grabFor info s)
      scheduleFor info
        (deliverUnsol b writes more.1 code (unsolFrame code result.1 more.2) socket_id)

def notify (writes : Writes) (now : Int) (s : Ril) (unsolResponse : Int) (data : UnsolData)
    (socket_id : SocketId) : Ril :=
  unsolicitedWith b (fun s => (s,[])) writes now s unsolResponse data socket_id

def decodeSimStatus : RadioState → Int
  | .simLockedOrAbsent => RadioState.simLockedOrAbsent.number
  | .simReady => RadioState.simReady.number
  | .ruimReady => RadioState.ruimReady.number
  | .ruimLockedOrAbsent => RadioState.ruimLockedOrAbsent.number
  | .simNotReady | .ruimNotReady | .nvNotReady | .nvReady | .off | .unavailable | .on => -1

-- The CDMA values of RIL_RadioTechnology: IS95A, IS95B, 1xRTT, EVDO_0, EVDO_A,
-- EVDO_B and EHRPD.
def is3gpp2 (radioTech : Int) : Bool := radioTech ∈ [4,5,6,7,8,12,13]

def notifyVoice (writes : Writes) (now : Int) (state : RadioState) (socket_id : SocketId) (s : Ril) :
    Ril :=
  let newVoiceRadioTech := decodeVoiceRadioTechnology state
  if newVoiceRadioTech ≠ s.voiceRadioTech then
    notify b writes now {s with voiceRadioTech := newVoiceRadioTech}
      RIL_UNSOL_VOICE_RADIO_TECH_CHANGED (.int newVoiceRadioTech) socket_id
  else s

def notifySource (writes : Writes) (now : Int) (state : RadioState) (socket_id : SocketId)
    (s : Ril) : Ril :=
  let newCdmaSubscriptionSource := decodeCdmaSubscriptionSource state
  if is3gpp2 (decodeVoiceRadioTechnology state) ∧
      newCdmaSubscriptionSource ≠ s.cdmaSubscriptionSource then
    notify b writes now {s with cdmaSubscriptionSource := newCdmaSubscriptionSource}
      RIL_UNSOL_CDMA_SUBSCRIPTION_SOURCE_CHANGED (.int newCdmaSubscriptionSource) socket_id
  else s

def notifySimStatus (writes : Writes) (now : Int) (state : RadioState) (socket_id : SocketId)
    (s : Ril) : Ril :=
  let newSimStatus := decodeSimStatus state
  if newSimStatus ≠ s.simRuimStatus then
    notify b writes now {s with simRuimStatus := newSimStatus}
      RIL_UNSOL_RESPONSE_SIM_STATUS_CHANGED .null socket_id
  else s

def RadioState.isOld (state : RadioState) : Bool :=
  RadioState.unavailable.number < state.number ∧ state.number < RadioState.on.number

def processRadioState (writes : Writes) (now : Int) (s : Ril) (newRadioState : RadioState)
    (socket_id : SocketId) : Ril × RadioState :=
  if newRadioState.isOld then
    let s := notifyVoice b writes now newRadioState socket_id s
    let s := notifySource b writes now newRadioState socket_id s
    let s := notifySimStatus b writes now newRadioState socket_id s
    -- Send RADIO_ON to telephony
    (s,.on)
  else (s,newRadioState)

def RIL_onUnsolicitedResponse (writes : Writes) (now : Int) (state : RadioState) (s : Ril)
    (unsolResponse : Int) (data : UnsolData) (socket_id : SocketId) : Ril :=
  unsolicitedWith b
    (fun s =>
      let result := processRadioState b writes now s state socket_id
      (result.1,Parcel.le32 result.2.number))
    writes now s unsolResponse data socket_id

-- Send last NITZ time data, in case it was missed
def flushNitz (writes : Writes) (s : Ril) (socket_id : SocketId) : Ril :=
  match s.lastNITZTimeData with
  | none => s
  | some copy =>
    {(sendResponse b writes s RIL_UNSOL_NITZ_TIME_RECEIVED copy.data socket_id
      (.nitz copy.number)).1 with lastNITZTimeData := none}

def onNewCommandConnect (writes : Writes) (now : Int) (state : RadioState) (s : Ril)
    (socket_id : SocketId) : Ril :=
  let s := RIL_onUnsolicitedResponse b writes now state s RIL_UNSOL_RIL_CONNECTED_V3
    (.int RIL_VERSION_V3) socket_id
  let s := RIL_onUnsolicitedResponse b writes now state s RIL_UNSOL_RESPONSE_RADIO_STATE_CHANGED
    .null socket_id
  flushNitz b writes s socket_id

end Functions

inductive Action where
  | command (socket_id : SocketId) (buffer : List UInt8) (state : RadioState) (writes : Writes)
  | issueLocal (socket_id : SocketId) (request : Nat) (data : VendorData)
  | complete (addr : Nat) (e : Int) (response : Response) (writes : Writes)
  | connect (socket_id : SocketId) (state : RadioState) (now : Int) (writes : Writes)
  | disconnect (socket_id : SocketId)
  | unsolicited (socket_id : SocketId) (code : Int) (data : UnsolData) (state : RadioState)
      (now : Int) (writes : Writes)

def setConnected (b : Build) (s : Ril) (socket_id : SocketId) (value : Bool) : Ril :=
  {s with connected := Function.update s.connected (socketHook b.simCount socket_id) value}

-- Each step is one call that runs to its end. No step where the process dies.
def step (b : Build) (s : Ril) : Action → Option Ril
  | .command socket_id buffer state writes => processCommandBuffer b writes state s buffer socket_id
  | .issueLocal socket_id request data => issueLocalRequest b s request data socket_id
  | .complete addr e response writes => some (RIL_onRequestComplete b writes s addr e response)
  | .connect socket_id state now writes =>
    some (onNewCommandConnect b writes now state (setConnected b s socket_id true) socket_id)
  | .disconnect socket_id =>
    some (onCommandsSocketClosed b (setConnected b s socket_id false) socket_id)
  | .unsolicited socket_id code data state now writes =>
    some (RIL_onUnsolicitedResponse b writes now state s code data socket_id)

end SemcMsm7x30

import SemcMsm7x30.Ril

namespace SemcMsm7x30

structure Admits (R : Ril → Ril → Prop) : Prop where
  refl : ∀ s, R s s
  trans : ∀ {s middle next}, R s middle → R middle next → R s next
  wake : ∀ (s : Ril) held timers fresh last, R s {s with
    wakeLockHeld := held,wakeTimers := timers,nextTimer := fresh,lastWakeTimeoutInfo := last}
  cached : ∀ (s : Ril) voice source sim, R s {s with
    voiceRadioTech := voice,cdmaSubscriptionSource := source,simRuimStatus := sim}
  sent : ∀ (s : Ril) socket_id data code ok, R s {s with
    sent := s.sent ++ [⟨socket_id,data,.unsolicited code,ok⟩]}

def NotNitz (code : Int) : Prop :=
  ∀ entry, unsolEntry code = some entry → entry.1 ≠ RIL_UNSOL_NITZ_TIME_RECEIVED

-- What the daemon itself passes, and so what the nested calls get.
def Own (data : UnsolData) : Prop := ∀ function, (unsolPayload function data).2 = 0

theorem own_null : Own .null := by
  intro function
  cases function <;> rfl

theorem own_int (value : Int) : Own (.int value) := by
  intro function
  cases function <;> rfl

section Kept
variable {b : Build} {writes : Writes} {now : Int} {state : RadioState} {socket_id : SocketId}
  {s : Ril}

theorem more_kept {holds : Ril → Prop} {radio : Ril → Ril × List UInt8}
    (inner : ∀ s, holds s → holds (radio s).1) (code : Int) (held : holds s) :
    holds (morePayload radio now code s).1 := by
  unfold morePayload
  split
  · exact inner s held
  · split
    · exact held
    · exact held

theorem radio_kept {holds : Ril → Prop}
    (cached : ∀ (s : Ril) voice source sim, holds s → holds {s with
      voiceRadioTech := voice,cdmaSubscriptionSource := source,simRuimStatus := sim})
    (told : ∀ s code data, NotNitz code → Own data → holds s →
      holds (notify b writes now s code data socket_id))
    (s : Ril) (held : holds s) : holds (processRadioState b writes now s state socket_id).1 := by
  have voice : ∀ s, holds s → holds (notifyVoice b writes now state socket_id s) := by
    intro s held
    simp only [notifyVoice]
    split
    · exact told _ _ _ (by unfold NotNitz; decide) (own_int _) (cached s _ _ _ held)
    · exact held
  have source : ∀ s, holds s → holds (notifySource b writes now state socket_id s) := by
    intro s held
    simp only [notifySource]
    split
    · exact told _ _ _ (by unfold NotNitz; decide) (own_int _) (cached s _ _ _ held)
    · exact held
  have status : ∀ s, holds s → holds (notifySimStatus b writes now state socket_id s) := by
    intro s held
    simp only [notifySimStatus]
    split
    · exact told _ _ _ (by unfold NotNitz; decide) own_null (cached s _ _ _ held)
    · exact held
  unfold processRadioState
  split
  · exact status _ (source _ (voice s held))
  · exact held

end Kept

section Admitted
variable {R : Ril → Ril → Prop} (admits : Admits R) {b : Build} {writes : Writes} {now : Int}
  {state : RadioState} {socket_id : SocketId}
include admits

theorem grab_admitted (info : UnsolResponseInfo) (s : Ril) : R s (grabFor info s) := by
  unfold grabFor
  split
  · exact admits.wake s true _ _ _
  · exact admits.refl s

theorem release_admitted (info : UnsolResponseInfo) (s : Ril) : R s (releaseFor info s) := by
  unfold releaseFor
  split
  · exact admits.wake s false _ _ _
  · exact admits.refl s

theorem schedule_admitted (info : UnsolResponseInfo) (s : Ril) : R s (scheduleFor info s) := by
  unfold scheduleFor
  split
  · exact admits.wake s s.wakeLockHeld _ _ _
  · exact admits.refl s

-- `deliver` is left open for the NITZ message, which not every relation admits.
theorem unsolicited_admitted {radio : Ril → Ril × List UInt8} (inner : ∀ s, R s (radio s).1)
    {code : Int} {data : UnsolData} (s : Ril)
    (deliver : ∀ s code' info frame, unsolEntry code = some (code',info) →
      R s (deliverUnsol b writes s code' frame socket_id)) :
    R s (unsolicitedWith b radio writes now s code data socket_id) := by
  unfold unsolicitedWith
  split
  · exact admits.refl s
  · rename_i code' info entry
    apply admits.trans (grab_admitted admits info s)
    simp only
    split
    · exact release_admitted admits info _
    · have more : R (grabFor info s) (morePayload radio now code' (grabFor info s)).1 :=
        more_kept (fun s before => admits.trans before (inner s)) code' (admits.refl _)
      apply admits.trans more
      exact admits.trans (deliver _ code' info _ entry) (schedule_admitted admits info _)

theorem deliver_admitted {code : Int} (notNitz : NotNitz code) (s : Ril) (code' : Int)
    (info : UnsolResponseInfo) (frame : List UInt8) (entry : unsolEntry code = some (code',info)) :
    R s (deliverUnsol b writes s code' frame socket_id) := by
  unfold deliverUnsol
  rw [if_neg (notNitz _ entry)]
  exact admits.sent s _ _ _ _

theorem notify_admitted {code : Int} {data : UnsolData} (notNitz : NotNitz code) (s : Ril) :
    R s (notify b writes now s code data socket_id) :=
  unsolicited_admitted admits admits.refl s (deliver_admitted admits notNitz)

theorem processRadioState_admitted (s : Ril) :
    R s (processRadioState b writes now s state socket_id).1 := by
  apply radio_kept _ _ s (admits.refl s)
  · intro middle voice source sim before
    exact admits.trans before (admits.cached middle voice source sim)
  · intro middle code data notNitz _ before
    exact admits.trans before (notify_admitted admits notNitz middle)

theorem onUnsolicited_admitted {code : Int} {data : UnsolData} (notNitz : NotNitz code) (s : Ril) :
    R s (RIL_onUnsolicitedResponse b writes now state s code data socket_id) :=
  unsolicited_admitted admits (fun s => processRadioState_admitted admits s) s
    (deliver_admitted admits notNitz)

end Admitted

structure AdmitsCalls (R : Ril → Ril → Prop) : Prop where
  refl : ∀ s, R s s
  trans : ∀ {s middle next}, R s middle → R middle next → R s next
  noted : ∀ (s : Ril) calls completions, R s {s with calls := calls,completions := completions}
  cached : ∀ (s : Ril) voice source, R s {s with
    voiceRadioTech := voice,cdmaSubscriptionSource := source}
  taken : ∀ (s : Ril) hook addr, R s {s with
    pendingRequests := Function.update s.pendingRequests hook
      ((s.pendingRequests hook).eraseP (·.addr = addr))}
  replied : ∀ (s : Ril) socket_id data addr ok, R s {s with
    sent := s.sent ++ [⟨socket_id,data,.reply addr,ok⟩]}

section Calls
variable {b : Build} {writes : Writes} {s next : Ril}

theorem complete_admitted {R : Ril → Ril → Prop} (admits : AdmitsCalls R) (s : Ril) (addr : Nat)
    (e : Int) (response : Response) : R s (RIL_onRequestComplete b writes s addr e response) := by
  have noted : R s {s with completions := s.completions ++ [addr]} := admits.noted s s.calls _
  apply admits.trans noted
  unfold RIL_onRequestComplete checkAndDequeueRequestInfo
  simp only
  split
  · exact admits.refl _
  · rename_i pRI left found
    split at found
    · cases found
    · cases found
      apply admits.trans (admits.taken _ _ addr)
      split
      · exact admits.refl _
      · split
        · exact admits.refl _
        · exact admits.replied _ _ _ _ _

theorem call_admitted {R : Ril → Ril → Prop} (admits : AdmitsCalls R) {pRI : RequestInfo}
    {call : Call} (ran : runCall b writes pRI s call = some next) : R s next := by
  cases call with
  | onRequestComplete e response =>
    cases ran
    exact complete_admitted admits s pRI.addr e response
  | onRequest data =>
    cases ran
    exact admits.noted s _ s.completions
  | setVoiceRadioTech value =>
    cases ran
    exact admits.cached s value s.cdmaSubscriptionSource
  | setCdmaSubscriptionSource value =>
    cases ran
    exact admits.cached s s.voiceRadioTech value
  | invalidCommandBlock =>
    cases ran
    exact admits.refl s
  | fault => cases ran

theorem calls_admitted {R : Ril → Ril → Prop} (admits : AdmitsCalls R) {pRI : RequestInfo}
    {calls : List Call} (ran : runCalls b writes pRI s calls = some next) : R s next :=
  PartialMachine.run_invariant (R s)
    (fun _ _ _ before moved => admits.trans before (call_admitted admits moved)) (admits.refl s) ran

-- A record is dropped, answered as unsupported, or queued and dispatched.
theorem command_cases {state : RadioState} {buffer : List UInt8} {socket_id : SocketId}
    (moved : processCommandBuffer b writes state s buffer socket_id = some next) :
    next = s ∨
    (∃ token, next = (sendResponse b writes s RESPONSE_SOLICITED (unsupportedFrame token) socket_id
      .unsupported).1) ∨
    ∃ token pCI calls, runCalls b writes (newRequest s token pCI socket_id)
      (enqueue s (socketHook b.simCount socket_id) (newRequest s token pCI socket_id)) calls =
        some next := by
  unfold processCommandBuffer at moved
  cases read : readHeader buffer with
  | none =>
    rw [read] at moved
    cases moved
    exact .inl rfl
  | some result =>
    obtain ⟨request,token,p⟩ := result
    simp only [read] at moved
    cases row : lookupCommand request with
    | none =>
      simp only [row,Option.some.injEq] at moved
      exact .inr (.inl ⟨token,moved.symm⟩)
    | some pCI =>
      simp only [row] at moved
      split at moved
      · cases moved
      · exact .inr (.inr ⟨token,pCI,_,moved⟩)

end Calls

end SemcMsm7x30

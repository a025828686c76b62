import SemcMsm7x30.Effects

namespace SemcMsm7x30.Nitz
open PartialMachine

def Latest (s : Ril) (socket_id : SocketId) (n : Nat) : Prop :=
  s.nitzReceived[n]? = some socket_id ∧ ∀ m, n < m → s.nitzReceived[m]? ≠ some socket_id

def deliveries (s : Ril) (n : Nat) : List Sent :=
  s.sent.filter fun f => f.origin = .nitz n ∧ f.ok

def Delivered (s : Ril) (n : Nat) : Prop := ∃ f ∈ s.sent, f.origin = .nitz n ∧ f.ok = true

structure Plain (s next : Ril) : Prop where
  stored : next.lastNITZTimeData = s.lastNITZTimeData
  received : next.nitzReceived = s.nitzReceived
  sent : ∃ extra, next.sent = s.sent ++ extra ∧ ∀ f ∈ extra, ∀ n, f.origin ≠ .nitz n

theorem Plain.refl (s : Ril) : Plain s s := ⟨rfl,rfl,[],by simp,by simp⟩

theorem Plain.trans {s middle next : Ril} (one : Plain s middle) (two : Plain middle next) :
    Plain s next := by
  obtain ⟨first,sentOne,plainOne⟩ := one.sent
  obtain ⟨second,sentTwo,plainTwo⟩ := two.sent
  refine ⟨two.stored.trans one.stored,two.received.trans one.received,first ++ second,?_,?_⟩
  · rw [sentTwo,sentOne,List.append_assoc]
  · intro f present
    rcases List.mem_append.mp present with early | late
    · exact plainOne f early
    · exact plainTwo f late

section Frames
variable {b : Build} {writes : Writes} {now : Int} {state : RadioState} {socket_id : SocketId}

theorem plain_of_eq {s next : Ril} (stored : next.lastNITZTimeData = s.lastNITZTimeData)
    (received : next.nitzReceived = s.nitzReceived) (sent : next.sent = s.sent) : Plain s next :=
  ⟨stored,received,[],by simp [sent],by simp⟩

theorem send_plain (s : Ril) (code : Int) (data : List UInt8) {origin : Origin}
    (other : ∀ n, origin ≠ .nitz n) :
    Plain s (sendResponse b writes s code data socket_id origin).1 := by
  refine ⟨rfl,rfl,_,rfl,?_⟩
  intro f present
  rw [List.mem_singleton.mp present]
  exact other

def Attached (s next : Ril) : Prop := Plain s next ∧ next.connected = s.connected

theorem attached_admits : Admits Attached where
  refl := fun s => ⟨.refl s,rfl⟩
  trans := fun one two => ⟨one.1.trans two.1,two.2.trans one.2⟩
  wake := fun _ _ _ _ _ => ⟨plain_of_eq rfl rfl rfl,rfl⟩
  cached := fun _ _ _ _ => ⟨plain_of_eq rfl rfl rfl,rfl⟩
  sent := fun _ _ _ _ _ => ⟨⟨rfl,rfl,_,rfl,by simp⟩,rfl⟩

theorem plain_admitsCalls : AdmitsCalls Plain where
  refl := .refl
  trans := Plain.trans
  noted := fun _ _ _ => plain_of_eq rfl rfl rfl
  cached := fun _ _ _ => plain_of_eq rfl rfl rfl
  taken := fun _ _ _ => plain_of_eq rfl rfl rfl
  replied := fun _ _ _ _ _ => ⟨rfl,rfl,_,rfl,by simp⟩

theorem command_plain {s next : Ril} {buffer : List UInt8}
    (moved : processCommandBuffer b writes state s buffer socket_id = some next) : Plain s next := by
  rcases command_cases moved with rfl | ⟨token,rfl⟩ | ⟨token,pCI,calls,ran⟩
  · exact .refl next
  · exact send_plain _ _ _ (by simp)
  · have queued : Plain s (enqueue s (socketHook b.simCount socket_id)
        (newRequest s token pCI socket_id)) := plain_of_eq rfl rfl rfl
    exact queued.trans (calls_admitted plain_admitsCalls ran)

end Frames

def reaches (b : Build) (writes : Writes) (s : Ril) (data : List UInt8) (socket_id : SocketId) :
    Bool :=
  s.connected (socketHook b.simCount socket_id) ∧ data.length ≤ MAX_COMMAND_BYTES ∧
    writes RIL_UNSOL_NITZ_TIME_RECEIVED

def nitzFrame (payload : List UInt8) (now : Int) : List UInt8 :=
  unsolFrame RIL_UNSOL_NITZ_TIME_RECEIVED payload (Parcel.le64 now)

structure Arrives (b : Build) (writes : Writes) (s next : Ril) (data : List UInt8)
    (socket_id : SocketId) : Prop where
  received : next.nitzReceived = s.nitzReceived ++ [socket_id]
  sent : next.sent = s.sent ++
    [⟨socket_id,data,.nitz s.nitzReceived.length,reaches b writes s data socket_id⟩]
  stored : next.lastNITZTimeData = if reaches b writes s data socket_id then s.lastNITZTimeData
    else some ⟨data,s.nitzReceived.length,socket_id⟩

section Steps
variable {b : Build} {writes : Writes} {now : Int} {state : RadioState} {socket_id : SocketId}

theorem convertUnsol_ne {code new : Int} (other : code ≠ RIL_UNSOL_NITZ_TIME_RECEIVED)
    (converted : convertUnsol code = some new) : new ≠ RIL_UNSOL_NITZ_TIME_RECEIVED := by
  have table : ∀ entry ∈ unsolResponse_conv, entry.2 ≠ RIL_UNSOL_NITZ_TIME_RECEIVED := by decide
  unfold convertUnsol at converted
  cases found : unsolResponse_conv.find? (·.1 = code) with
  | none =>
    rw [found] at converted
    cases converted
    exact other
  | some entry =>
    have row := table entry (List.mem_of_find?_eq_some found)
    simp only [found] at converted
    split at converted
    · cases converted
    · cases converted
      exact row

theorem notNitz_of_ne {code : Int} (other : code ≠ RIL_UNSOL_NITZ_TIME_RECEIVED) :
    NotNitz code := by
  intro entry found
  unfold unsolEntry at found
  split at found
  · cases found
  · rename_i new converted
    split at found
    · cases found
    · obtain ⟨info,_,rfl⟩ := Option.map_eq_some_iff.mp found
      exact convertUnsol_ne other converted

theorem deliver_arrives (s : Ril) (data : List UInt8) :
    Arrives b writes s (deliverUnsol b writes s RIL_UNSOL_NITZ_TIME_RECEIVED data socket_id) data
      socket_id := by
  unfold deliverUnsol
  rw [if_pos rfl]
  simp only
  split
  · rename_i ok
    have reached : reaches b writes s data socket_id = true := ok
    exact ⟨rfl,rfl,by rw [if_pos reached]; rfl⟩
  · rename_i failed
    have missed : ¬ reaches b writes s data socket_id = true := failed
    exact ⟨rfl,rfl,by rw [if_neg missed]; rfl⟩

def nitzInfo : UnsolResponseInfo := ⟨1008,.responseString,.WAKE_PARTIAL⟩

theorem entry_nitz : unsolEntry RIL_UNSOL_NITZ_TIME_RECEIVED =
    some (RIL_UNSOL_NITZ_TIME_RECEIVED,nitzInfo) := rfl

theorem string_nitz : nitzInfo.responseFunction = .responseString := rfl

theorem nitz_eq (s : Ril) {data : UnsolData} {payload : List UInt8}
    (good : unsolPayload .responseString data = (payload,0)) :
    RIL_onUnsolicitedResponse b writes now state s RIL_UNSOL_NITZ_TIME_RECEIVED data socket_id =
      scheduleFor nitzInfo (deliverUnsol b writes (grabFor nitzInfo s)
        RIL_UNSOL_NITZ_TIME_RECEIVED (nitzFrame payload now) socket_id) := by
  have more : ∀ radio, morePayload radio now RIL_UNSOL_NITZ_TIME_RECEIVED (grabFor nitzInfo s) =
      (grabFor nitzInfo s,Parcel.le64 now) := fun _ => rfl
  unfold RIL_onUnsolicitedResponse unsolicitedWith
  simp only [entry_nitz,string_nitz,good,more,nitzFrame,ne_eq,not_true_eq_false,if_false]

theorem nitz_rejected (s : Ril) {data : UnsolData}
    (bad : (unsolPayload .responseString data).2 ≠ 0) :
    Plain s (RIL_onUnsolicitedResponse b writes now state s RIL_UNSOL_NITZ_TIME_RECEIVED data
      socket_id) := by
  have released : RIL_onUnsolicitedResponse b writes now state s RIL_UNSOL_NITZ_TIME_RECEIVED data
      socket_id = releaseFor nitzInfo (grabFor nitzInfo s) := by
    unfold RIL_onUnsolicitedResponse unsolicitedWith
    simp only [entry_nitz]
    rw [if_pos (show (unsolPayload nitzInfo.responseFunction data).2 ≠ 0 from bad)]
  rw [released]
  exact (grab_admitted attached_admits _ s).1.trans (release_admitted attached_admits _ _).1

-- When the NITZ messages survive a step: a message that gets through finds no
-- older one of its socket kept, one that does not finds no message of another
-- socket kept, and a connection finds only a message of its own socket, whose
-- send succeeds.
def NitzOrderly (b : Build) (s : Ril) : Action → Prop
  | .unsolicited socket_id code data _ now writes =>
    code = RIL_UNSOL_NITZ_TIME_RECEIVED → (unsolPayload .responseString data).2 = 0 →
      ∀ copy, s.lastNITZTimeData = some copy →
        (copy.socket_id = socket_id ↔
          reaches b writes s (nitzFrame (unsolPayload .responseString data).1 now) socket_id = false)
  | .connect socket_id _ _ writes => ∀ copy, s.lastNITZTimeData = some copy →
    copy.socket_id = socket_id ∧ copy.data.length ≤ MAX_COMMAND_BYTES ∧
      writes RIL_UNSOL_NITZ_TIME_RECEIVED = true
  | .command .. | .issueLocal .. | .complete .. | .disconnect .. => True

def SentOne (s next : Ril) (f : Sent) : Prop :=
  ∃ front back, next.sent = s.sent ++ (front ++ f :: back) ∧
    ∀ g ∈ front ++ back, ∀ n, g.origin ≠ .nitz n

theorem sentOne_between {s before after next : Ril} {f : Sent} (early : Plain s before)
    (sent : after.sent = before.sent ++ [f]) (late : Plain after next) : SentOne s next f := by
  obtain ⟨front,sentFront,plainFront⟩ := early.sent
  obtain ⟨back,sentBack,plainBack⟩ := late.sent
  refine ⟨front,back,by simp [sentBack,sent,sentFront],?_⟩
  intro g present
  rcases List.mem_append.mp present with one | two
  · exact plainFront g one
  · exact plainBack g two

structure Flushed (s next : Ril) (copy : NitzCopy) : Prop where
  held : s.lastNITZTimeData = some copy
  received : next.nitzReceived = s.nitzReceived
  sent : SentOne s next ⟨copy.socket_id,copy.data,.nitz copy.number,true⟩
  stored : next.lastNITZTimeData = none

inductive News (s next : Ril) : Prop
  | plain (quiet : Plain s next)
  | arrived (socket_id : SocketId) (data : List UInt8) (ok : Bool)
      (received : next.nitzReceived = s.nitzReceived ++ [socket_id])
      (sent : SentOne s next ⟨socket_id,data,.nitz s.nitzReceived.length,ok⟩)
      (stored : next.lastNITZTimeData = if ok then s.lastNITZTimeData
        else some ⟨data,s.nitzReceived.length,socket_id⟩)
      (allowed : ∀ copy, s.lastNITZTimeData = some copy → (copy.socket_id = socket_id ↔ ok = false))
  | flushed (copy : NitzCopy) (flush : Flushed s next copy)

theorem arrival_news (s : Ril) {data : UnsolData}
    (allowed : NitzOrderly b s (.unsolicited socket_id RIL_UNSOL_NITZ_TIME_RECEIVED data state now
      writes)) :
    News s (RIL_onUnsolicitedResponse b writes now state s RIL_UNSOL_NITZ_TIME_RECEIVED data
      socket_id) := by
  by_cases good : (unsolPayload .responseString data).2 = 0
  · have permit := allowed rfl good
    rw [nitz_eq s (Prod.ext rfl good)]
    generalize nitzFrame (unsolPayload .responseString data).1 now = bytes at permit ⊢
    obtain ⟨grabbed,connected⟩ := grab_admitted attached_admits nitzInfo s
    generalize grabFor nitzInfo s = before at grabbed connected ⊢
    have same : reaches b writes before bytes socket_id = reaches b writes s bytes socket_id := by
      unfold reaches
      rw [connected]
    have came : Arrives b writes before (deliverUnsol b writes before RIL_UNSOL_NITZ_TIME_RECEIVED
      bytes socket_id) bytes socket_id := deliver_arrives before bytes
    generalize deliverUnsol b writes before RIL_UNSOL_NITZ_TIME_RECEIVED bytes socket_id =
      after at came ⊢
    obtain ⟨scheduled,_⟩ := schedule_admitted attached_admits nitzInfo after
    refine .arrived socket_id bytes (reaches b writes s bytes socket_id) ?_ ?_ ?_ permit
    · rw [scheduled.received,came.received,grabbed.received]
    · apply sentOne_between grabbed ?_ scheduled
      rw [came.sent,same,grabbed.received]
    · rw [scheduled.stored,came.stored,same,grabbed.stored,grabbed.received]
  · exact .plain (nitz_rejected s good)

theorem announce_plain (b : Build) (writes : Writes) (now : Int) (state : RadioState)
    (socket_id : SocketId) (s : Ril) :
    ∃ before, Plain s before ∧ before.connected (socketHook b.simCount socket_id) = true ∧
      onNewCommandConnect b writes now state (setConnected b s socket_id true) socket_id =
        flushNitz b writes before socket_id := by
  have opened : Plain s (setConnected b s socket_id true) := plain_of_eq rfl rfl rfl
  have announced : ∀ s code data, code ≠ RIL_UNSOL_NITZ_TIME_RECEIVED →
      Attached s (RIL_onUnsolicitedResponse b writes now state s code data socket_id) :=
    fun s _ _ other => onUnsolicited_admitted attached_admits (notNitz_of_ne other) s
  obtain ⟨quiet,connected⟩ := attached_admits.trans
    (announced (setConnected b s socket_id true) RIL_UNSOL_RIL_CONNECTED_V3 (.int RIL_VERSION_V3)
      (by decide))
    (announced _ RIL_UNSOL_RESPONSE_RADIO_STATE_CHANGED .null (by decide))
  refine ⟨_,opened.trans quiet,?_,rfl⟩
  rw [connected]
  simp [setConnected]

theorem connect_plain {s : Ril} (held : s.lastNITZTimeData = none) :
    Plain s (onNewCommandConnect b writes now state (setConnected b s socket_id true)
      socket_id) := by
  obtain ⟨before,early,_,equal⟩ := announce_plain b writes now state socket_id s
  rw [equal]
  unfold flushNitz
  rw [early.stored,held]
  exact early

theorem connect_flushes {s : Ril} {copy : NitzCopy} (held : s.lastNITZTimeData = some copy)
    (allowed : NitzOrderly b s (.connect socket_id state now writes)) :
    Flushed s (onNewCommandConnect b writes now state (setConnected b s socket_id true) socket_id)
      copy := by
  obtain ⟨before,early,connected,equal⟩ := announce_plain b writes now state socket_id s
  obtain ⟨own,fits,written⟩ := allowed copy held
  have flushed : flushNitz b writes before socket_id = {(sendResponse b writes before
      RIL_UNSOL_NITZ_TIME_RECEIVED copy.data socket_id (.nitz copy.number)).1 with
        lastNITZTimeData := none} := by
    unfold flushNitz
    rw [early.stored.trans held]
  have reached : (sendResponse b writes before RIL_UNSOL_NITZ_TIME_RECEIVED copy.data socket_id
      (.nitz copy.number)).2 = true := by
    simp [sendResponse,connected,fits,written]
  rw [equal,flushed]
  refine ⟨held,early.received,?_,rfl⟩
  apply sentOne_between early ?_ (Plain.refl _)
  rw [own,← reached]
  rfl

theorem step_news {s next : Ril} {action : Action} (allowed : NitzOrderly b s action)
    (moved : step b s action = some next) : News s next := by
  cases action with
  | command socket_id buffer state writes => exact .plain (command_plain moved)
  | issueLocal socket_id request data =>
    simp only [step,issueLocalRequest] at moved
    split at moved
    · cases moved
    · cases moved
      exact .plain (plain_of_eq rfl rfl rfl)
  | complete addr e response writes =>
    cases moved
    exact .plain (complete_admitted plain_admitsCalls s _ _ _)
  | connect socket_id state now writes =>
    cases moved
    cases held : s.lastNITZTimeData with
    | none => exact .plain (connect_plain held)
    | some copy => exact .flushed copy (connect_flushes held allowed)
  | disconnect socket_id =>
    cases moved
    exact .plain (plain_of_eq rfl rfl rfl)
  | unsolicited socket_id code data state now writes =>
    cases moved
    by_cases nitz : code = RIL_UNSOL_NITZ_TIME_RECEIVED
    · subst nitz
      exact arrival_news s allowed
    · exact .plain (onUnsolicited_admitted attached_admits (notNitz_of_ne nitz) s).1

end Steps

-- What ties the messages, the frames sent for them and the kept copy together.
structure Kept (s : Ril) : Prop where
  own : ∀ f ∈ s.sent, ∀ n, f.origin = .nitz n → s.nitzReceived[n]? = some f.socket_id
  once : ∀ n, (deliveries s n).length ≤ 1
  same : ∀ f ∈ s.sent, ∀ g ∈ s.sent, ∀ n, f.origin = .nitz n → g.origin = .nitz n → f.data = g.data
  latest : ∀ copy, s.lastNITZTimeData = some copy → Latest s copy.socket_id copy.number
  undelivered : ∀ copy, s.lastNITZTimeData = some copy → deliveries s copy.number = []
  faithful : ∀ copy, s.lastNITZTimeData = some copy →
    ∀ f ∈ s.sent, f.origin = .nitz copy.number → f.data = copy.data
  kept : ∀ i n, Latest s i n → deliveries s n = [] →
    ∃ copy, s.lastNITZTimeData = some copy ∧ copy.socket_id = i ∧ copy.number = n

theorem initial_kept : Kept .initial := by
  constructor <;> simp [Ril.initial,deliveries,Latest]

section Invariant
variable {s next : Ril}

theorem deliveries_plain {extra : List Sent} (sent : next.sent = s.sent ++ extra)
    (other : ∀ f ∈ extra, ∀ n, f.origin ≠ .nitz n) (n : Nat) : deliveries next n = deliveries s n := by
  have none : extra.filter (fun f => f.origin = .nitz n ∧ f.ok) = [] := by
    apply List.filter_eq_nil_iff.mpr
    intro f present
    simp [other f present n]
  simp only [deliveries,sent,List.filter_append,none,List.append_nil]

theorem deliveries_one {f : Sent} (sent : SentOne s next f) (n : Nat) :
    deliveries next n = deliveries s n ++ if f.origin = .nitz n ∧ f.ok then [f] else [] := by
  obtain ⟨front,back,equal,other⟩ := sent
  have none : ∀ l : List Sent, (∀ g ∈ l, g ∈ front ++ back) →
      l.filter (fun f => f.origin = .nitz n ∧ f.ok) = [] := by
    intro l within
    apply List.filter_eq_nil_iff.mpr
    intro g present
    simp [other g (within g present) n]
  have frontNone := none front fun g present => List.mem_append_left back present
  have backNone := none back fun g present => List.mem_append_right front present
  simp only [deliveries,equal,List.filter_append,List.filter_cons,frontNone,backNone,
    List.nil_append,decide_eq_true_eq]

theorem sentOne_new {f g : Sent} {n : Nat} (sent : SentOne s next f)
    (new : g ∈ next.sent.drop s.sent.length) (about : g.origin = .nitz n) : g = f := by
  obtain ⟨front,back,equal,other⟩ := sent
  rw [equal,List.drop_left] at new
  simp only [List.mem_append,List.mem_cons] at new other
  rcases new with early | same | late
  · exact absurd about (other g (.inl early) n)
  · exact same
  · exact absurd about (other g (.inr late) n)

theorem sentOne_mem {f g : Sent} {n : Nat} (sent : SentOne s next f) (present : g ∈ next.sent)
    (about : g.origin = .nitz n) : g ∈ s.sent ∨ g = f := by
  have parts : next.sent = s.sent ++ next.sent.drop s.sent.length := by
    obtain ⟨front,back,equal,_⟩ := sent
    rw [equal,List.drop_left]
  rw [parts] at present
  exact (List.mem_append.mp present).imp_right fun new => sentOne_new sent new about

theorem latest_new {socket_id : SocketId} (received : next.nitzReceived = s.nitzReceived ++ [socket_id]) :
    Latest next socket_id s.nitzReceived.length := by
  refine ⟨by simp [received],fun m later => ?_⟩
  rw [received,List.getElem?_eq_none (by simp; omega)]
  simp

theorem latest_other {socket_id other : SocketId} {n : Nat}
    (received : next.nitzReceived = s.nitzReceived ++ [socket_id]) (differs : other ≠ socket_id) :
    Latest next other n ↔ Latest s other n := by
  have equal : ∀ m : Nat, next.nitzReceived[m]? = some other ↔ s.nitzReceived[m]? = some other := by
    intro m
    rw [received,List.getElem?_append]
    split
    · rfl
    · rename_i beyond
      have old : s.nitzReceived[m]? = none := List.getElem?_eq_none (by omega)
      rw [old]
      cases m - s.nitzReceived.length <;> simp [differs.symm]
  unfold Latest
  simp only [equal,ne_eq]

theorem latest_unique {socket_id : SocketId} {m n : Nat} (one : Latest s socket_id m)
    (two : Latest s socket_id n) : m = n := by
  rcases Nat.lt_trichotomy m n with less | equal | more
  · exact absurd two.1 (one.2 n less)
  · exact equal
  · exact absurd one.1 (two.2 m more)

theorem plain_kept (kept : Kept s) (quiet : Plain s next) : Kept next := by
  obtain ⟨extra,sent,other⟩ := quiet.sent
  have old : ∀ f ∈ next.sent, ∀ n, f.origin = .nitz n → f ∈ s.sent := by
    intro f present n about
    rw [sent] at present
    rcases List.mem_append.mp present with before | new
    · exact before
    · exact absurd about (other f new n)
  have counts := deliveries_plain sent other
  constructor
  case own =>
    intro f present n about
    rw [quiet.received]
    exact kept.own f (old f present n about) n about
  case once => exact fun n => counts n ▸ kept.once n
  case same =>
    intro f present g presentG n about aboutG
    exact kept.same f (old f present n about) g (old g presentG n aboutG) n about aboutG
  case latest =>
    unfold Latest
    rw [quiet.stored,quiet.received]
    exact kept.latest
  case undelivered =>
    rw [quiet.stored]
    exact fun copy held => counts copy.number ▸ kept.undelivered copy held
  case faithful =>
    rw [quiet.stored]
    exact fun copy held f present about =>
      kept.faithful copy held f (old f present _ about) about
  case kept =>
    unfold Latest
    rw [quiet.stored,quiet.received]
    intro i n last none
    exact kept.kept i n last (counts n ▸ none)

theorem arrived_kept {socket_id : SocketId} {data : List UInt8} {ok : Bool} (kept : Kept s)
    (received : next.nitzReceived = s.nitzReceived ++ [socket_id])
    (sent : SentOne s next ⟨socket_id,data,.nitz s.nitzReceived.length,ok⟩)
    (stored : next.lastNITZTimeData = if ok then s.lastNITZTimeData
      else some ⟨data,s.nitzReceived.length,socket_id⟩)
    (allowed : ∀ copy, s.lastNITZTimeData = some copy → (copy.socket_id = socket_id ↔ ok = false)) :
    Kept next := by
  have numbered : ∀ f ∈ s.sent, ∀ n, f.origin = .nitz n → n < s.nitzReceived.length := by
    intro f present n about
    exact (List.getElem?_eq_some_iff.mp (kept.own f present n about)).1
  have fresh : deliveries s s.nitzReceived.length = [] := by
    apply List.filter_eq_nil_iff.mpr
    intro f present about
    simp only [decide_eq_true_eq] at about
    exact Nat.lt_irrefl _ (numbered f present _ about.1)
  have counts := deliveries_one sent
  have older : ∀ n, n ≠ s.nitzReceived.length → deliveries next n = deliveries s n := by
    intro n differs
    rw [counts n,if_neg (by simp [differs.symm]),List.append_nil]
  have latest : ∀ i n, Latest next i n → (i = socket_id ∧ n = s.nitzReceived.length) ∨
      (i ≠ socket_id ∧ n ≠ s.nitzReceived.length ∧ Latest s i n) := by
    intro i n last
    by_cases own : i = socket_id
    · subst own
      exact .inl ⟨rfl,latest_unique last (latest_new received)⟩
    · have before := (latest_other received own).mp last
      exact .inr ⟨own,Nat.ne_of_lt (List.getElem?_eq_some_iff.mp before.1).1,before⟩
  have before : ∀ copy, s.lastNITZTimeData = some copy → copy.number ≠ s.nitzReceived.length := by
    intro copy held
    exact Nat.ne_of_lt (List.getElem?_eq_some_iff.mp (kept.latest copy held).1).1
  have copies : ∀ copy, next.lastNITZTimeData = some copy →
      (s.lastNITZTimeData = some copy ∧ copy.socket_id ≠ socket_id) ∨
      (ok = false ∧ copy = ⟨data,s.nitzReceived.length,socket_id⟩) := by
    intro copy held
    rw [stored] at held
    cases ok with
    | true => exact .inl ⟨held,fun same => by simp at held allowed; exact allowed copy held same⟩
    | false => exact .inr ⟨rfl,(Option.some.inj held).symm⟩
  constructor
  case own =>
    intro f present n about
    rcases sentOne_mem sent present about with old | rfl
    · have place := kept.own f old n about
      rw [received,List.getElem?_append_left (numbered f old n about)]
      exact place
    · cases about
      simp [received]
  case once =>
    intro n
    by_cases new : n = s.nitzReceived.length
    · rw [counts n,new,fresh,List.nil_append]
      split <;> simp
    · rw [older n new]
      exact kept.once n
  case same =>
    intro f present g presentG n about aboutG
    rcases sentOne_mem sent present about with old | rfl
    · rcases sentOne_mem sent presentG aboutG with oldG | rfl
      · exact kept.same f old g oldG n about aboutG
      · cases aboutG
        exact absurd (numbered f old _ about) (Nat.lt_irrefl _)
    · cases about
      rcases sentOne_mem sent presentG aboutG with oldG | rfl
      · exact absurd (numbered g oldG _ aboutG) (Nat.lt_irrefl _)
      · rfl
  case latest =>
    intro copy held
    rcases copies copy held with ⟨old,other⟩ | ⟨_,rfl⟩
    · exact (latest_other received other).mpr (kept.latest copy old)
    · exact latest_new received
  case undelivered =>
    intro copy held
    rcases copies copy held with ⟨old,_⟩ | ⟨failed,rfl⟩
    · rw [older _ (before copy old)]
      exact kept.undelivered copy old
    · rw [counts,fresh]
      simp [failed]
  case faithful =>
    intro copy held f present about
    rcases copies copy held with ⟨old,_⟩ | ⟨_,rfl⟩
    · rcases sentOne_mem sent present about with earlier | rfl
      · exact kept.faithful copy old f earlier about
      · exact absurd (Origin.nitz.inj about).symm (before copy old)
    · rcases sentOne_mem sent present about with earlier | rfl
      · exact absurd (numbered f earlier _ about) (Nat.lt_irrefl _)
      · rfl
  case kept =>
    intro i n last none
    rcases latest i n last with ⟨rfl,rfl⟩ | ⟨other,new,lastBefore⟩
    · cases ok with
      | true =>
        rw [counts] at none
        simp at none
      | false => exact ⟨_,stored,rfl,rfl⟩
    · rw [older n new] at none
      obtain ⟨copy,old,own,number⟩ := kept.kept i n lastBefore none
      cases ok with
      | true => exact ⟨copy,stored.trans old,own,number⟩
      | false => exact absurd (own.symm.trans ((allowed copy old).mpr rfl)) other

theorem flushed_kept {copy : NitzCopy} (kept : Kept s) (flush : Flushed s next copy) :
    Kept next := by
  have counts := deliveries_one flush.sent
  have own : s.nitzReceived[copy.number]? = some copy.socket_id := (kept.latest copy flush.held).1
  constructor
  case own =>
    intro f present n about
    rw [flush.received]
    rcases sentOne_mem flush.sent present about with old | rfl
    · exact kept.own f old n about
    · cases about
      exact own
  case once =>
    intro n
    rw [counts n]
    by_cases this : copy.number = n
    · rw [← this,kept.undelivered copy flush.held]
      simp
    · rw [if_neg (by simp [this]),List.append_nil]
      exact kept.once n
  case same =>
    intro f present g presentG n about aboutG
    rcases sentOne_mem flush.sent present about with old | rfl
    · rcases sentOne_mem flush.sent presentG aboutG with oldG | rfl
      · exact kept.same f old g oldG n about aboutG
      · cases aboutG
        exact kept.faithful copy flush.held f old about
    · cases about
      rcases sentOne_mem flush.sent presentG aboutG with oldG | rfl
      · exact (kept.faithful copy flush.held g oldG aboutG).symm
      · rfl
  case latest => simp [flush.stored]
  case undelivered => simp [flush.stored]
  case faithful => simp [flush.stored]
  case kept =>
    intro i n last none
    rw [counts n] at none
    obtain ⟨before,new⟩ := List.append_eq_nil_iff.mp none
    unfold Latest at last
    rw [flush.received] at last
    obtain ⟨held,stored,_,number⟩ := kept.kept i n last before
    cases stored.symm.trans flush.held
    simp [number] at new

theorem news_kept (kept : Kept s) (news : News s next) : Kept next := by
  cases news with
  | plain quiet => exact plain_kept kept quiet
  | arrived socket_id data ok received sent stored allowed =>
    exact arrived_kept kept received sent stored allowed
  | flushed copy flush => exact flushed_kept kept flush

theorem run_kept {b : Build} {actions : List Action}
    (orderly : Obeys (step b) (NitzOrderly b) .initial actions)
    (ran : run (step b) .initial actions = some s) : Kept s :=
  obeys_invariant Kept (fun _ _ _ kept allowed moved => news_kept kept (step_news allowed moved))
    initial_kept orderly ran

theorem news_latest {f : Sent} {n : Nat} (kept : Kept s) (news : News s next)
    (new : f ∈ next.sent.drop s.sent.length) (about : f.origin = .nitz n) :
    Latest next f.socket_id n := by
  cases news with
  | plain quiet =>
    obtain ⟨extra,sent,other⟩ := quiet.sent
    rw [sent,List.drop_left] at new
    exact absurd about (other f new n)
  | arrived socket_id data ok received sent stored allowed =>
    have same := sentOne_new sent new about
    subst same
    cases about
    exact latest_new received
  | flushed copy flush =>
    have same := sentOne_new flush.sent new about
    subst same
    cases about
    have last := kept.latest copy flush.held
    unfold Latest at last ⊢
    rw [flush.received]
    exact last

end Invariant

-- What a step owes the NITZ messages: it delivers none twice, on another socket
-- or after a newer one, a connection gets the latest message of its socket if
-- that is still owed, and what is still owed is kept as it was first sent.
structure Lossless (before : Ril) (action : Action) (after : Ril) : Prop where
  once : ∀ n, (deliveries after n).length ≤ 1
  fresh : ∀ f ∈ after.sent.drop before.sent.length, ∀ n, f.origin = .nitz n → f.ok = true →
    Latest after f.socket_id n
  resent : ∀ socket_id state now writes, action = .connect socket_id state now writes →
    ∀ n, Latest before socket_id n → deliveries before n = [] →
      ∃ f ∈ after.sent.drop before.sent.length, f.origin = .nitz n ∧ f.socket_id = socket_id
  stored : ∀ socket_id n, Latest after socket_id n → deliveries after n = [] →
    ∃ copy, after.lastNITZTimeData = some copy ∧ copy.number = n ∧ copy.socket_id = socket_id ∧
      ∀ f ∈ after.sent, f.origin = .nitz n → f.data = copy.data
  same : ∀ f ∈ after.sent, ∀ g ∈ after.sent, ∀ n, f.origin = .nitz n → g.origin = .nitz n →
    f.data = g.data

theorem nitz_lossless (b : Build) (actions : List Action)
    (orderly : Obeys (step b) (NitzOrderly b) .initial actions) (front : List Action)
    (action : Action) (back : List Action) (split : actions = front ++ action :: back)
    (before after : Ril) (ran : run (step b) .initial front = some before)
    (moved : step b before action = some after) : Lossless before action after := by
  subst split
  have kept := run_kept (obeys_front orderly) ran
  have allowed := obeys_at orderly ran
  have news := step_news allowed moved
  have keptAfter := news_kept kept news
  refine ⟨keptAfter.once,?_,?_,?_,keptAfter.same⟩
  · intro f new n about _
    exact news_latest kept news new about
  · intro socket_id state now writes connect n last owed
    subst connect
    cases moved
    obtain ⟨copy,held,own,number⟩ := kept.kept socket_id n last owed
    obtain ⟨early,late,sent,_⟩ := (connect_flushes held allowed).sent
    refine ⟨⟨copy.socket_id,copy.data,.nitz copy.number,true⟩,?_,congrArg Origin.nitz number,own⟩
    rw [sent,List.drop_left]
    simp
  · intro socket_id n last owed
    obtain ⟨copy,held,own,number⟩ := keptAfter.kept socket_id n last owed
    exact ⟨copy,held,number,own,fun f present about =>
      keptAfter.faithful copy held f present (number ▸ about)⟩

def nitzMessage : Action := .unsolicited .socket1 RIL_UNSOL_NITZ_TIME_RECEIVED (.vendor [1] 0) .off 5
  fun _ => true

def reconnect : Action := .connect .socket1 .off 6 fun _ => true

theorem nitz_lossless_reconnect :
    ∃ before after, run (step (asciiBuild 1)) .initial [nitzMessage] = some before ∧
      step (asciiBuild 1) before reconnect = some after ∧ (deliveries after 0).length = 1 ∧
      Lossless before reconnect after := by
  refine ⟨_,_,rfl,rfl,by decide,?_⟩
  apply nitz_lossless (asciiBuild 1) [nitzMessage,reconnect] _ [nitzMessage] reconnect [] rfl _ _ rfl rfl
  refine ⟨by simp [NitzOrderly,nitzMessage,Ril.initial],fun next moved => ?_⟩
  cases moved
  refine ⟨?_,fun _ _ => trivial⟩
  intro copy held
  cases held
  decide

-- The flush of a first connection fails and the message is gone.
theorem failed_flush_forgets :
    ∃ before after, run (step (asciiBuild 1)) .initial
        [nitzMessage,
         .connect .socket1 .off 6 fun code => code ≠ RIL_UNSOL_NITZ_TIME_RECEIVED,
         .disconnect .socket1] = some before ∧
      step (asciiBuild 1) before reconnect = some after ∧ ¬ Lossless before reconnect after := by
  refine ⟨_,_,rfl,rfl,fun lossless => ?_⟩
  have single : ∀ m, 0 < m → [SocketId.socket1][m]? ≠ some .socket1 := by
    intro m later
    cases m with
    | zero => exact absurd later (Nat.lt_irrefl 0)
    | succ m => simp
  obtain ⟨f,new,about,_⟩ := lossless.resent .socket1 .off 6 (fun _ => true) rfl 0 ⟨rfl,single⟩
    (by decide)
  exact absurd about ((by decide : ∀ f ∈ _, f.origin ≠ Origin.nitz 0) f new)

end SemcMsm7x30.Nitz

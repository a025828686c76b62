import SemcMsm7x30.Parcel
import SemcMsm7x30.Connections

namespace SemcMsm7x30.DebugPort
open Parcel

-- What is there when recv is called: a piece of the stream, or an error such as a
-- signal. At the end of the list the peer has closed.
inductive Arrival where
  | bytes (piece : List UInt8)
  | error
  deriving DecidableEq, Repr

def recv (arrivals : List Arrival) (size : Nat) : Int × List UInt8 × List Arrival :=
  match arrivals with
  | [] => (0,[],[])
  | .error::rest => (-1,[],rest)
  | .bytes piece::rest =>
    if piece.length ≤ size then (piece.length,piece,rest)
    else (size,piece.take size,.bytes (piece.drop size)::rest)

-- `bytes` is the part that has been written.
structure Buffer where
  size : Nat
  bytes : List UInt8
  freed : Nat
  deriving DecidableEq, Repr

inductive Sent where
  | null
  | ints (data : List Int)
  | strings (data : List (List UInt8))
  | dial (address : List UInt8) (clir : Int)
  deriving DecidableEq, Repr

inductive Effect where
  | issueLocalRequest (request : Nat) (data : Sent) (socket_id : SocketId)
  | RIL_UNSOL_RESPONSE (unsolResponse : Nat) (socket_id : SocketId)
  | sleep (seconds : Nat)
  deriving DecidableEq, Repr

def RIL_REQUEST_DIAL : Nat := 10
def RIL_REQUEST_HANGUP : Nat := 12
def RIL_REQUEST_RADIO_POWER : Nat := 23
def RIL_REQUEST_SETUP_DATA_CALL : Nat := 27
def RIL_REQUEST_ANSWER : Nat := 40
def RIL_REQUEST_DEACTIVATE_DATA_CALL : Nat := 41
def RIL_REQUEST_SET_NETWORK_SELECTION_AUTOMATIC : Nat := 46
def RIL_REQUEST_RESET_RADIO : Nat := 58
def RIL_REQUEST_OEM_HOOK_RAW : Nat := 59
def RIL_UNSOL_RESPONSE_VOICE_NETWORK_STATE_CHANGED : Nat := 1002

-- The array `args` has room for `room` pointers; its slots are filled in order
-- with NULL or the number of a buffer. `closed` are the descriptors closed.
structure Debug where
  arrivals : List Arrival
  room : Nat
  args : List (Option Nat)
  buffers : List Buffer
  socket_id : SocketId
  effects : List Effect
  closed : List Int
  deriving DecidableEq, Repr

-- A callback is left by an access to what is not there, or by a return.
inductive Stop where
  | fault
  | returned (s : Debug)

abbrev Ran := Except Stop

def argAt (s : Debug) (k : Nat) : Ran (Option Nat) :=
  match s.args[k]? with
  | none => .error .fault
  | some arg => .ok arg

def bufferAt (s : Debug) (arg : Option Nat) : Ran (Nat × Buffer) :=
  match arg with
  | none => .error .fault
  | some p =>
    match s.buffers[p]? with
    | none => .error .fault
    | some buffer => .ok (p,buffer)

def textAt (s : Debug) (k : Nat) : Ran (List UInt8) := do
  let arg ← argAt s k
  let (_,buffer) ← bufferAt s arg
  if 0 ∈ buffer.bytes then .ok (buffer.bytes.takeWhile (· != 0)) else .error .fault

def isspace (b : UInt8) : Bool := b == 32 || (9 ≤ b && b ≤ 13)

def digits (text : List UInt8) : Int :=
  (text.takeWhile fun b => 48 ≤ b && b ≤ 57).foldl (fun n b => 10*n+(b.toNat-48 : Nat)) 0

-- A value out of the range of an int becomes its nearest end.
def atoi (text : List UInt8) : Int :=
  let value :=
    match text.dropWhile isspace with
    | 45::rest => -digits rest
    | 43::rest => digits rest
    | text => digits text
  max (-2^31) (min (2^31-1) value)

def freeArg (s : Debug) (i : Nat) : Ran Debug := do
  match ← argAt s i with
  | none => .ok s
  | some p =>
    let (p,buffer) ← bufferAt s (some p)
    .ok {s with buffers := s.buffers.set p {buffer with freed := buffer.freed+1}}

def freeDebugCallbackArgs (number : Int) (s : Debug) : Ran Debug :=
  (List.range number.toNat).foldlM freeArg s

def giveUp (i : Nat) (s : Debug) : Ran Debug := do
  let s ← freeDebugCallbackArgs i s
  .error (.returned s)

section Callback
variable (malloc : Nat → Nat → Bool) (simCount : Nat) (fdCommand : SocketId → Int)

def allocate (s : Debug) (i size : Nat) : Ran Debug :=
  if s.room ≤ i then .error .fault
  else if malloc (i+1) size then
    .ok {s with args := s.args ++ [some s.buffers.length],buffers := s.buffers ++ [⟨size,[],0⟩]}
  else .ok {s with args := s.args ++ [none]}

def recvArg (s : Debug) (i size : Nat) : Ran (Int × Debug) := do
  let (got,piece,arrivals) := recv s.arrivals size
  let s := {s with arrivals := arrivals}
  match ← argAt s i with
  | none => .ok (if piece = [] then got else -1,s)
  | some p =>
    let (p,buffer) ← bufferAt s (some p)
    if buffer.size < piece.length then .error .fault
    else
      let bytes := piece ++ buffer.bytes.drop piece.length
      .ok (got,{s with buffers := s.buffers.set p {buffer with bytes := bytes}})

def terminate (s : Debug) (i : Nat) (len : Int) : Ran Debug := do
  let arg ← argAt s i
  let (p,buffer) ← bufferAt s arg
  if 0 ≤ len ∧ len < buffer.size then
    let bytes := buffer.bytes.take len.toNat ++ 0::buffer.bytes.drop (len.toNat+1)
    .ok {s with buffers := s.buffers.set p {buffer with bytes := bytes}}
  else .error .fault

def chooseSocket (s : Debug) (number : Int) (i : Nat) : Ran Debug :=
  if (i : Int)+1 = number then do
    let text ← textAt s i
    .ok {s with socket_id := Connections.debugSocket simCount (atoi text)}
  else .ok s

def intOf (bytes : List UInt8) : Int := (setData bytes).int32At 0

def fillArg (number : Int) (s : Debug) (i : Nat) (len : Int) : Ran Debug := do
  let s ← allocate malloc s i (sizeT (len+1))
  let (got,s) ← recvArg s i (sizeT len)
  if got ≠ len then giveUp i s
  else
    let s ← terminate s i len
    chooseSocket simCount s number i

def readArg (number : Int) (s : Debug) (i : Nat) : Ran Debug :=
  let (got,bytes,arrivals) := recv s.arrivals 4
  let s := {s with arrivals := arrivals}
  if got ≠ 4 then giveUp i s else fillArg malloc simCount number s i (intOf bytes)

def issue (s : Debug) (request : Nat) (data : Sent) : Debug :=
  {s with effects := s.effects ++ [.issueLocalRequest request data s.socket_id]}

def closeCommand (s : Debug) : Debug :=
  if s.socket_id = .socket1 ∧ fdCommand .socket1 > 0 then
    {s with closed := s.closed ++ [fdCommand .socket1]}
  else if simCount = 2 ∧ s.socket_id = .socket2 ∧ fdCommand .socket2 > 0 then
    {s with closed := s.closed ++ [fdCommand .socket2]}
  else s

def issueCommand (s : Debug) (command : Int) : Ran Debug :=
  if command = 0 then .ok (issue s RIL_REQUEST_RESET_RADIO .null)
  else if command = 1 then
    .ok (closeCommand simCount fdCommand (issue s RIL_REQUEST_RADIO_POWER (.ints [0])))
  else if command = 2 then
    .ok {s with effects := s.effects ++
      [.RIL_UNSOL_RESPONSE RIL_UNSOL_RESPONSE_VOICE_NETWORK_STATE_CHANGED s.socket_id]}
  else if command = 3 then
    .ok (issue s RIL_REQUEST_OEM_HOOK_RAW (.ints [65536,16,1,32,0,8]))
  else if command = 4 then
    .ok (issue s RIL_REQUEST_OEM_HOOK_RAW (.ints [65536,16,0,32,0,8]))
  else if command = 5 then
    let s := issue s RIL_REQUEST_RADIO_POWER (.ints [1])
    .ok (issue {s with effects := s.effects ++ [.sleep 2]}
      RIL_REQUEST_SET_NETWORK_SELECTION_AUTOMATIC .null)
  else if command = 6 then do
    let apn ← textAt s 1
    .ok (issue s RIL_REQUEST_SETUP_DATA_CALL (.strings [apn]))
  else if command = 7 then
    .ok (issue s RIL_REQUEST_DEACTIVATE_DATA_CALL (.strings [[49]]))
  else if command = 8 then do
    let address ← textAt s 1
    .ok (issue s RIL_REQUEST_DIAL (.dial address 0))
  else if command = 9 then .ok (issue s RIL_REQUEST_ANSWER .null)
  else if command = 10 then .ok (issue s RIL_REQUEST_HANGUP (.ints [1]))
  else .ok s

def command (s : Debug) : Ran Debug := do
  let text ← textAt s 0
  issueCommand simCount fdCommand s (atoi text)

def serve (acceptFD : Int) (arrivals : List Arrival) : Ran Debug := do
  let (got,bytes,arrivals) := recv arrivals 4
  let s : Debug := ⟨arrivals,0,[],[],.socket1,[],[]⟩
  if got ≠ 4 then .error (.returned s)
  else
    let number := intOf bytes
    let size := sizeT (4*number)
    let s := {s with room := if malloc 0 size then size/4 else 0}
    let s ← (List.range number.toNat).foldlM (readArg malloc simCount number) s
    let s ← command simCount fdCommand s
    let s ← freeDebugCallbackArgs number s
    .ok {s with closed := s.closed ++ [acceptFD]}

def debugCallback (acceptFD : Int) (arrivals : List Arrival) : Option Debug :=
  if acceptFD < 0 then some ⟨arrivals,0,[],[],.socket1,[],[]⟩
  else
    match serve malloc simCount fdCommand acceptFD arrivals with
    | .ok s | .error (.returned s) => some s
    | .error .fault => none

def Survives (acceptFD : Int) (arrivals : List Arrival) : Prop :=
  ∃ s, debugCallback malloc simCount fdCommand acceptFD arrivals = some s ∧
    acceptFD ∈ s.closed ∧ ∀ buffer ∈ s.buffers,buffer.freed = 1

end Callback

def Leaves {α : Type} (post : α → Prop) : Ran α → Prop
  | .ok a => post a
  | .error .fault => True
  | .error (.returned s) => s.closed = []

def Lost {α : Type} : Ran α → Prop := Leaves fun _ => False

theorem Leaves.bind {α β : Type} {post : α → Prop} {after : β → Prop} {x : Ran α} {f : α → Ran β}
    (first : Leaves post x) (second : ∀ a,post a → Leaves after (f a)) : Leaves after (x >>= f) := by
  cases x with
  | ok a => exact second a first
  | error stop =>
    cases stop with
    | fault => trivial
    | returned s => exact first

theorem Lost.bind {α β : Type} {after : β → Prop} {x : Ran α} (lost : Lost x) (f : α → Ran β) :
    Leaves after (x >>= f) :=
  Leaves.bind lost fun _ none => none.elim

theorem Lost.leaves {α : Type} {post : α → Prop} {x : Ran α} (lost : Lost x) : Leaves post x := by
  cases x with
  | ok a => exact lost.elim
  | error stop =>
    cases stop with
    | fault => trivial
    | returned s => exact lost

theorem arg_leaves (s : Debug) (k : Nat) : Leaves (fun _ => True) (argAt s k) := by
  unfold argAt
  split <;> trivial

theorem buffer_leaves (s : Debug) (arg : Option Nat) : Leaves (fun _ => True) (bufferAt s arg) := by
  unfold bufferAt
  split
  · trivial
  · split <;> trivial

theorem free_leaves {s : Debug} (unclosed : s.closed = []) (i : Nat) :
    Leaves (fun s => s.closed = []) (freeArg s i) := by
  refine (arg_leaves s i).bind fun arg _ => ?_
  cases arg with
  | none => exact unclosed
  | some p => exact (buffer_leaves s (some p)).bind fun _ _ => unclosed

theorem frees_leave {s : Debug} (unclosed : s.closed = []) (number : Int) :
    Leaves (fun s => s.closed = []) (freeDebugCallbackArgs number s) := by
  rw [freeDebugCallbackArgs]
  generalize List.range number.toNat = slots
  induction slots generalizing s with
  | nil => exact unclosed
  | cons i slots ih =>
    rw [List.foldlM_cons]
    exact (free_leaves unclosed i).bind fun next kept => ih kept

theorem give_up_lost {s : Debug} (unclosed : s.closed = []) (i : Nat) : Lost (giveUp i s) :=
  (frees_leave unclosed i).bind fun _ kept => kept

theorem recv_result (arrivals : List Arrival) (size : Nat) :
    ((recv arrivals size).1 = -1 ∧ (recv arrivals size).2.1 = []) ∨
    ((recv arrivals size).1 = (recv arrivals size).2.1.length ∧
      (recv arrivals size).2.1.length ≤ size) := by
  unfold recv
  split
  · exact .inr ⟨rfl,Nat.zero_le _⟩
  · exact .inl ⟨rfl,rfl⟩
  · split
    · rename_i small
      exact .inr ⟨rfl,small⟩
    · rename_i large
      have length : (List.take size _).length = size := List.length_take_of_le (Nat.le_of_not_le large)
      exact .inr ⟨congrArg Nat.cast length.symm,le_of_eq length⟩

def full (arg : List UInt8) : Buffer := ⟨arg.length+1,arg ++ [0],0⟩

structure Filled (s : Debug) (args : List (List UInt8)) : Prop where
  slots : s.args = (List.range args.length).map some
  buffers : s.buffers = args.map full
  unclosed : s.closed = []

theorem Filled.textAt {s : Debug} {args : List (List UInt8)} (filled : Filled s args) (k : Nat) :
    textAt s k =
      match args[k]? with
      | none => .error .fault
      | some arg => .ok ((arg ++ [0]).takeWhile (· != 0)) := by
  rw [DebugPort.textAt,argAt,filled.slots,List.getElem?_map]
  cases found : args[k]? with
  | none =>
    have past : (List.range args.length)[k]? = none :=
      List.getElem?_eq_none (by rw [List.length_range]; exact List.getElem?_eq_none_iff.mp found)
    rw [past]
    rfl
  | some arg =>
    obtain ⟨inside,-⟩ := List.getElem?_eq_some_iff.mp found
    have slot : (List.range args.length)[k]? = some k := List.getElem?_range inside
    have buffer : s.buffers[k]? = some (full arg) := by
      rw [filled.buffers,List.getElem?_map,found]
      rfl
    rw [slot]
    show (bufferAt s (some k) >>= _) = _
    rw [bufferAt,buffer]
    simp only [full]
    exact if_pos (List.mem_append_right arg (List.mem_singleton_self 0))

theorem int_bounds (bytes : List UInt8) : -2^31 ≤ intOf bytes ∧ intOf bytes < 2^31 := by
  have small : ∀ k,(setData bytes).byteAt k < 2^8 := fun k => UInt8.toNat_lt _
  have at0 := small 0
  have at1 := small 1
  have at2 := small 2
  have at3 := small 3
  have word : (setData bytes).wordAt 0 < 2^32 := by
    simp only [wordAt,Nat.zero_add]
    omega
  simp only [intOf,int32At,signed]
  split <;> omega

section Arguments
variable {malloc : Nat → Nat → Bool} (simCount : Nat) (number : Int) {s : Debug}
  {args : List (List UInt8)}

theorem Filled.choose (filled : Filled s args) (i : Nat) (written : i < args.length) :
    ∃ socket_id, chooseSocket simCount s number i = .ok {s with socket_id := socket_id} := by
  unfold chooseSocket
  split
  · rw [filled.textAt,List.getElem?_eq_getElem written]
    exact ⟨_,rfl⟩
  · exact ⟨s.socket_id,rfl⟩

def reading (s : Debug) (arrivals : List Arrival) (buffer : Buffer) : Debug :=
  {s with
    arrivals := arrivals
    args := s.args ++ [some s.buffers.length]
    buffers := s.buffers ++ [buffer]}

theorem Filled.slot (filled : Filled s args) (next : Debug) (p : Option Nat)
    (one_more : next.args = s.args ++ [p]) : argAt next args.length = .ok p := by
  have length : s.args.length = args.length := by
    rw [filled.slots,List.length_map,List.length_range]
  rw [argAt,one_more,←length,List.getElem?_concat_length]

theorem reading_buffer (s : Debug) (arrivals : List Arrival) (buffer : Buffer) :
    bufferAt (reading s arrivals buffer) (some s.buffers.length) = .ok (s.buffers.length,buffer) := by
  rw [bufferAt,reading,List.getElem?_concat_length]

theorem Filled.receive (filled : Filled s args) {arrivals left : List Arrival} (buffer : Buffer)
    {size : Nat} {got : Int} {piece : List UInt8} (received : recv arrivals size = (got,piece,left)) :
    recvArg (reading s arrivals buffer) args.length size =
      if buffer.size < piece.length then .error .fault
      else
        .ok (got,reading s left {buffer with bytes := piece ++ buffer.bytes.drop piece.length}) := by
  have slot := filled.slot (reading s left buffer) _ rfl
  have buffered := reading_buffer s left buffer
  have same : {reading s arrivals buffer with arrivals := left} = reading s left buffer := rfl
  rw [recvArg,show (reading s arrivals buffer).arrivals = arrivals from rfl,received]
  simp only [same,slot,buffered,bind,Except.bind]
  split
  · rfl
  · simp only [reading,List.set_append_right _ _ (le_refl _),Nat.sub_self,List.set_cons_zero]

def refused (s : Debug) (arrivals : List Arrival) : Debug :=
  {s with arrivals := arrivals,args := s.args ++ [none]}

theorem Filled.receive_null (filled : Filled s args) {arrivals left : List Arrival} {size : Nat}
    {got : Int} {piece : List UInt8} (received : recv arrivals size = (got,piece,left)) :
    recvArg (refused s arrivals) args.length size =
      .ok (if piece = [] then got else -1,refused s left) := by
  have slot := filled.slot (refused s left) _ rfl
  have same : {refused s arrivals with arrivals := left} = refused s left := rfl
  rw [recvArg,show (refused s arrivals).arrivals = arrivals from rfl,received]
  simp only [same,slot,bind,Except.bind]

theorem allocates (room : args.length < s.room) (size : Nat) :
    allocate malloc s args.length size =
      .ok (if malloc (args.length+1) size then reading s s.arrivals ⟨size,[],0⟩
        else refused s s.arrivals) := by
  rw [allocate,if_neg (by omega)]
  split <;> rfl

theorem Filled.terminates (filled : Filled s args) (arrivals : List Arrival) (buffer : Buffer)
    (len : Int) :
    terminate (reading s arrivals buffer) args.length len =
      if 0 ≤ len ∧ len < buffer.size then
        let bytes := buffer.bytes.take len.toNat ++ 0::buffer.bytes.drop (len.toNat+1)
        .ok (reading s arrivals {buffer with bytes := bytes})
      else .error .fault := by
  have slot := filled.slot (reading s arrivals buffer) _ rfl
  rw [terminate]
  simp only [slot,reading_buffer,bind,Except.bind]
  split
  · simp only [reading,List.set_append_right _ _ (le_refl _),Nat.sub_self,List.set_cons_zero]
  · rfl

theorem fill_complete (filled : Filled s args) {arg : List UInt8} {rest : List Arrival}
    (room : args.length < s.room) (allocated : malloc (args.length+1) (arg.length+1) = true)
    (small : (arg.length : Int) < 2^31)
    (received : recv s.arrivals arg.length = ((arg.length : Int),arg,rest)) :
    ∃ next, fillArg malloc simCount number s args.length arg.length = .ok next ∧
      Filled next (args ++ [arg]) ∧ next.arrivals = rest ∧ next.room = s.room := by
  have size : sizeT ((arg.length : Int)+1) = arg.length+1 := by simp only [sizeT]; omega
  have len : sizeT (arg.length : Int) = arg.length := by simp only [sizeT]; omega
  have buffers : s.buffers.length = args.length := by rw [filled.buffers,List.length_map]
  have after : Filled (reading s rest (full arg)) (args ++ [arg]) := by
    refine ⟨?_,?_,filled.unclosed⟩
    · show s.args ++ [some s.buffers.length] = _
      rw [filled.slots,buffers,List.length_append,List.length_singleton,List.range_succ,
        List.map_append]
      rfl
    · show s.buffers ++ [full arg] = _
      rw [filled.buffers,List.map_append]
      rfl
  obtain ⟨socket_id,chosen⟩ := after.choose simCount number args.length
    (by rw [List.length_append,List.length_singleton]; omega)
  refine ⟨{reading s rest (full arg) with socket_id := socket_id},?_,
    ⟨after.slots,after.buffers,after.unclosed⟩,rfl,rfl⟩
  have receives : recvArg (reading s s.arrivals ⟨arg.length+1,[],0⟩) args.length arg.length =
      .ok ((arg.length : Int),reading s rest ⟨arg.length+1,arg,0⟩) := by
    rw [filled.receive _ received,if_neg (by simp)]
    simp
  have terminates : terminate (reading s rest ⟨arg.length+1,arg,0⟩) args.length arg.length =
      .ok (reading s rest (full arg)) := by
    rw [filled.terminates,if_pos (by simp),Int.toNat_natCast,List.take_length,
      List.drop_eq_nil_of_le (Nat.le_succ _)]
    rfl
  rw [fillArg,size,len,allocates room,if_pos allocated]
  simp only [receives,terminates,bind,Except.bind,ne_eq,not_true_eq_false,if_false]
  exact chosen

theorem fill_incomplete (filled : Filled s args) {len : Int} (low : -2^31 ≤ len)
    (high : len < 2^31)
    (missing : ¬(0 ≤ len ∧ args.length < s.room ∧ malloc (args.length+1) (len+1).toNat = true ∧
      (recv s.arrivals len.toNat).1 = len)) :
    Lost (fillArg malloc simCount number s args.length len) := by
  rw [fillArg]
  cases received : recv s.arrivals (sizeT len) with
  | mk got more =>
    obtain ⟨piece,left⟩ := more
    by_cases room : s.room ≤ args.length
    · rw [allocate,if_pos room]
      trivial
    · have room := Nat.lt_of_not_le room
      rw [allocates room]
      cases allocated : malloc (args.length+1) (sizeT (len+1)) with
      | false =>
        have unclosed : (refused s left).closed = [] := filled.unclosed
        have slot := filled.slot (refused s left) _ rfl
        rw [if_neg (by decide)]
        simp only [filled.receive_null received,bind,Except.bind]
        generalize (if piece = [] then got else -1) = taken
        split
        · exact give_up_lost unclosed _
        · simp only [terminate,slot,bufferAt,bind,Except.bind]
          trivial
      | true =>
        have unclosed : ∀ buffer,(reading s left buffer).closed = [] := fun _ => filled.unclosed
        rw [if_pos rfl]
        simp only [filled.receive _ received,bind,Except.bind]
        by_cases outside : sizeT (len+1) < piece.length
        · rw [if_pos outside]
          trivial
        · rw [if_neg outside]
          simp only [ne_eq]
          split
          · exact give_up_lost (unclosed _) _
          · rename_i all
            have negative : ¬(0 ≤ len ∧ len < (sizeT (len+1) : Nat)) := by
              intro inside
              have same : sizeT len = len.toNat ∧ sizeT (len+1) = (len+1).toNat := by
                simp only [sizeT]
                omega
              rw [same.1] at received
              rw [same.2] at allocated
              exact missing ⟨inside.1,room,allocated,by rw [received]; exact not_not.mp all⟩
            rw [filled.terminates,if_neg negative]
            trivial

def Brings (malloc : Nat → Nat → Bool) (i : Nat) (arrivals : List Arrival) (arg : List UInt8)
    (rest : List Arrival) : Prop :=
  ∃ header mid, recv arrivals 4 = (4,header,mid) ∧ intOf header = arg.length ∧
    malloc (i+1) (arg.length+1) = true ∧ recv mid arg.length = ((arg.length : Int),arg,rest)

inductive Delivered (malloc : Nat → Nat → Bool) (arrivals : List Arrival) :
    List (List UInt8) → List Arrival → Prop where
  | nothing : Delivered malloc arrivals [] arrivals
  | another {args : List (List UInt8)} {middle rest : List Arrival} {arg : List UInt8}
      (before : Delivered malloc arrivals args middle)
      (brings : Brings malloc args.length middle arg rest) :
      Delivered malloc arrivals (args ++ [arg]) rest

theorem Filled.elsewhere (filled : Filled s args) (arrivals : List Arrival) :
    Filled {s with arrivals := arrivals} args :=
  ⟨filled.slots,filled.buffers,filled.unclosed⟩

theorem read_complete (filled : Filled s args) {arg : List UInt8} {rest : List Arrival}
    (room : args.length < s.room) (brings : Brings malloc args.length s.arrivals arg rest) :
    ∃ next, readArg malloc simCount number s args.length = .ok next ∧
      Filled next (args ++ [arg]) ∧ next.arrivals = rest ∧ next.room = s.room := by
  obtain ⟨header,mid,length,value,allocated,received⟩ := brings
  have small := (int_bounds header).2
  rw [value] at small
  obtain ⟨next,filled_next⟩ :=
    fill_complete simCount number (filled.elsewhere mid) room allocated small
      received
  refine ⟨next,?_,filled_next.2⟩
  rw [readArg,length]
  simp only [ne_eq,not_true_eq_false,if_false,value]
  exact filled_next.1

theorem read_leaves (filled : Filled s args) :
    Leaves (fun next => ∃ arg,Brings malloc args.length s.arrivals arg next.arrivals ∧
      Filled next (args ++ [arg]) ∧ args.length < s.room ∧ next.room = s.room)
      (readArg malloc simCount number s args.length) := by
  cases length : recv s.arrivals 4 with
  | mk got more =>
    obtain ⟨header,mid⟩ := more
    have moved := filled.elsewhere mid
    obtain ⟨low,high⟩ := int_bounds header
    rw [readArg,length]
    simp only
    split
    · exact (give_up_lost moved.unclosed _).leaves
    · rename_i whole
      rw [not_not.mp whole] at length
      generalize value : intOf header = len at low high
      by_cases there : 0 ≤ len ∧ args.length < s.room ∧
          malloc (args.length+1) (len+1).toNat = true ∧ (recv mid len.toNat).1 = len
      · obtain ⟨positive,room,allocated,all⟩ := there
        have size := recv_result mid len.toNat
        cases received : recv mid len.toNat with
        | mk got more =>
          obtain ⟨arg,rest⟩ := more
          rw [received] at all size
          simp only at all size
          have exact_length : len = arg.length := by omega
          rw [all,exact_length,Int.toNat_natCast] at received
          rw [exact_length] at value
          rw [exact_length] at allocated high
          obtain ⟨next,ran,filled_next,left,same⟩ :=
            fill_complete simCount number moved room allocated high received
          rw [exact_length,ran]
          exact ⟨arg,⟨header,mid,length,value,allocated,by rw [left]; exact received⟩,filled_next,
            room,same⟩
      · exact (fill_incomplete simCount number moved low high there).leaves

theorem args_complete (filled : Filled s []) {rest : List Arrival}
    (delivered : Delivered malloc s.arrivals args rest) (room : args.length ≤ s.room) :
    ∃ next, (List.range args.length).foldlM (readArg malloc simCount number) s = .ok next ∧
      Filled next args ∧ next.arrivals = rest ∧ next.room = s.room := by
  induction delivered with
  | nothing => exact ⟨s,rfl,filled,rfl,rfl⟩
  | another before brings ih =>
    rw [List.length_append,List.length_singleton] at room
    obtain ⟨middle,ran,filled_middle,left,same⟩ := ih (by omega)
    rw [←left] at brings
    obtain ⟨next,read,filled_next,rest_left,kept⟩ :=
      read_complete simCount number filled_middle (by omega) brings
    refine ⟨next,?_,filled_next,rest_left,kept.trans same⟩
    rw [List.length_append,List.length_singleton,List.range_succ,List.foldlM_append,ran]
    simp only [bind,Except.bind,List.foldlM_cons,List.foldlM_nil,read]
    rfl

theorem args_leave (filled : Filled s []) (count : Nat) :
    Leaves (fun next => ∃ args,Delivered malloc s.arrivals args next.arrivals ∧
      args.length = count ∧ Filled next args ∧ count ≤ s.room ∧ next.room = s.room)
      ((List.range count).foldlM (readArg malloc simCount number) s) := by
  induction count with
  | zero => exact ⟨[],.nothing,rfl,filled,Nat.zero_le _,rfl⟩
  | succ count ih =>
    rw [List.range_succ,List.foldlM_append]
    refine ih.bind fun middle facts => ?_
    obtain ⟨args,delivered,length,filled_middle,-,same⟩ := facts
    rw [List.foldlM_cons,←length]
    refine (read_leaves simCount number filled_middle).bind fun next facts => ?_
    obtain ⟨arg,brings,filled_next,room,kept⟩ := facts
    exact ⟨args ++ [arg],delivered.another brings,by rw [List.length_append,List.length_singleton],
      filled_next,by omega,kept.trans same⟩

def needsSecond (args : List (List UInt8)) : Prop :=
  ∃ first, args.head? = some first ∧
    (atoi ((first ++ [0]).takeWhile (· != 0)) = 6 ∨ atoi ((first ++ [0]).takeWhile (· != 0)) = 8)

variable (fdCommand : SocketId → Int)

theorem close_command_frame (s : Debug) :
    (closeCommand simCount fdCommand s).args = s.args ∧
      (closeCommand simCount fdCommand s).buffers = s.buffers := by
  unfold closeCommand
  split
  · exact ⟨rfl,rfl⟩
  · split <;> exact ⟨rfl,rfl⟩

def Framed (s : Debug) (x : Ran Debug) : Prop :=
  ∃ next, x = .ok next ∧ next.args = s.args ∧ next.buffers = s.buffers

theorem Framed.choose {x y : Ran Debug} {c : Prop} [Decidable c] (yes : c → Framed s x)
    (no : ¬c → Framed s y) : Framed s (if c then x else y) := by
  by_cases chosen : c
  · rw [if_pos chosen]
    exact yes chosen
  · rw [if_neg chosen]
    exact no chosen

theorem issue_framed (code : Int)
    (second : code = 6 ∨ code = 8 → ∃ text, textAt s 1 = .ok text) :
    Framed s (issueCommand simCount fdCommand s code) := by
  have closes := close_command_frame simCount fdCommand
    (issue s RIL_REQUEST_RADIO_POWER (.ints [0]))
  refine .choose (fun _ => ⟨_,rfl,rfl,rfl⟩) fun _ => ?_
  refine .choose (fun _ => ⟨_,rfl,closes.1,closes.2⟩) fun _ => ?_
  refine .choose (fun _ => ⟨_,rfl,rfl,rfl⟩) fun _ => ?_
  refine .choose (fun _ => ⟨_,rfl,rfl,rfl⟩) fun _ => ?_
  refine .choose (fun _ => ⟨_,rfl,rfl,rfl⟩) fun _ => ?_
  refine .choose (fun _ => ⟨_,rfl,rfl,rfl⟩) fun _ => ?_
  refine .choose (fun six => ?_) fun _ => ?_
  · obtain ⟨apn,read⟩ := second (.inl six)
    rw [read]
    exact ⟨_,rfl,rfl,rfl⟩
  refine .choose (fun _ => ⟨_,rfl,rfl,rfl⟩) fun _ => ?_
  refine .choose (fun eight => ?_) fun _ => ?_
  · obtain ⟨address,read⟩ := second (.inr eight)
    rw [read]
    exact ⟨_,rfl,rfl,rfl⟩
  refine .choose (fun _ => ⟨_,rfl,rfl,rfl⟩) fun _ => ?_
  exact .choose (fun _ => ⟨_,rfl,rfl,rfl⟩) fun _ => ⟨_,rfl,rfl,rfl⟩

theorem command_complete (filled : Filled s args) (nonempty : args ≠ [])
    (second : needsSecond args → 2 ≤ args.length) : Framed s (command simCount fdCommand s) := by
  obtain ⟨first,others,rfl⟩ := List.exists_cons_of_ne_nil nonempty
  rw [command,filled.textAt 0]
  refine issue_framed simCount fdCommand _ ?_
  intro used
  have two := second ⟨first,rfl,used⟩
  rw [filled.textAt,List.getElem?_eq_getElem two]
  exact ⟨_,rfl⟩

theorem command_fails (filled : Filled s args)
    (missing : args = [] ∨ (needsSecond args ∧ args.length < 2)) :
    command simCount fdCommand s = .error .fault := by
  rw [command,filled.textAt 0]
  rcases missing with none_there | short
  · subst none_there
    rfl
  · obtain ⟨⟨first,is_first,used⟩,short⟩ := short
    have only : args[1]? = none := List.getElem?_eq_none (by omega)
    rw [List.head?_eq_getElem?] at is_first
    have no_second : textAt s 1 = .error .fault := by rw [filled.textAt,only]
    rw [is_first]
    show issueCommand simCount fdCommand s (atoi ((first ++ [0]).takeWhile (· != 0))) = _
    rcases used with six | eight
    · rw [six]
      simp [issueCommand,no_second,bind,Except.bind]
    · rw [eight]
      simp [issueCommand,no_second,bind,Except.bind]

def release (buffer : Buffer) : Buffer := {buffer with freed := buffer.freed+1}

theorem frees (s : Debug) (count : Nat) (slots : s.args = (List.range count).map some)
    (buffers : s.buffers.length = count) (k : Nat) (within : k ≤ count) :
    ∃ next, (List.range k).foldlM freeArg s = .ok next ∧ next.args = s.args ∧
      next.closed = s.closed ∧
      next.buffers = (s.buffers.take k).map release ++ s.buffers.drop k := by
  induction k with
  | zero => exact ⟨s,rfl,rfl,rfl,rfl⟩
  | succ k ih =>
    obtain ⟨middle,ran,same,unchanged,freed⟩ := ih (by omega)
    have inside : k < s.buffers.length := by omega
    have slot : argAt middle k = .ok (some k) := by
      rw [argAt,same,slots,List.getElem?_map,List.getElem?_range (by omega)]
      rfl
    have front : ((s.buffers.take k).map release).length = k := by
      rw [List.length_map,List.length_take_of_le (by omega)]
    have split := List.drop_eq_getElem_cons inside
    have buffer : bufferAt middle (some k) = .ok (k,s.buffers[k]) := by
      rw [bufferAt,freed,List.getElem?_append_right (by omega),front,Nat.sub_self,split]
      rfl
    refine ⟨{middle with buffers := middle.buffers.set k (release s.buffers[k])},?_,same,unchanged,?_⟩
    · rw [List.range_succ,List.foldlM_append,ran]
      simp only [bind,Except.bind,List.foldlM_cons,List.foldlM_nil,freeArg,slot,buffer]
      rfl
    · show middle.buffers.set k (release s.buffers[k]) = _
      rw [freed,List.set_append_right _ _ (by omega),front,Nat.sub_self,split,List.set_cons_zero,
        List.take_succ_eq_append_getElem inside,List.map_append,List.append_assoc]
      rfl

def Served (malloc : Nat → Nat → Bool) (arrivals : List Arrival) : Prop :=
  ∃ header mid args rest, recv arrivals 4 = (4,header,mid) ∧ intOf header = args.length ∧
    0 < args.length ∧ args.length < 2^30 ∧ malloc 0 (4*args.length) = true ∧
    Delivered malloc mid args rest ∧ (needsSecond args → 2 ≤ args.length)

def start (arrivals : List Arrival) (room : Nat) : Debug := ⟨arrivals,room,[],[],.socket1,[],[]⟩

theorem start_filled (arrivals : List Arrival) (room : Nat) : Filled (start arrivals room) [] :=
  ⟨rfl,rfl,rfl⟩

theorem serve_complete {arrivals : List Arrival} (served : Served malloc arrivals)
    (acceptFD : Int) :
    ∃ s, serve malloc simCount fdCommand acceptFD arrivals = .ok s ∧ acceptFD ∈ s.closed ∧
      ∀ buffer ∈ s.buffers,buffer.freed = 1 := by
  obtain ⟨header,mid,args,rest,received,number,positive,small,allocated,delivered,second⟩ := served
  have size : sizeT (4*(args.length : Int)) = 4*args.length := by simp only [sizeT]; omega
  have room : 4*args.length/4 = args.length := by omega
  obtain ⟨filled,ran,holds,-,-⟩ :=
    args_complete simCount args.length
      (start_filled mid args.length) delivered (le_refl _)
  obtain ⟨obeyed,commanded,same_args,same_buffers⟩ :=
    command_complete simCount fdCommand holds
      (List.ne_nil_of_length_pos positive) second
  obtain ⟨after,freed,-,-,buffers⟩ := frees obeyed args.length (same_args.trans holds.slots)
    (by rw [same_buffers,holds.buffers,List.length_map]) args.length (le_refl _)
  refine ⟨{after with closed := after.closed ++ [acceptFD]},?_,?_,?_⟩
  · rw [serve,received]
    simp only [ne_eq,not_true_eq_false,if_false,number,size,allocated,if_true,room,
      Int.toNat_natCast,freeDebugCallbackArgs]
    simp only [start] at ran
    simp only [ran,commanded,freed,bind,Except.bind]
  · exact List.mem_append_right _ (List.mem_singleton_self _)
  · intro buffer member
    have whole : obeyed.buffers.length ≤ args.length := by
      rw [same_buffers,holds.buffers,List.length_map]
    replace member : buffer ∈ after.buffers := member
    rw [buffers,List.take_of_length_le whole,List.drop_eq_nil_of_le whole,List.append_nil,
      same_buffers,holds.buffers,List.map_map] at member
    obtain ⟨arg,-,rfl⟩ := List.mem_map.mp member
    rfl

theorem serve_lost {arrivals : List Arrival} (unserved : ¬Served malloc arrivals)
    (acceptFD : Int) : Lost (serve malloc simCount fdCommand acceptFD arrivals) := by
  cases received : recv arrivals 4 with
  | mk got more =>
    obtain ⟨header,mid⟩ := more
    rw [serve,received]
    simp only
    split
    · rfl
    · rename_i whole
      rw [not_not.mp whole] at received
      have bounds := int_bounds header
      generalize value : intOf header = number at bounds
      refine (args_leave simCount number (start_filled mid _) number.toNat).bind fun filled facts => ?_
      obtain ⟨args,delivered,length,holds,room,-⟩ := facts
      have room : number.toNat ≤
          if malloc 0 (sizeT (4*number)) then sizeT (4*number)/4 else 0 := room
      by_cases missing : args = [] ∨ (needsSecond args ∧ args.length < 2)
      · rw [command_fails simCount fdCommand holds missing]
        trivial
      · obtain ⟨nonempty,second⟩ := not_or.mp missing
        have positive := List.length_pos_iff.mpr nonempty
        refine absurd ?_ unserved
        split at room
        · rename_i allocated
          have small : args.length < 2^30 ∧ sizeT (4*number) = 4*args.length := by
            simp only [sizeT] at room ⊢
            omega
          rw [small.2] at allocated
          refine ⟨header,mid,args,_,received,by omega,positive,small.1,allocated,delivered,?_⟩
          intro needed
          exact Nat.le_of_not_lt fun short => second ⟨needed,short⟩
        · omega

theorem debug_port_survives_iff {acceptFD : Int} (accepted : 0 ≤ acceptFD)
    (malloc : Nat → Nat → Bool) (simCount : Nat) (fdCommand : SocketId → Int)
    (arrivals : List Arrival) :
    Survives malloc simCount fdCommand acceptFD arrivals ↔ Served malloc arrivals := by
  constructor
  · intro survives
    obtain ⟨s,ended,closed,-⟩ := survives
    by_contra unserved
    have lost := serve_lost simCount fdCommand unserved acceptFD
    rw [debugCallback,if_neg (by omega)] at ended
    cases ran : serve malloc simCount fdCommand acceptFD arrivals with
    | ok s =>
      rw [ran] at lost
      exact lost
    | error stop =>
      rw [ran] at lost ended
      cases stop with
      | fault => cases ended
      | returned early =>
        cases Option.some.inj ended
        have none_closed : s.closed = [] := lost
        rw [none_closed] at closed
        cases closed
  · intro served
    obtain ⟨s,ran,closed,freed⟩ :=
      serve_complete simCount fdCommand served acceptFD
    refine ⟨s,?_,closed,freed⟩
    rw [debugCallback,if_neg (by omega),ran]

end Arguments

def radioOff : List Arrival :=
  [.bytes [2,0,0,0],.bytes [1,0,0,0],.bytes [49],.bytes [1,0,0,0,48]]

def radioOffArgs : List Arrival := [.bytes [1,0,0,0],.bytes [49],.bytes [1,0,0,0,48]]

theorem radio_off_served : Served (fun _ _ => true) radioOff := by
  have first : Delivered (fun _ _ => true) radioOffArgs [[49]] [.bytes [1,0,0,0,48]] := by
    refine @Delivered.another _ _ [] radioOffArgs _ [49] .nothing ?_
    exact ⟨[1,0,0,0],[.bytes [49],.bytes [1,0,0,0,48]],by decide +kernel,by decide +kernel,rfl,
      by decide +kernel⟩
  have both : Delivered (fun _ _ => true) radioOffArgs [[49],[48]] [] := by
    refine @Delivered.another _ _ [[49]] [.bytes [1,0,0,0,48]] _ [48] first ?_
    exact ⟨[1,0,0,0],[.bytes [48]],by decide +kernel,by decide +kernel,rfl,by decide +kernel⟩
  exact ⟨[2,0,0,0],radioOffArgs,[[49],[48]],[],by decide +kernel,by decide +kernel,by decide,
    by decide,rfl,both,fun _ => by decide⟩

theorem debug_port_survives_radio_off : Survives (fun _ _ => true) 2 (fun _ => 7) 5 radioOff :=
  (debug_port_survives_iff (by decide) (fun _ _ => true) 2 (fun _ => 7) radioOff).mpr
    radio_off_served

def cut : List Arrival := [.bytes [1,0,0,0]]
def noApn : List Arrival := [.bytes [1,0,0,0],.bytes [1,0,0,0],.bytes [54]]

theorem cut_leaks_no_apn_faults :
    ¬Survives (fun _ _ => true) 2 (fun _ => 7) 5 cut ∧
      ¬Survives (fun _ _ => true) 2 (fun _ => 7) 5 noApn := by
  constructor
  · intro survives
    obtain ⟨s,ended,closed,-⟩ := survives
    have leaks : (debugCallback (fun _ _ => true) 2 (fun _ => 7) 5 cut).map (·.closed) =
        some [] := by decide +kernel
    rw [ended] at leaks
    have none_closed : s.closed = [] := Option.some.inj leaks
    rw [none_closed] at closed
    cases closed
  · intro survives
    obtain ⟨s,ended,-,-⟩ := survives
    have faults : (debugCallback (fun _ _ => true) 2 (fun _ => 7) 5 noApn).map (·.closed) =
        none := by decide +kernel
    rw [ended] at faults
    cases faults

end SemcMsm7x30.DebugPort

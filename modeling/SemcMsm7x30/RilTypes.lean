import Mathlib

namespace SemcMsm7x30

-- RIL_SOCKET_ID. A build has the first SIM_COUNT of them.
inductive SocketId where
  | socket1 | socket2 | socket3 | socket4
  deriving DecidableEq, Repr

def SocketId.number : SocketId → Nat
  | .socket1 => 0 | .socket2 => 1 | .socket3 => 2 | .socket4 => 3

def MAX_COMMAND_BYTES : Nat := 8*1024

def RESPONSE_SOLICITED : Int := 0
def RESPONSE_UNSOLICITED : Int := 1

def RIL_E_SUCCESS : Int := 0
def RIL_E_RADIO_NOT_AVAILABLE : Int := 1
def RIL_E_GENERIC_FAILURE : Int := 2

-- RIL_register returns at once for any other version, so this is the value of
-- s_callbacks.version whenever a request is dispatched.
def RIL_VERSION_V3 : Int := 6

-- The `#if (SIM_COUNT >= n)` chain by which processCommandBuffer,
-- onCommandsSocketClosed and sendResponseRaw choose the variables of a socket.
def socketHook (simCount : Nat) (socket_id : SocketId) : SocketId :=
  if 2 ≤ simCount ∧ socket_id = .socket2 then .socket2
  else if 3 ≤ simCount ∧ socket_id = .socket3 then .socket3
  else if 4 ≤ simCount ∧ socket_id = .socket4 then .socket4
  else .socket1

-- checkAndDequeueRequestInfo writes the same choice as separate tests.
def dequeueHook (simCount : Nat) (socket_id : SocketId) : SocketId :=
  let hook := SocketId.socket1
  let hook := if 2 ≤ simCount ∧ socket_id = .socket2 then .socket2 else hook
  let hook := if 3 ≤ simCount ∧ socket_id = .socket3 then .socket3 else hook
  if 4 ≤ simCount ∧ socket_id = .socket4 then .socket4 else hook

theorem dequeueHook_eq (simCount : Nat) (socket_id : SocketId) :
    dequeueHook simCount socket_id = socketHook simCount socket_id := by
  cases socket_id <;> simp [dequeueHook,socketHook]

inductive RadioState where
  | off | unavailable
  | simNotReady | simLockedOrAbsent | simReady
  | ruimNotReady | ruimReady | ruimLockedOrAbsent
  | nvNotReady | nvReady
  | on
  deriving DecidableEq, Repr

def RadioState.number : RadioState → Int
  | .off => 0 | .unavailable => 1
  | .simNotReady => 2 | .simLockedOrAbsent => 3 | .simReady => 4
  | .ruimNotReady => 5 | .ruimReady => 6 | .ruimLockedOrAbsent => 7
  | .nvNotReady => 8 | .nvReady => 9
  | .on => 10

end SemcMsm7x30

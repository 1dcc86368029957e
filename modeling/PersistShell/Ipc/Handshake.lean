import PersistShell.Ipc.Operation

/-! Payloads of the two handshakes and of the capability negotiation. -/

namespace PersistShell

/-- Nonces and instance ids are sixteen bytes and not all zero. -/
def zeroId : Bytes := List.replicate 16 0

inductive HelloStatus where
  | accepted
  | versionMismatch
  | permissionDenied
  | busy
  deriving DecidableEq, Repr

structure ControlHello where
  uid : Nat
  daemonPid : Nat
  nonce : Bytes
  deriving DecidableEq, Repr

structure ControlHelloAck where
  holderPid : Nat
  instanceId : Bytes
  nonce : Bytes
  status : HelloStatus
  deriving DecidableEq, Repr

structure CapabilityRequest where
  instanceId : Bytes
  nonce : Bytes
  maxMinor : Nat
  deriving DecidableEq, Repr

structure CapabilityResponse where
  instanceId : Bytes
  nonce : Bytes
  selectedMinor : Nat
  capabilities : Nat
  deriving DecidableEq, Repr

structure DataHello where
  daemonPid : Nat
  instanceId : Bytes
  nonce : Bytes
  deriving DecidableEq, Repr

structure DataHelloAck where
  instanceId : Bytes
  nonce : Bytes
  status : HelloStatus
  deriving DecidableEq, Repr

namespace HelloStatus

def encode : HelloStatus → Nat
  | accepted => 0
  | versionMismatch => 1
  | permissionDenied => 2
  | busy => 3

def decode : Nat → Except HolderProtocolError HelloStatus
  | 0 => .ok accepted
  | 1 => .ok versionMismatch
  | 2 => .ok permissionDenied
  | 3 => .ok busy
  | _ => .error .invalidField

end HelloStatus

def controlHelloSize : Nat := 24
def controlAckSize : Nat := 37
def dataHelloSize : Nat := 36
def dataAckSize : Nat := 33

def lengthError (actual expected : Nat) : HolderProtocolError :=
  if actual < expected then .truncated else .trailing

/-- Hellos and their acknowledgements have one length each, checked before any field. -/
def decodeSized {α : Type} (size : Nat) (reader : Reader α) (payload : Bytes) :
    Except HolderProtocolError α :=
  if payload.length ≠ size then .error (lengthError payload.length size)
  else Reader.decode reader payload

def encodeControlHello (hello : ControlHello) : Bytes :=
  putU32 hello.uid ++ putU32 hello.daemonPid ++ hello.nonce

def readControlHello : Reader ControlHello := do
  let uid ← Reader.u32
  let daemonPid ← Reader.u32
  let nonce ← Reader.fixed 16
  Reader.finish
  rejectIf (daemonPid = 0 ∨ nonce = zeroId) .invalidField
  return { uid, daemonPid, nonce }

def decodeControlHello : Bytes → Except HolderProtocolError ControlHello :=
  decodeSized controlHelloSize readControlHello

def encodeControlHelloAck (ack : ControlHelloAck) : Bytes :=
  putU32 ack.holderPid ++ ack.instanceId ++ ack.nonce ++ putU8 ack.status.encode

def readControlHelloAck : Reader ControlHelloAck := do
  let holderPid ← Reader.u32
  let instanceId ← Reader.fixed 16
  let nonce ← Reader.fixed 16
  let status ← HelloStatus.decode (← Reader.u8)
  Reader.finish
  rejectIf (holderPid = 0 ∨ instanceId = zeroId ∨ nonce = zeroId) .invalidField
  return { holderPid, instanceId, nonce, status }

def decodeControlHelloAck : Bytes → Except HolderProtocolError ControlHelloAck :=
  decodeSized controlAckSize readControlHelloAck

def encodeDataHello (hello : DataHello) : Bytes :=
  putU32 hello.daemonPid ++ hello.instanceId ++ hello.nonce

def readDataHello : Reader DataHello := do
  let daemonPid ← Reader.u32
  let instanceId ← Reader.fixed 16
  let nonce ← Reader.fixed 16
  Reader.finish
  rejectIf (daemonPid = 0 ∨ instanceId = zeroId ∨ nonce = zeroId) .invalidField
  return { daemonPid, instanceId, nonce }

def decodeDataHello : Bytes → Except HolderProtocolError DataHello :=
  decodeSized dataHelloSize readDataHello

def encodeDataHelloAck (ack : DataHelloAck) : Bytes :=
  ack.instanceId ++ ack.nonce ++ putU8 ack.status.encode

def readDataHelloAck : Reader DataHelloAck := do
  let instanceId ← Reader.fixed 16
  let nonce ← Reader.fixed 16
  let status ← HelloStatus.decode (← Reader.u8)
  Reader.finish
  rejectIf (instanceId = zeroId ∨ nonce = zeroId) .invalidField
  return { instanceId, nonce, status }

def decodeDataHelloAck : Bytes → Except HolderProtocolError DataHelloAck :=
  decodeSized dataAckSize readDataHelloAck

def validCapabilityMinor (minor : Nat) : Bool :=
  holderProtocolBaselineMinor ≤ minor && minor ≤ holderProtocolMinor

def encodeCapabilityRequest (request : CapabilityRequest) : Bytes :=
  request.instanceId ++ request.nonce ++ putU16 request.maxMinor

def readCapabilityRequest : Reader CapabilityRequest := do
  let instanceId ← Reader.fixed 16
  let nonce ← Reader.fixed 16
  let maxMinor ← Reader.u16
  Reader.finish
  rejectIf (instanceId = zeroId ∨ nonce = zeroId ∨ !validCapabilityMinor maxMinor) .invalidField
  return { instanceId, nonce, maxMinor }

def decodeCapabilityRequest : Bytes → Except HolderProtocolError CapabilityRequest :=
  Reader.decode readCapabilityRequest

def encodeCapabilityResponse (response : CapabilityResponse) : Bytes :=
  response.instanceId ++ response.nonce ++ putU16 response.selectedMinor ++
    putU64 response.capabilities

/-- The only capability bit is the lowest, so a set of capabilities is known when it is at
most that bit. -/
def readCapabilityResponse : Reader CapabilityResponse := do
  let instanceId ← Reader.fixed 16
  let nonce ← Reader.fixed 16
  let selectedMinor ← Reader.u16
  let capabilities ← Reader.u64
  Reader.finish
  rejectIf (instanceId = zeroId ∨ nonce = zeroId ∨ !validCapabilityMinor selectedMinor ∨
      capabilities > holderCapabilityEnvironmentContext ∨
      (selectedMinor = holderProtocolBaselineMinor ∧ capabilities ≠ 0)) .invalidField
  return { instanceId, nonce, selectedMinor, capabilities }

def decodeCapabilityResponse : Bytes → Except HolderProtocolError CapabilityResponse :=
  Reader.decode readCapabilityResponse

end PersistShell

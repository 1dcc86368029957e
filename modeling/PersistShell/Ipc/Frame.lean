import PersistShell.Ipc.Wire

/-! Frames of the holder protocol: message types, the header codec and the accumulator that
cuts a byte stream into frames. -/

namespace PersistShell

def holderMagic : Bytes := [80, 83, 72, 72]
def holderProtocolMajor : Nat := 1
def holderProtocolBaselineMinor : Nat := 1
def holderProtocolMinor : Nat := 2
def holderCapabilityEnvironmentContext : Nat := 1
def holderHeaderSize : Nat := 32
def maxHolderControlFrame : Nat := 1024 * 1024
def maxHolderIoFrame : Nat := 64 * 1024
def maxInventoryEntries : Nat := 256
def maxHolderPath : Nat := 4096
def maxHolderEnvVars : Nat := 128
def maxHolderEnvName : Nat := 128
def maxHolderEnvValue : Nat := 8192
def maxHolderArguments : Nat := 16
def maxHolderArgument : Nat := 4096
def maxHolderRingBuffer : Nat := 64 * 1024 * 1024
def maxHolderErrorMessage : Nat := 1024
def maxHolderAccumulator : Nat := maxHolderControlFrame + holderHeaderSize

inductive HolderMessageType where
  | controlHello | controlHelloAck | error | capability | capabilityResp
  | inventory | inventoryResp | create | createResp | close | closeResp | kill | killResp
  | shutdownAll | shutdownAllResp | getExitContext | getExitContextResp
  | retireExited | retireExitedResp
  | sessionStarted | sessionExited | writerChanged | logDegraded
  | dataHello | dataHelloAck | attach | attachResp | detach
  | input | output | resize | signal | writeGranted | writeRevoked
  deriving DecidableEq, Repr

namespace HolderMessageType

def toU16 : HolderMessageType → Nat
  | controlHello => 0x0001
  | controlHelloAck => 0x0002
  | error => 0x0003
  | capability => 0x0004
  | capabilityResp => 0x0005
  | inventory => 0x0010
  | inventoryResp => 0x0011
  | create => 0x0012
  | createResp => 0x0013
  | close => 0x0014
  | closeResp => 0x0015
  | kill => 0x0016
  | killResp => 0x0017
  | shutdownAll => 0x0018
  | shutdownAllResp => 0x0019
  | getExitContext => 0x001a
  | getExitContextResp => 0x001b
  | retireExited => 0x001c
  | retireExitedResp => 0x001d
  | sessionStarted => 0x0020
  | sessionExited => 0x0021
  | writerChanged => 0x0022
  | logDegraded => 0x0023
  | dataHello => 0x0100
  | dataHelloAck => 0x0101
  | attach => 0x0110
  | attachResp => 0x0111
  | detach => 0x0112
  | input => 0x0120
  | output => 0x0121
  | resize => 0x0122
  | signal => 0x0123
  | writeGranted => 0x0124
  | writeRevoked => 0x0125

def all : List HolderMessageType :=
  [controlHello, controlHelloAck, error, capability, capabilityResp, inventory, inventoryResp,
    create, createResp, close, closeResp, kill, killResp, shutdownAll, shutdownAllResp,
    getExitContext, getExitContextResp, retireExited, retireExitedResp, sessionStarted,
    sessionExited, writerChanged, logDegraded, dataHello, dataHelloAck, attach, attachResp, detach,
    input, output, resize, signal, writeGranted, writeRevoked]

def fromU16 (value : Nat) : Option HolderMessageType := all.find? fun kind => kind.toU16 = value

theorem fromU16_toU16 (kind : HolderMessageType) : fromU16 kind.toU16 = some kind := by
  cases kind <;> rfl

def maxPayload : HolderMessageType → Nat
  | input | output => maxHolderIoFrame
  | _ => maxHolderControlFrame

end HolderMessageType

structure HolderFrame where
  messageType : HolderMessageType
  flags : Nat := 0
  requestId : Nat := 0
  generation : Nat := 0
  payload : Bytes := []
  deriving DecidableEq, Repr

def validateMinor (minor : Nat) : Except HolderProtocolError Unit :=
  if holderProtocolBaselineMinor ≤ minor ∧ minor ≤ holderProtocolMinor then .ok ()
  else .error .versionMismatch

/-- The bytes of a frame, whatever its payload. -/
def HolderFrame.bytes (minor : Nat) (frame : HolderFrame) : Bytes :=
  holderMagic ++ putU16 holderProtocolMajor ++ putU16 minor ++
    putU32 frame.payload.length ++ putU16 frame.messageType.toU16 ++ putU16 frame.flags ++
    putU32 frame.requestId ++ putU64 frame.generation ++ putU32 0 ++ frame.payload

def encodeFrameWithMinor (frame : HolderFrame) (minor : Nat) :
    Except HolderProtocolError Bytes := do
  validateMinor minor
  rejectIf (frame.flags ≠ 0) .invalidField
  rejectIf (frame.payload.length > frame.messageType.maxPayload) .payloadTooLarge
  return holderMagic ++ putU16 holderProtocolMajor ++ putU16 minor ++
    putU32 frame.payload.length ++ putU16 frame.messageType.toU16 ++ putU16 frame.flags ++
    putU32 frame.requestId ++ putU64 frame.generation ++ putU32 0 ++ frame.payload

theorem bytes_of_encode {frame : HolderFrame} {minor : Nat} {bytes : Bytes}
    (h : encodeFrameWithMinor frame minor = .ok bytes) : bytes = frame.bytes minor := by
  obtain ⟨-, -, h⟩ := bind_eq_ok.mp h
  obtain ⟨-, -, h⟩ := bind_eq_ok.mp h
  obtain ⟨-, -, h⟩ := bind_eq_ok.mp h
  exact (Except.ok.inj h).symm

def readFrame (expectedMinor : Nat) : Reader HolderFrame := do
  rejectIf ((← Reader.fixed 4) ≠ holderMagic) .invalidMagic
  rejectIf ((← Reader.u16) ≠ holderProtocolMajor) .versionMismatch
  rejectIf ((← Reader.u16) ≠ expectedMinor) .versionMismatch
  let payloadLen ← Reader.u32
  let some messageType := HolderMessageType.fromU16 (← Reader.u16) | throw .unknownMessageType
  let flags ← Reader.u16
  let requestId ← Reader.u32
  let generation ← Reader.u64
  rejectIf (flags ≠ 0) .invalidField
  rejectIf ((← Reader.u32) ≠ 0) .invalidField
  rejectIf (payloadLen > messageType.maxPayload) .payloadTooLarge
  let payload ← get
  rejectIf (payload.length < payloadLen) .truncated
  rejectIf (payload.length > payloadLen) .trailing
  return { messageType, flags, requestId, generation, payload }

def decodeFrameWithMinor (bytes : Bytes) (expectedMinor : Nat) :
    Except HolderProtocolError HolderFrame := do
  validateMinor expectedMinor
  rejectIf (bytes.length < holderHeaderSize) .truncated
  Reader.decode (readFrame expectedMinor) bytes

/-- The bytes of a stream that are not yet part of a whole frame. -/
structure HolderFrameAccumulator where
  buffer : Bytes := []
  deriving DecidableEq, Repr

namespace HolderFrameAccumulator

def feed (a : HolderFrameAccumulator) (bytes : Bytes) :
    Except HolderProtocolError HolderFrameAccumulator :=
  if a.buffer.length + bytes.length > maxHolderAccumulator then .error .payloadTooLarge
  else .ok ⟨a.buffer ++ bytes⟩

def payloadLen (a : HolderFrameAccumulator) : Nat := fromBeBytes ((a.buffer.drop 8).take 4)

def minor (a : HolderFrameAccumulator) : Nat := fromBeBytes ((a.buffer.drop 6).take 2)

def tryReadSupported (a : HolderFrameAccumulator) :
    Except HolderProtocolError (Option ((Nat × HolderFrame) × HolderFrameAccumulator)) := do
  if a.buffer.length < holderHeaderSize then return none
  rejectIf (a.payloadLen > maxHolderControlFrame) .payloadTooLarge
  let frameLen := holderHeaderSize + a.payloadLen
  if a.buffer.length < frameLen then return none
  let frame ← decodeFrameWithMinor (a.buffer.take frameLen) a.minor
  return some ((a.minor, frame), ⟨a.buffer.drop frameLen⟩)

/-- Every frame that the accumulator holds whole. A frame has a header, so there are no more
of them than bytes. -/
def readAll : Nat → HolderFrameAccumulator →
    Except HolderProtocolError (List (Nat × HolderFrame) × HolderFrameAccumulator)
  | 0, a => .ok ([], a)
  | fuel + 1, a => do
    match ← a.tryReadSupported with
    | none => return ([], a)
    | some (frame, a) =>
      let (frames, a) ← readAll fuel a
      return (frame :: frames, a)

def frames (a : HolderFrameAccumulator) :
    Except HolderProtocolError (List (Nat × HolderFrame) × HolderFrameAccumulator) :=
  readAll a.buffer.length a

end HolderFrameAccumulator

end PersistShell

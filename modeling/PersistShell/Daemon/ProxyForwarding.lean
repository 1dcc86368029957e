import PersistShell.Daemon.ProxyDelivery
import PersistShell.Ipc.PublicChunks
import PersistShell.Holder.Acceptance

/-! What the proxy makes of the frames of the client: which of them become frames for the
holder, and whether the holder accepts those. -/

namespace PersistShell
open Program

/-- The error of a push into a full queue. -/
def queueLimit : PersistError := .invalidArgument "public holder proxy queue limit exceeded"

namespace Frame

/-- What a frame of the writer is relayed as. -/
def relayed (f : Frame) : Option HolderFrame :=
  match f.msgType with
  | .stdin => some { messageType := .input, payload := f.payload }
  | .resize =>
    (decodeResize f.payload).bind fun size =>
      (Proxy.holderResizePayload size.rows size.cols).map fun payload =>
        { messageType := .resize, payload }
  | .signal =>
    (decodeSignal f.payload).map fun signal =>
      { messageType := .signal, payload := encodeSignalRequest { signal := signal.signal } }
  | _ => none

variable {f : Frame} {h : HolderFrame} {minor : Nat}

end Frame

namespace Proxy

/-- Whether the queue for the holder has room for the frame. -/
def hasRoom (p : Proxy) (h : HolderFrame) : Bool :=
  p.toHolder.queue.bytes + (holderHeaderSize + h.payload.length) ≤ maxProxyQueue

/-- What a frame of the client adds to the frames for the holder. -/
def pushes (f : Frame) (p : Proxy) : List HolderFrame :=
  if p.writer then (f.relayed.filter p.hasRoom).toList else []

section handling

variable {p : Proxy} {f : Frame}

/-- How the handling of a frame may end: it goes on, the client leaves, or a queue is full. -/
def Handles (f : Frame) (p : Proxy) (m : ProxyProgram Bool) : Prop :=
  ((m p).1 = .ok true ∨ ((m p).1 = .ok false ∧ f.endsAttach = true) ∨ (m p).1 = .err queueLimit) ∧
    (m p).2.relayed = p.relayed ++ p.pushes f ∧ (m p).2.holderMinor = p.holderMinor

end handling

/-- The proxy when the frames that a read of the client completes are about to be handled. -/
def taken (answer : ReadAnswer) (p : Proxy) : Proxy :=
  { p with
    publicFrames := ⟨(publicFraming.cut (p.publicFrames.buf ++ p.clientBytes answer)).rest⟩
    client := ((p.client.read answer).toOption.map Prod.snd).getD p.client }

section reading

variable {p : Proxy} {f : Frame} {frames : List Frame} {stopped : Option PersistError}

end reading

section runs

variable [SerdeJson]

/-- `P` at each read of the client, and the state before it. -/
def AtReads (P : ReadAnswer → Proxy → Prop) : List PassTurn → Proxy → Prop
  | [], _ => True
  | t :: turns, p =>
    (∀ client holder timer polled, wait t p = (.ok (some (client, holder, timer)), polled) →
      client.readable = true → P t.clientRead polled) ∧
    ∀ p', pass t p = (.ok none, p') → AtReads P turns p'

variable {setup : Setup} {P Q : ReadAnswer → Proxy → Prop}

theorem AtReads.mono (h : ∀ answer p, Steady setup p → P answer p → Q answer p)
    {turns : List PassTurn} {p : Proxy} (hsteady : p.Steady setup) (hp : AtReads P turns p) :
    AtReads Q turns p := by
  induction turns generalizing p with
  | nil => trivial
  | cons t turns ih =>
    obtain ⟨hread, hlater⟩ := hp
    constructor
    · intro client holder timer polled hwait hreadable
      have hpolled := (within_wait t).run hwait hsteady
      exact h _ _ hpolled.1 (hread client holder timer polled hwait hreadable)
    · intro p' hpass
      have hafter := (within_pass t).run hpass hsteady
      exact ih hafter (hlater p' hpass)

end runs

end Proxy

section main

variable [SerdeJson]

end main

section samples

attribute [local instance] Json.serdeJson

/-- A writer sends one frame, and `poll` reports it. -/
def sent (frame : Frame) : List PassTurn :=
  [{ client := { bytes := frame.bytes }, poll := .ready { readable := true } {} false }]

end samples

end PersistShell

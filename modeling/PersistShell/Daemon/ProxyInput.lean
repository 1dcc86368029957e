import PersistShell.Daemon.ProxyOrder
import PersistShell.Daemon.ProxyDelivery

/-! What the proxy makes of the input of its client. What goes out to the holder in `Input` frames
are payloads of the `Stdin` frames of the client, in their order; those that are missing came
while the client was not the writer, or found the queue for the holder full. -/

namespace PersistShell
open Program

/-- The payloads of the `Stdin` frames. -/
def stdins (frames : List Frame) : List Bytes := frames.flatMap Proxy.stdinOf

namespace Proxy

/-- The part of the proxy that the input goes through. -/
structure InputSide where
  holderMinor : Nat
  publicFrames : FrameAccumulator
  client : Inlet
  accepted : List Bytes
  relayed : List HolderFrame
  toHolder : PendingWrites

def inputSide (p : Proxy) : InputSide :=
  ⟨p.holderMinor, p.publicFrames, p.client, p.accepted, p.relayed, p.toHolder⟩

/-- `outstanding` are the frames that were taken off the stream of the client and are not handled. -/
structure Stream (outstanding : List Frame) (side : InputSide) : Prop where
  taken : ∃ eaten handled,
    side.client.sent = eaten ++ (side.publicFrames.buf ++ side.client.unread) ∧
    (∀ more, publicFraming.cut (eaten ++ more) =
      (publicFraming.cut more).after (handled ++ outstanding)) ∧
    side.accepted.Sublist (stdins handled)
  carried : ∃ done waiting, side.relayed = done ++ waiting ∧
    side.toHolder.queue.Carries (HolderFrame.bytes side.holderMinor) done waiting
      side.toHolder.written

/-- The loop goes on: all that was accepted was put into the queue for the holder. -/
def Taking (outstanding : List Frame) (p : Proxy) : Prop :=
  Stream outstanding p.inputSide ∧ inputs p.relayed = p.accepted

/-- The last payload that was accepted may have found the queue full. -/
def Taken (p : Proxy) : Prop :=
  (∃ outstanding, Stream outstanding p.inputSide) ∧ inputs p.relayed <+: p.accepted

theorem Taking.taken {outstanding : List Frame} {p : Proxy} (h : p.Taking outstanding) : p.Taken :=
  ⟨⟨outstanding, h.1⟩, h.2 ▸ List.prefix_rfl⟩

section beside

variable {side : InputSide}

def Beside (side : InputSide) (p : Proxy) : Prop := p.inputSide = side

variable [SerdeJson]

end beside

section steps

variable {f : Frame} {outstanding : List Frame} {side : InputSide}

theorem Taking.of_beside {α : Type} {m : ProxyProgram α}
    (h : ∀ side, Leaves (Beside side) m) : Leaves (Taking outstanding) m := by
  intro p hp
  have hside : (m p).2.inputSide = p.inputSide := h p.inputSide p rfl
  have hrelayed : (m p).2.relayed = p.relayed := congrArg InputSide.relayed hside
  have haccepted : (m p).2.accepted = p.accepted := congrArg InputSide.accepted hside
  unfold Taking
  rw [hside, hrelayed, haccepted]
  exact hp

theorem stdins_append (frames frames' : List Frame) :
    stdins (frames ++ frames') = stdins frames ++ stdins frames' := List.flatMap_append

/-- A frame that is not accepted. -/
theorem Stream.skip (h : Stream (f :: outstanding) side) : Stream outstanding side := by
  obtain ⟨⟨eaten, handled, hsent, hcut, haccepted⟩, hcarried⟩ := h
  refine ⟨⟨eaten, handled ++ [f], hsent, ?_, ?_⟩, hcarried⟩
  · intro more
    rw [List.append_assoc]
    exact hcut more
  · rw [stdins_append]
    exact haccepted.trans (List.sublist_append_left _ _)

theorem Stream.accept (h : Stream (f :: outstanding) side) (hkind : f.msgType = .stdin) :
    Stream outstanding { side with accepted := side.accepted ++ [f.payload] } := by
  obtain ⟨⟨eaten, handled, hsent, hcut, haccepted⟩, hcarried⟩ := h
  refine ⟨⟨eaten, handled ++ [f], hsent, ?_, ?_⟩, hcarried⟩
  · intro more
    rw [List.append_assoc]
    exact hcut more
  · have hone : stdins [f] = [f.payload] := by
      rw [stdins, List.flatMap_singleton, stdinOf, if_pos hkind]
    rw [stdins_append, hone]
    exact haccepted.append (List.Sublist.refl _)

theorem Stream.relay {p : Proxy} (h : Stream outstanding p.inputSide) (g : HolderFrame) :
    Stream outstanding (p.relay g).inputSide := by
  obtain ⟨htaken, done, waiting, hrelayed, hcarries⟩ := h
  refine ⟨htaken, done, waiting ++ [g], ?_, hcarries.push (g.bytes_ne_nil _)⟩
  exact (congrArg (· ++ [g]) hrelayed).trans (List.append_assoc _ _ _)

/-- What is left when the frames have been taken off some bytes that were read. -/
theorem Stream.take (h : Stream [] side) {bytes : Bytes} {client : Inlet}
    (hclient : side.client.unread = bytes ++ client.unread ∧ client.sent = side.client.sent) :
    Stream (publicFraming.cut (side.publicFrames.buf ++ bytes)).items { side with
      client, publicFrames := ⟨(publicFraming.cut (side.publicFrames.buf ++ bytes)).rest⟩ } := by
  obtain ⟨⟨eaten, handled, hsent, hcut, haccepted⟩, hcarried⟩ := h
  obtain ⟨chewed, hbytes, hchewed⟩ := publicFraming.exists_eaten (side.publicFrames.buf ++ bytes)
  refine ⟨⟨eaten ++ chewed, handled, ?_, ?_, haccepted⟩, hcarried⟩
  · calc client.sent = eaten ++ ((side.publicFrames.buf ++ bytes) ++ client.unread) := by
          rw [hclient.2, hsent, hclient.1, List.append_assoc]
      _ = eaten ++ chewed ++ ((publicFraming.cut (side.publicFrames.buf ++ bytes)).rest ++
          client.unread) := by
          conv => lhs; rw [hbytes]
          simp only [List.append_assoc]
  · intro more
    rw [List.append_assoc, hcut, hchewed, List.append_nil]
    exact congrArg (fun items => Cut.mk items _ _) (List.append_assoc _ _ _).symm

/-- A step that the input does not go through. -/
theorem Taking.within {α : Type} {m : ProxyProgram α} (h : ∀ side, Leaves (Beside side) m) :
    Within (Taking outstanding) m (fun _ => Taking outstanding) Taken :=
  (Within.of_leaves (Taking.of_beside h) fun _ => id).weaken fun _ hp => hp.taken

variable [SerdeJson]

end steps

end Proxy

end PersistShell

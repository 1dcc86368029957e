import PersistShell.Daemon.PublicAttach

/-! What the proxy sends its client. The bytes that went out are the front of a sequence of
whole frames: the initial output, then a frame for each frame of the holder that concerns the
client, in the order in which they came, with the replies to the client's own requests between
them. -/

namespace PersistShell
open Program

/-- A reply to a request of the client. -/
def Frame.isReply (f : Frame) : Bool := f.msgType = .pong || f.msgType = .signalResp

def stdoutFrame (payload : Bytes) : Frame := { msgType := .stdout, payload }

def writerFrame (kind : MessageType) (sessionId : Nat) : Frame :=
  { msgType := kind, payload := encodeWriterControl { sessionId } }

def exitedFrame (sessionId : Nat) (exitCode : Int) : Frame :=
  { msgType := .sessionExited, payload := encodeSessionExited { sessionId, exitCode } }

theorem length_writerFrame {kind : MessageType} {sessionId : Nat} :
    (writerFrame kind sessionId).payload.length ≤ (writerFrame kind sessionId).msgType.limit := by
  have hlimit : 4 ≤ kind.limit := by
    unfold MessageType.limit
    split <;> decide
  change (toBeBytes 4 sessionId).length ≤ kind.limit
  rw [length_toBeBytes]
  exact hlimit

theorem length_exitedFrame {sessionId : Nat} {exitCode : Int} :
    (exitedFrame sessionId exitCode).payload.length ≤
      (exitedFrame sessionId exitCode).msgType.limit := by
  change (toBeBytes 4 sessionId ++ toBeBytes 4 (i32ToBits exitCode)).length ≤ maxControlFrame
  rw [List.length_append, length_toBeBytes, length_toBeBytes]
  decide

/-- The frames of the holder that the client is told of. -/
def HolderFrame.isAnnounced (f : HolderFrame) : Bool :=
  f.messageType = .output || f.messageType = .writeGranted || f.messageType = .writeRevoked ||
    f.messageType = .sessionExited

section

variable [SerdeJson]

/-- `f` is the public frame for the frame `h` of the holder. -/
def Announces (sessionId minor : Nat) (h : HolderFrame) (f : Frame) : Prop :=
  match h.messageType with
  | .output => f = stdoutFrame h.payload
  | .writeGranted => f = writerFrame .writeGranted sessionId
  | .writeRevoked => f = writerFrame .writeRevoked sessionId
  | .sessionExited =>
    ∃ exitCode, f = exitedFrame sessionId exitCode ∧
      ∀ context, Proxy.decodeExit minor h.payload = .ok context → exitCode = context.exitCode
  | _ => False

/-- What a proxy is set up with, and keeps. -/
structure Setup where
  initial : Bytes
  sessionId : Nat
  minor : Nat

/-- What has been queued for the client, when `outstanding` are the frames of the holder that
have been taken off the stream and not yet been answered with a frame to the client. -/
structure Sequence (setup : Setup) (sessionId minor : Nat) (history : InitialOutput)
    (queued : List Frame) (pipe : PendingWrites) (received outstanding : List HolderFrame)
    (refused : List PushSite) : Prop where
  source : history.bytes = setup.initial ∧ sessionId = setup.sessionId ∧ minor = setup.minor
  carried : ∃ done waiting, queued = done ++ waiting ∧
    pipe.queue.Carries Frame.bytes done waiting pipe.written
  fits : ∀ f ∈ queued, f.payload.length ≤ f.msgType.limit
  frames : ∃ (chunks : List Bytes) (handled : List HolderFrame) (told : List Frame),
    queued.filter (!·.isReply) = chunks.map stdoutFrame ++ told ∧
    chunks.flatten = setup.initial.take history.offset ∧
    received.filter HolderFrame.isAnnounced = handled ++ outstanding ∧
    List.Forall₂ (Announces sessionId minor) handled told
  fits_outstanding : ∀ h ∈ outstanding, h.payload.length ≤ h.messageType.maxPayload
  live : received ≠ [] → history.isDone = true
  sites : ∀ site ∈ refused, site = .publicRead

namespace Proxy

def Ordered (setup : Setup) (outstanding : List HolderFrame) (p : Proxy) : Prop :=
  Sequence setup p.sessionId p.holderMinor p.history p.queued p.toPublic p.received outstanding
    p.refused

/-- Neither accumulator holds a whole frame. -/
def Idle (p : Proxy) : Prop :=
  publicFraming.tryRead p.publicFrames.buf = .ok none ∧
    (holderFraming p.holderMinor).tryRead p.holderFrames.buffer = .ok none

/-- What holds whenever the proxy makes a call. -/
def Told (setup : Setup) (p : Proxy) : Prop := ∃ outstanding, p.Ordered setup outstanding

end Proxy

end

section sequence

variable [SerdeJson] {setup : Setup} {sessionId minor : Nat} {history : InitialOutput}
  {queued : List Frame} {pipe : PendingWrites} {received outstanding : List HolderFrame}
  {refused : List PushSite}

/-- The queue of the client after a frame was put into it. -/
theorem Sequence.carried_push (h : Sequence setup sessionId minor history queued pipe received
    outstanding refused) (f : Frame) :
    ∃ done waiting, queued ++ [f] = done ++ waiting ∧
      (pipe.queue.push f.bytes).Carries Frame.bytes done waiting pipe.written := by
  obtain ⟨done, waiting, hqueued, hcarries⟩ := h.carried
  refine ⟨done, waiting ++ [f], ?_, hcarries.push f.bytes_ne_nil⟩
  rw [hqueued, List.append_assoc]

theorem Sequence.fits_push (h : Sequence setup sessionId minor history queued pipe received
    outstanding refused) {f : Frame} (hf : f.payload.length ≤ f.msgType.limit) :
    ∀ g ∈ queued ++ [f], g.payload.length ≤ g.msgType.limit := by
  intro g hg
  rcases List.mem_append.mp hg with hold | hnew
  · exact h.fits g hold
  · rw [List.mem_singleton.mp hnew]
    exact hf

theorem Sequence.reply (h : Sequence setup sessionId minor history queued pipe received
    outstanding refused) {f : Frame} (hreply : f.isReply = true)
    (hf : f.payload.length ≤ f.msgType.limit) :
    Sequence setup sessionId minor history (queued ++ [f])
      { pipe with queue := pipe.queue.push f.bytes } received outstanding refused := by
  refine ⟨h.source, h.carried_push f, h.fits_push hf, ?_, h.fits_outstanding, h.live, h.sites⟩
  obtain ⟨chunks, handled, told, hqueued, hrest⟩ := h.frames
  refine ⟨chunks, handled, told, ?_, hrest⟩
  have hsingle : [f].filter (!·.isReply) = [] := by
    rw [List.filter_cons, hreply]
    rfl
  rw [List.filter_append, hsingle, List.append_nil]
  exact hqueued

theorem Sequence.announce {frame : HolderFrame} (h : Sequence setup sessionId minor history
    queued pipe received [frame] refused) {f : Frame}
    (hannounces : Announces sessionId minor frame f) (hreply : f.isReply = false)
    (hf : f.payload.length ≤ f.msgType.limit) :
    Sequence setup sessionId minor history (queued ++ [f])
      { pipe with queue := pipe.queue.push f.bytes } received [] refused := by
  refine ⟨h.source, h.carried_push f, h.fits_push hf, ?_, nofun, h.live, h.sites⟩
  obtain ⟨chunks, handled, told, hqueued, hchunks, hreceived, htold⟩ := h.frames
  refine ⟨chunks, handled ++ [frame], told ++ [f], ?_, hchunks, ?_, ?_⟩
  · have hsingle : [f].filter (!·.isReply) = [f] := by
      rw [List.filter_cons, hreply]
      rfl
    rw [List.filter_append, hsingle, hqueued, List.append_assoc]
  · rw [hreceived, List.append_nil]
  · exact List.rel_append htold (.cons hannounces .nil)

/-- Nothing of the holder has come while history is left. -/
theorem Sequence.chunk (h : Sequence setup sessionId minor history queued pipe received
    outstanding refused) (hleft : history.isDone = false) {count : Nat}
    (hcount : count ≤ maxIoFrame) :
    Sequence setup sessionId minor (history.advance count)
      (queued ++ [stdoutFrame (history.chunk count)])
      { pipe with queue := pipe.queue.push (stdoutFrame (history.chunk count)).bytes }
      received outstanding refused := by
  have hnone : received = [] := by
    by_contra hsome
    rw [h.live hsome] at hleft
    cases hleft
  refine ⟨h.source, h.carried_push _, h.fits_push ?_, ?_, h.fits_outstanding, ?_, h.sites⟩
  · exact (List.length_take_le _ _).trans hcount
  · obtain ⟨chunks, handled, told, hqueued, hchunks, hreceived, htold⟩ := h.frames
    rw [hnone] at hreceived
    obtain ⟨hhandled, hout⟩ := List.append_eq_nil_iff.mp hreceived.symm
    subst hhandled
    cases htold
    refine ⟨chunks ++ [history.chunk count], [], [], ?_, ?_, ?_, .nil⟩
    · have hsingle : [stdoutFrame (history.chunk count)].filter (!·.isReply) =
          [stdoutFrame (history.chunk count)] := rfl
      rw [List.filter_append, hsingle, hqueued, List.append_nil, List.append_nil, List.map_append,
        List.map_singleton]
    · rw [List.flatten_append, hchunks, List.flatten_singleton, InitialOutput.chunk, h.source.1,
        ← List.take_add]
      rfl
    · rw [hnone]
      exact hreceived
  · intro hsome
    exact absurd hnone hsome

/-- Bytes that go out leave the frames as they are. -/
theorem Sequence.write (h : Sequence setup sessionId minor history queued pipe received
    outstanding refused) {front : Bytes} (hfront : pipe.queue.front = some front) {count : Nat}
    (hcount : count ≤ front.length) :
    Sequence setup sessionId minor history queued (pipe.write front count) received outstanding
      refused := by
  refine ⟨h.source, ?_, h.fits, h.frames, h.fits_outstanding, h.live, h.sites⟩
  obtain ⟨done, waiting, hqueued, hcarries⟩ := h.carried
  obtain ⟨finished, waiting', hwaiting, hafter⟩ := hcarries.advance hfront hcount
  refine ⟨done ++ finished, waiting', ?_, hafter⟩
  rw [hqueued, hwaiting, List.append_assoc]

/-- A frame is taken off the stream of the holder. -/
theorem Sequence.receive (h : Sequence setup sessionId minor history queued pipe received []
    refused) (hdone : history.isDone = true) {frame : HolderFrame}
    (hfits : frame.payload.length ≤ frame.messageType.maxPayload) :
    Sequence setup sessionId minor history queued pipe (received ++ [frame])
      (if frame.isAnnounced then [frame] else []) refused := by
  refine ⟨h.source, h.carried, h.fits, ?_, ?_, fun _ => hdone, h.sites⟩
  · obtain ⟨chunks, handled, told, hqueued, hchunks, hreceived, htold⟩ := h.frames
    refine ⟨chunks, handled, told, hqueued, hchunks, ?_, htold⟩
    rw [List.filter_append, hreceived, List.append_nil, List.filter_cons]
    rfl
  · intro g hg
    split at hg
    · rw [List.mem_singleton.mp hg]
      exact hfits
    · cases hg

theorem Sequence.refuse (h : Sequence setup sessionId minor history queued pipe received
    outstanding refused) : Sequence setup sessionId minor history queued pipe received
      outstanding (.publicRead :: refused) := by
  refine ⟨h.source, h.carried, h.fits, h.frames, h.fits_outstanding, h.live, ?_⟩
  intro site hsite
  rcases List.mem_cons.mp hsite with rfl | hold
  · rfl
  · exact h.sites site hold

end sequence

/-- What every write keeps, a flush keeps. -/
theorem PendingWrites.within_flush {F : PendingWrites → Prop}
    (hwrite : ∀ w front count, F w → w.queue.front = some front → count ≤ front.length →
      F (w.write front count)) (answers : List WriteAnswer) :
    Within F (PendingWrites.flush answers) (fun _ => F) F := by
  induction answers with
  | nil =>
    apply Within.read_bind
    intro w hw
    cases w.queue.front with
    | none => exact Within.pure fun _ heq => heq ▸ hw
    | some front => exact Within.abort fun _ heq => heq ▸ hw
  | cons answer answers ih =>
    apply Within.read_bind
    intro w hw
    cases hfront : w.queue.front with
    | none => exact Within.pure fun _ heq => heq ▸ hw
    | some front =>
      cases answer with
      | fault source =>
        cases source with
        | wouldBlock => exact Within.pure fun _ heq => heq ▸ hw
        | _ => exact Within.fail fun _ heq => heq ▸ hw
      | upTo count =>
        refine Within.bind (Q := fun _ => F) (Within.update ?_) fun _ => ih
        rintro _ rfl
        exact hwrite _ _ _ hw hfront (Nat.min_le_right _ _)

namespace Proxy

/-- After a frame was put into the queue for the client. -/
def pushed (p : Proxy) (f : Frame) : Proxy :=
  { p with
    toPublic := { p.toPublic with queue := p.toPublic.queue.push f.bytes }
    queued := p.queued ++ [f] }

/-- After a frame was put into the queue for the holder. -/
def relay (p : Proxy) (h : HolderFrame) : Proxy :=
  { p with
    toHolder := { p.toHolder with queue := p.toHolder.queue.push (h.bytes p.holderMinor) }
    relayed := p.relayed ++ [h] }

section pushes

variable {P J : Proxy → Prop} {Q : Unit → Proxy → Prop}

theorem within_pushPublic {site : PushSite} {kind : MessageType} {payload : Bytes}
    (hok : ∀ p, P p → p.toPublic.queue.bytes + (headerSize + payload.length) ≤ maxProxyQueue →
      Q () (p.pushed { msgType := kind, payload }))
    (hrefused : ∀ p, P p →
      maxProxyQueue < p.toPublic.queue.bytes + (headerSize + payload.length) →
      J { p with refused := site :: p.refused }) :
    Within P (pushPublic site kind payload) Q J := by
  intro p hp
  have hbytes : publicBytes kind payload = Frame.bytes { msgType := kind, payload } := rfl
  have hlength := Frame.length_bytes { msgType := kind, payload }
  unfold pushPublic
  rw [bind_apply, read_apply]
  dsimp only
  rw [PendingWrites.push, hbytes, hlength]
  by_cases hfull : p.toPublic.queue.bytes + (headerSize + payload.length) > maxProxyQueue
  · rw [if_pos hfull]
    exact hrefused p hp hfull
  · rw [if_neg hfull]
    exact hok p hp (by omega)

/-- A push that always has room. -/
theorem within_pushPublic_room {site : PushSite} {kind : MessageType} {payload : Bytes}
    (hroom : ∀ p, P p →
      p.toPublic.queue.bytes + (headerSize + payload.length) ≤ maxProxyQueue)
    (hok : ∀ p, P p → Q () (p.pushed { msgType := kind, payload })) :
    Within P (pushPublic site kind payload) Q J := by
  apply within_pushPublic
  · exact fun p hp _ => hok p hp
  · intro p hp hfull
    have := hroom p hp
    omega

theorem within_pushHolder {kind : HolderMessageType} {payload : Bytes}
    (hok : ∀ p, P p → Q () (p.relay { messageType := kind, payload })) (hJ : ∀ p, P p → J p) :
    Within P (pushHolder kind payload) Q J := by
  apply Within.read_bind
  intro p hp
  have hsame : ∀ s : Proxy, s = p → J s := fun _ heq => heq ▸ hJ p hp
  refine Within.bind (Q := fun bytes s => s = p ∧
    bytes = HolderFrame.bytes p.holderMinor { messageType := kind, payload })
    (Within.lift ?_ hsame) fun bytes => ?_
  · intro bytes hbytes s hs
    refine ⟨hs, ?_⟩
    unfold holderBytes at hbytes
    cases hencode : encodeFrameWithMinor { messageType := kind, payload } p.holderMinor with
    | error e =>
      rw [hencode] at hbytes
      cases hbytes
    | ok encoded =>
      rw [hencode] at hbytes
      cases hbytes
      exact bytes_of_encode hencode
  apply Within.read_bind
  rintro s ⟨rfl, rfl⟩
  refine Within.bind (Q := fun toHolder q => q = s ∧ toHolder = { s.toHolder with
    queue := s.toHolder.queue.push (HolderFrame.bytes s.holderMinor { messageType := kind, payload }) })
    (Within.lift ?_ hsame) fun toHolder => ?_
  · intro toHolder hpush q hq
    refine ⟨hq, ?_⟩
    unfold PendingWrites.push at hpush
    split at hpush
    · cases hpush
    · exact (Except.ok.inj hpush).symm
  apply Within.update
  rintro q ⟨rfl, rfl⟩
  exact hok q hp

theorem within_flushPublic 
    (hP : ∀ p, P p → ∀ front count, p.toPublic.queue.front = some front → count ≤ front.length →
      P { p with toPublic := p.toPublic.write front count }) (answers : List WriteAnswer) :
    Within P (flushPublic answers) (fun _ => P) P := by
  apply Within.zoom
  intro p hp
  have hflush := PendingWrites.within_flush (F := fun w => P { p with toPublic := w })
    (fun w front count hw hfront hcount => hP _ hw front count hfront hcount) answers
  apply hflush.pre
  rintro _ rfl
  exact hp

theorem within_flushHolder
    (hP : ∀ p, P p → ∀ front count, p.toHolder.queue.front = some front → count ≤ front.length →
      P { p with toHolder := p.toHolder.write front count }) (answers : List WriteAnswer) :
    Within P (flushHolder answers) (fun _ => P) P := by
  apply Within.zoom
  intro p hp
  have hflush := PendingWrites.within_flush (F := fun w => P { p with toHolder := w })
    (fun w front count hw hfront hcount => hP _ hw front count hfront hcount) answers
  apply hflush.pre
  rintro _ rfl
  exact hp

end pushes

/-- The bytes of the reply to a frame of the client. -/
def replyBytes (f : Frame) : Nat :=
  match f.msgType with
  | .ping => 12
  | .signal => if f.payload.length < 8 then 0 else 15
  | _ => 0

theorem replyBytes_le_size (f : Frame) : replyBytes f ≤ publicFraming.size f := by
  change replyBytes f ≤ headerSize + f.payload.length
  unfold replyBytes
  rw [headerSize]
  split
  · omega
  · split
    · omega
    · omega
  · omega

theorem replyBytes_le (f : Frame) : replyBytes f ≤ 15 := by
  unfold replyBytes
  split
  · omega
  · split
    · omega
    · omega
  · omega

/-- The bytes of the public frame for a frame of the holder. -/
def announcedBytes (f : HolderFrame) : Nat :=
  match f.messageType with
  | .output => headerSize + f.payload.length
  | .writeGranted | .writeRevoked => headerSize + 4
  | .sessionExited => headerSize + 8
  | _ => 0

theorem announcedBytes_le_size {minor : Nat} (f : HolderFrame) :
    announcedBytes f ≤ (holderFraming minor).size f := by
  change announcedBytes f ≤ holderHeaderSize + f.payload.length
  unfold announcedBytes
  rw [headerSize, holderHeaderSize]
  split <;> omega

/-- The most that the public frame for one frame can take. -/
def announcedRoom : Nat := headerSize + maxHolderIoFrame

theorem announcedBytes_le {f : HolderFrame}
    (hfits : f.payload.length ≤ f.messageType.maxPayload) : announcedBytes f ≤ announcedRoom := by
  unfold announcedBytes
  rw [announcedRoom, headerSize, maxHolderIoFrame]
  cases hkind : f.messageType with
  | output =>
    rw [hkind] at hfits
    dsimp only [HolderMessageType.maxPayload, maxHolderIoFrame] at hfits ⊢
    omega
  | _ =>
    dsimp only
    omega

section order

variable [SerdeJson] {setup : Setup}

/-- Between the passes of the loop. -/
def Steady (setup : Setup) (p : Proxy) : Prop := p.Ordered setup [] ∧ p.Idle

theorem Steady.told {p : Proxy} (h : p.Steady setup) : p.Told setup := ⟨[], h.1⟩

theorem within_fillLoop (fuel : Nat) :
    Within (Steady setup) (fillLoop fuel) (fun _ => Steady setup) (Told setup) := by
  induction fuel with
  | zero => exact Within.pure fun _ hp => hp
  | succ fuel ih =>
    apply Within.read_bind
    intro p hp
    cases hdone : p.history.isDone with
    | true => exact Within.pure fun _ heq => heq ▸ hp
    | false =>
      apply Within.read_bind
      rintro q rfl
      dsimp only
      split
      · exact Within.pure fun _ heq => heq ▸ hp
      · rename_i hcapacity
        rw [PendingWrites.remainingCapacity, publicFrameHeader] at hcapacity
        generalize hcount : min (min q.history.remaining historyFramePayload)
          (q.toPublic.remainingCapacity - publicFrameHeader) = count
        rw [PendingWrites.remainingCapacity, publicFrameHeader, historyFramePayload] at hcount
        have hchunk : (q.history.chunk count).length ≤ count := List.length_take_le _ _
        refine Within.bind
          (Q := fun _ s => Steady setup { s with history := s.history.advance count })
          ?_ fun _ => ?_
        · apply within_pushPublic_room
          · rintro _ rfl
            rw [headerSize]
            omega
          · rintro _ rfl
            have hfits : count ≤ maxIoFrame := by
              rw [maxIoFrame]
              omega
            exact ⟨hp.1.chunk hdone hfits, hp.2⟩
        · exact Within.bind (Within.update fun _ hs => hs) fun _ => ih

theorem within_fill :
    Within (Steady setup) fill (fun _ => Steady setup) (Told setup) := by
  apply Within.read_bind
  intro p hp
  exact (within_fillLoop _).pre fun _ heq => heq ▸ hp

/-- While the frames of the client are handled: the queue for the client has room for `n` more
bytes within `room`. -/
def Reading (setup : Setup) (buf : FrameAccumulator) (room n : Nat) (p : Proxy) : Prop :=
  p.Ordered setup [] ∧ p.publicFrames = buf ∧
    (holderFraming p.holderMinor).tryRead p.holderFrames.buffer = .ok none ∧
    (p.history.isDone = true ∧ p.toPublic.queue.bytes + n ≤ room)

variable {buf : FrameAccumulator} {room n : Nat}

theorem Reading.mono {m : Nat} {p : Proxy} (h : p.Reading setup buf room m) (hle : n ≤ m) :
    p.Reading setup buf room n := by
  obtain ⟨hordered, hframes, hidle, hdone, hroom⟩ := h
  exact ⟨hordered, hframes, hidle, hdone, by omega⟩

theorem within_reply {kind : MessageType} {payload : Bytes}
    (hreply : Frame.isReply { msgType := kind, payload } = true)
    (hfits : payload.length ≤ kind.limit) :
    Within (Reading setup buf room (headerSize + payload.length + n))
      (pushPublic .publicRead kind payload) (fun _ => Reading setup buf room n)
      (Told setup) := by
  apply within_pushPublic
  · intro p hp _
    obtain ⟨hordered, hframes, hidle, hdone, hroom⟩ := hp
    refine ⟨hordered.reply hreply hfits, hframes, hidle, hdone, ?_⟩
    have hlength := Frame.length_bytes { msgType := kind, payload }
    dsimp only at hlength
    simp only [pushed, ByteQueue.push]
    omega
  · exact fun p hp _ => ⟨[], hp.1.refuse⟩

theorem within_handlePublic (f : Frame) :
    Within (Reading setup buf room (replyBytes f + n)) (handlePublic f)
      (fun _ => Reading setup buf room n) (Told setup) := by
  have hmono : ∀ p : Proxy, p.Reading setup buf room (replyBytes f + n) →
      p.Reading setup buf room n := fun _ hp => hp.mono (Nat.le_add_left _ _)
  have htold : ∀ p : Proxy, p.Reading setup buf room (replyBytes f + n) → p.Told setup :=
    fun _ hp => ⟨[], hp.1⟩
  have hrelay (kind : HolderMessageType) (payload : Bytes) :
      Within (Reading setup buf room (replyBytes f + n))
        (do pushHolder kind payload; return true : ProxyProgram Bool)
        (fun _ => Reading setup buf room n) (Told setup) := by
    refine Within.bind (Q := fun _ => Reading setup buf room n) ?_ fun _ =>
      Within.pure fun _ hp => hp
    exact within_pushHolder (fun p hp => hmono p hp) htold
  refine Within.bind (Q := fun _ => Reading setup buf room (replyBytes f + n))
    (Within.read fun _ hp => hp) fun writer => ?_
  split
  · exact Within.bind (Within.update fun _ hp => hp) fun _ => hrelay _ _
  · split
    · exact Within.pure hmono
    · split
      · exact Within.pure hmono
      · exact hrelay _ _
  · rename_i hsignal
    unfold decodeSignal
    by_cases hshort : f.payload.length < 8
    · rw [if_pos hshort]
      exact Within.pure hmono
    · rw [if_neg hshort]
      refine Within.bind (Q := fun _ => Reading setup buf room (replyBytes f + n))
        (within_pushHolder (fun _ hp => hp) htold) fun _ => ?_
      have hreply : replyBytes f = 15 := by
        rw [replyBytes, hsignal]
        exact if_neg hshort
      have hsend : Within (Reading setup buf room (15 + n))
          (pushPublic .publicRead .signalResp (encodeOpResp { ok := true, errorMsg := "" }))
          (fun _ => Reading setup buf room n) (Told setup) := by
        apply Within.pre (within_reply (n := n) rfl (by decide))
        exact fun _ hp => hp
      rw [hreply]
      exact Within.bind hsend fun _ => Within.pure fun _ hp => hp
  · exact Within.bind (Within.update hmono) fun _ => Within.pure fun _ hp => hp
  · exact Within.bind (Within.update hmono) fun _ => Within.pure fun _ hp => hp
  · rename_i hping
    have hreply : replyBytes f = 12 := by
      rw [replyBytes, hping]
    have hsend : Within (Reading setup buf room (12 + n)) (pushPublic .publicRead .pong [])
        (fun _ => Reading setup buf room n) (Told setup) := by
      apply Within.pre (within_reply (n := n) rfl (by decide))
      exact fun _ hp => hp
    rw [hreply]
    exact Within.bind hsend fun _ => Within.pure fun _ hp => hp
  · exact Within.pure hmono

theorem within_handlePublicFrames (frames : List Frame) :
    Within (Reading setup buf room (frames.map replyBytes).sum) (handlePublicFrames frames)
      (fun _ => Reading setup buf room 0) (Told setup) := by
  induction frames with
  | nil => exact Within.pure fun _ hp => hp
  | cons f frames ih =>
    refine Within.bind (within_handlePublic f) fun goOn => ?_
    split
    · exact ih
    · exact Within.pure fun _ hp => hp.mono (Nat.zero_le _)

/-- When a socket may be read: the history is out, and the queue for the client holds no more
than `room` bytes. -/
def Ready (setup : Setup) (room : Nat) (p : Proxy) : Prop :=
  p.Steady setup ∧ p.history.isDone = true ∧ p.toPublic.queue.bytes ≤ room

/-- The most that replies to one read can take. -/
def replyRoom : Nat := 15 + proxyReadBuffer

theorem within_takePublic {bytes : Bytes} (hbytes : bytes.length ≤ proxyReadBuffer) :
    Within (Ready setup 0) (readPublic.takePublic bytes)
      (fun goOn p => if goOn then p.Ready setup replyRoom else p.Ordered setup [])
      (Told setup) := by
  apply Within.read_bind
  intro p hp
  obtain ⟨⟨hordered, hpublic, hholder⟩, hdone, hempty⟩ := hp
  have hweight := Framing.sum_weight_append_le (F := publicFraming) replyBytes_le_size
    (fun _ _ f _ => replyBytes_le f) hpublic bytes
  dsimp only [FrameAccumulator.feed]
  generalize hcut : publicFraming.cut (p.publicFrames.buf ++ bytes) = cut at hweight ⊢
  refine Within.bind (Q := fun _ => Reading setup ⟨cut.rest⟩ replyRoom
    (cut.items.map replyBytes).sum) (Within.update ?_) fun _ => ?_
  · rintro _ rfl
    refine ⟨hordered, rfl, hholder, hdone, ?_⟩
    dsimp only
    rw [replyRoom]
    omega
  · refine Within.bind (within_handlePublicFrames cut.items) fun goOn => ?_
    cases goOn with
    | false => exact Within.pure fun _ hs => hs.1
    | true =>
      cases hstopped : cut.stopped with
      | some e => exact Within.fail fun _ hs => ⟨[], hs.1⟩
      | none =>
        apply Within.pure
        intro s hs
        obtain ⟨hordered, hframes, hholder, hdone, hroom⟩ := hs
        refine ⟨⟨hordered, ?_, hholder⟩, hdone, hroom⟩
        rw [hframes, ← hcut]
        exact Framing.tryRead_rest (hcut ▸ hstopped)

theorem within_readPublic (answer : ReadAnswer) :
    Within (Ready setup 0) (readPublic answer)
      (fun goOn p => if goOn then p.Ready setup replyRoom else p.Ordered setup [])
      (Told setup) := by
  apply Within.read_bind
  intro p hp
  have htold : ∀ s : Proxy, s = p → s.Told setup := fun _ heq => heq ▸ hp.1.told
  cases hread : p.client.read answer with
  | error source =>
    cases source with
    | wouldBlock => exact (within_takePublic (Nat.zero_le _)).pre fun _ heq => heq ▸ hp
    | _ => exact Within.fail htold
  | ok found =>
    obtain ⟨bytes, client⟩ := found
    refine Within.bind (Q := fun _ => Ready setup 0) (Within.update ?_) fun _ => ?_
    · rintro _ rfl
      exact hp
    · split
      · exact Within.pure fun _ hs => hs.1.1
      · exact within_takePublic (Inlet.length_read hread)

/-- While the frames of the holder are handled. -/
def Telling (setup : Setup) (minor : Nat) (buf : HolderFrameAccumulator) (n : Nat)
    (p : Proxy) : Prop :=
  p.Ordered setup [] ∧ publicFraming.tryRead p.publicFrames.buf = .ok none ∧
    (p.holderMinor = minor ∧ p.holderFrames = buf) ∧
    (p.history.isDone = true ∧ p.toPublic.queue.bytes + n ≤ maxProxyQueue)

variable {minor : Nat} {heldBack : HolderFrameAccumulator}

theorem Telling.mono {m : Nat} {p : Proxy} (h : p.Telling setup minor heldBack m) (hle : n ≤ m) :
    p.Telling setup minor heldBack n := by
  obtain ⟨hordered, hidle, hframes, hdone, hroom⟩ := h
  exact ⟨hordered, hidle, hframes, hdone, by omega⟩

/-- The frame `h` is off the stream and the client not yet told. -/
def Owing (setup : Setup) (minor : Nat) (buf : HolderFrameAccumulator) (h : HolderFrame)
    (n : Nat) (p : Proxy) : Prop :=
  p.Ordered setup [h] ∧ publicFraming.tryRead p.publicFrames.buf = .ok none ∧
    (p.holderMinor = minor ∧ p.holderFrames = buf) ∧
    (p.history.isDone = true ∧ p.toPublic.queue.bytes + n ≤ maxProxyQueue)

/-- The client is told of a frame: there is room for it. -/
theorem within_announce {h : HolderFrame} {kind : MessageType} {payload : Bytes} {P : Proxy → Prop}
    (hP : ∀ p, P p → p.Owing setup minor heldBack h (headerSize + payload.length + n))
    (hannounces : ∀ p, P p →
      Announces p.sessionId minor h { msgType := kind, payload })
    (hreply : Frame.isReply { msgType := kind, payload } = false)
    (hfits : payload.length ≤ kind.limit) :
    Within P (pushPublic .holderRead kind payload)
      (fun _ => Telling setup minor heldBack n) (Told setup) := by
  apply within_pushPublic_room
  · intro p hp
    obtain ⟨-, -, -, -, hroom⟩ := hP p hp
    omega
  · intro p hp
    obtain ⟨hordered, hidle, hframes, hdone, hroom⟩ := hP p hp
    have hsame := hannounces p hp
    rw [← hframes.1] at hsame
    refine ⟨hordered.announce hsame hreply hfits, hidle, hframes, hdone, ?_⟩
    have hlength := Frame.length_bytes { msgType := kind, payload }
    dsimp only at hlength
    simp only [pushed, ByteQueue.push]
    omega

theorem within_handleWriterEvent {h : HolderFrame}
    (hkind : h.messageType = .writeGranted ∨ h.messageType = .writeRevoked) :
    Within (Owing setup minor heldBack h (headerSize + 4 + n))
      (handleWriterEvent h.messageType h.payload)
      (fun _ => Telling setup minor heldBack n) (Told setup) := by
  have htold : ∀ p : Proxy, p.Owing setup minor heldBack h (headerSize + 4 + n) →
      p.Told setup := fun _ hp => ⟨[h], hp.1⟩
  apply Within.read_bind
  intro p hp
  refine Within.bind (Q := fun _ s => s = p) (Within.lift (fun _ _ _ heq => heq) ?_) fun event => ?_
  · rintro s rfl
    exact htold _ hp
  refine Within.bind (Q := fun _ s => s = p) ?_ fun _ => ?_
  · unfold rejectIf
    split
    · apply Within.fail
      rintro s rfl
      exact htold _ hp
    · exact Within.pure fun _ heq => heq
  refine Within.bind (Q := fun _ s => s.sessionId = p.sessionId ∧
      s.Owing setup minor heldBack h (headerSize + 4 + n)) (Within.update ?_) fun _ => ?_
  · rintro s rfl
    exact ⟨rfl, hp⟩
  · have hlength : (encodeWriterControl { sessionId := p.sessionId }).length = 4 :=
      length_toBeBytes 4 p.sessionId
    apply within_announce (h := h)
    · intro s hs
      rw [hlength]
      exact hs.2
    · intro s hs
      rw [hs.1]
      unfold Announces
      rcases hkind with hkind | hkind
      · rw [hkind]
        rfl
      · rw [hkind]
        rfl
    · rcases hkind with hkind | hkind
      · rw [hkind]
        rfl
      · rw [hkind]
        rfl
    · rcases hkind with hkind | hkind
      · rw [hkind]
        exact length_writerFrame
      · rw [hkind]
        exact length_writerFrame

theorem within_handleHolder {h : HolderFrame}
    (hfits : h.payload.length ≤ h.messageType.maxPayload) :
    Within (Telling setup minor heldBack (announcedBytes h + n)) (handleHolder h)
      (fun outcome p => if outcome.isNone then p.Telling setup minor heldBack n
        else p.Ordered setup []) (Told setup) := by
  have howing (hannounced : h.isAnnounced = true) :
      Within (Telling setup minor heldBack (announcedBytes h + n))
        (Program.update fun p => { p with received := p.received ++ [h] } : ProxyProgram Unit)
        (fun _ => Owing setup minor heldBack h (announcedBytes h + n)) (Told setup) := by
    apply Within.update
    intro p hp
    obtain ⟨hordered, hidle, hframes, hdone, hroom⟩ := hp
    have hreceive := hordered.receive hdone hfits
    rw [if_pos hannounced] at hreceive
    exact ⟨hreceive, hidle, hframes, hdone, hroom⟩
  unfold handleHolder
  cases hkind : h.messageType with
  | output =>
    have hannounced : h.isAnnounced = true := by
      rw [HolderFrame.isAnnounced, hkind]
      rfl
    have hbytes : announcedBytes h = headerSize + h.payload.length := by
      rw [announcedBytes, hkind]
    refine Within.bind (howing hannounced) fun _ => ?_
    refine Within.bind (Q := fun _ => Telling setup minor heldBack n) ?_ fun _ =>
      Within.pure fun _ hs => hs
    apply within_announce (h := h)
    · exact fun p hp => hbytes ▸ hp
    · intro p hp
      unfold Announces
      rw [hkind]
      rfl
    · rfl
    · rw [hkind] at hfits
      exact hfits
  | writeGranted =>
    have hannounced : h.isAnnounced = true := by
      rw [HolderFrame.isAnnounced, hkind]
      rfl
    have hbytes : announcedBytes h = headerSize + 4 := by
      rw [announcedBytes, hkind]
    refine Within.bind (howing hannounced) fun _ => ?_
    dsimp only
    rw [hbytes, ← hkind]
    exact Within.bind (within_handleWriterEvent (.inl hkind)) fun _ => Within.pure fun _ hs => hs
  | writeRevoked =>
    have hannounced : h.isAnnounced = true := by
      rw [HolderFrame.isAnnounced, hkind]
      rfl
    have hbytes : announcedBytes h = headerSize + 4 := by
      rw [announcedBytes, hkind]
    refine Within.bind (howing hannounced) fun _ => ?_
    dsimp only
    rw [hbytes, ← hkind]
    exact Within.bind (within_handleWriterEvent (.inr hkind)) fun _ => Within.pure fun _ hs => hs
  | sessionExited =>
    have hannounced : h.isAnnounced = true := by
      rw [HolderFrame.isAnnounced, hkind]
      rfl
    have hbytes : announcedBytes h = headerSize + 8 := by
      rw [announcedBytes, hkind]
    refine Within.bind (howing hannounced) fun _ => ?_
    dsimp only
    apply Within.read_bind
    intro p hp
    have htold : ∀ s : Proxy, s = p → s.Told setup := fun _ heq => heq ▸ ⟨[h], hp.1⟩
    apply Within.read_bind
    rintro q rfl
    refine Within.bind (Q := fun context s => s = q ∧
      decodeExit q.holderMinor h.payload = .ok context)
      (Within.lift (fun _ hok _ heq => ⟨heq, hok⟩) htold) fun context => ?_
    refine Within.bind (Q := fun _ s => s = q ∧
      decodeExit q.holderMinor h.payload = .ok context) ?_ fun _ => ?_
    · unfold rejectIf
      split
      · exact Within.fail fun s hs => htold s hs.1
      · exact Within.pure fun _ hs => hs
    have hlength : (encodeSessionExited
        { sessionId := q.sessionId, exitCode := context.exitCode }).length = 8 := by
      unfold encodeSessionExited putI32 putU32
      rw [List.length_append, length_toBeBytes, length_toBeBytes]
    refine Within.bind (Q := fun _ => Telling setup minor heldBack n) ?_ fun _ =>
      Within.pure fun _ hs => hs.1
    apply within_announce (h := h)
    · rintro s ⟨rfl, -⟩
      rw [hlength, ← hbytes]
      exact hp
    · rintro s ⟨rfl, hcontext⟩
      unfold Announces
      rw [hkind]
      refine ⟨context.exitCode, rfl, ?_⟩
      intro context' hcontext'
      rw [← hp.2.2.1.1, hcontext] at hcontext'
      cases hcontext'
      rfl
    · rfl
    · exact length_exitedFrame
  | _ =>
    refine Within.bind (Q := fun _ => Telling setup minor heldBack n) (Within.update ?_)
      fun _ => Within.pure fun _ hs => hs
    intro p hp
    obtain ⟨hordered, hidle, hframes, hdone, hroom⟩ := hp
    have hreceive := hordered.receive hdone hfits
    have hannounced : h.isAnnounced = false := by
      rw [HolderFrame.isAnnounced, hkind]
      rfl
    rw [hannounced] at hreceive
    exact ⟨hreceive, hidle, hframes, hdone, by dsimp only; omega⟩

theorem within_handleHolderFrames {frames : List HolderFrame}
    (hfits : ∀ h ∈ frames, h.payload.length ≤ h.messageType.maxPayload) :
    Within (Telling setup minor heldBack (frames.map announcedBytes).sum)
      (handleHolderFrames frames)
      (fun outcome p => if outcome.isNone then p.Telling setup minor heldBack 0
        else p.Ordered setup []) (Told setup) := by
  induction frames with
  | nil => exact Within.pure fun _ hp => hp
  | cons h frames ih =>
    refine Within.bind (within_handleHolder (hfits h List.mem_cons_self)) fun outcome => ?_
    cases outcome with
    | some outcome => exact Within.pure fun _ hp => hp
    | none => exact ih fun g hg => hfits g (List.mem_cons_of_mem _ hg)

theorem within_readHolder (answer : ReadAnswer) :
    Within (Ready setup replyRoom) (readHolder answer)
      (fun outcome p => if outcome.isNone then p.Steady setup else p.Ordered setup [])
      (Told setup) := by
  apply Within.read_bind
  intro p hp
  have htold : ∀ s : Proxy, s = p → s.Told setup := fun _ heq => heq ▸ hp.1.told
  cases hread : p.holder.read answer with
  | error source =>
    cases source with
    | wouldBlock => exact Within.pure fun _ heq => heq ▸ hp.1
    | _ => exact Within.fail htold
  | ok found =>
    obtain ⟨bytes, holder⟩ := found
    have hbytes := Inlet.length_read hread
    refine Within.bind (Q := fun _ => Ready setup replyRoom) (Within.update ?_) fun _ => ?_
    · rintro _ rfl
      exact hp
    split
    · exact Within.pure fun _ hs => hs.1.1
    apply Within.read_bind
    rintro q hq
    have htold : ∀ s : Proxy, s = q → s.Told setup := fun _ heq => heq ▸ hq.1.told
    refine Within.bind (Q := fun accumulator s => s = q ∧
      accumulator.buffer = q.holderFrames.buffer ++ bytes) (Within.lift ?_ htold)
      fun accumulator => ?_
    · rintro accumulator hfeed _ rfl
      unfold HolderFrameAccumulator.feed at hfeed
      split at hfeed
      · cases hfeed
      · cases hfeed
        exact ⟨rfl, rfl⟩
    apply Within.read_bind
    rintro _ ⟨rfl, hbuffer⟩
    rename_i s
    obtain ⟨⟨hordered, hpublic, hholder⟩, hdone, hroom⟩ := hq
    rw [hbuffer]
    have hweight := Framing.sum_weight_append_le (F := holderFraming s.holderMinor)
      announcedBytes_le_size (fun _ _ h hfound => announcedBytes_le (payload_le_of_read hfound))
      hholder bytes
    have hfits : ∀ h ∈ ((holderFraming s.holderMinor).cut
        (s.holderFrames.buffer ++ bytes)).items,
        h.payload.length ≤ h.messageType.maxPayload := by
      intro h hmem
      obtain ⟨front, rest, hfound⟩ := Framing.read_of_mem hmem
      exact payload_le_of_read hfound
    generalize hcut : (holderFraming s.holderMinor).cut (s.holderFrames.buffer ++ bytes) = cut
      at hweight hfits ⊢
    refine Within.bind (Q := fun _ => Telling setup s.holderMinor ⟨cut.rest⟩
      (cut.items.map announcedBytes).sum) (Within.update ?_) fun _ => ?_
    · rintro t rfl
      refine ⟨hordered, hpublic, ⟨rfl, rfl⟩, hdone, ?_⟩
      rw [replyRoom, proxyReadBuffer] at hroom
      rw [announcedRoom, maxHolderIoFrame, headerSize] at hweight
      rw [proxyReadBuffer] at hbytes
      rw [maxProxyQueue]
      dsimp only
      omega
    refine Within.bind (within_handleHolderFrames hfits) fun outcome => ?_
    cases outcome with
    | some outcome => exact Within.pure fun _ ht => ht
    | none =>
      cases hstopped : cut.stopped with
      | some e => exact Within.fail fun _ ht => ⟨[], ht.1⟩
      | none =>
        apply Within.pure
        intro t ht
        obtain ⟨hordered, hpublic, ⟨hminor, hframes⟩, -, -⟩ := ht
        refine ⟨hordered, hpublic, ?_⟩
        rw [hminor, hframes, ← hcut]
        exact Framing.tryRead_rest (hcut ▸ hstopped)

theorem within_serve (t : PassTurn) (client holder : Readiness) (timer : Bool) :
    Within (Steady setup) (serve t client holder timer) (fun _ => Steady setup)
      (Told setup) := by
  have hpublic := (within_flushPublic (P := Steady setup)
    (fun p hp front count hfront hcount => ⟨hp.1.write hfront hcount, hp.2⟩)
    t.clientWrites).weaken fun _ hp => hp.told
  have hholder := (within_flushHolder (P := Steady setup) (fun p hp _ _ _ _ => hp)
    t.holderWrites).weaken fun _ hp => hp.told
  have hskip : Within (Steady setup) (pure PUnit.unit : ProxyProgram PUnit)
      (fun _ => Steady setup) (Told setup) := Within.pure fun _ hp => hp
  refine Within.bind (Q := fun _ => Steady setup) ?_ fun _ => ?_
  · unfold timerStep
    split
    · unfold observe
      split
      · exact hskip
      · exact Within.fail fun _ hp => hp.told
    · exact hskip
  refine Within.bind (Q := fun _ => Steady setup) ?_ fun _ => ?_
  · unfold publicStep
    split
    · exact Within.bind hpublic fun _ => within_fill
    · exact hskip
  · unfold relayStep
    split
    · exact hholder
    · exact hskip

/-- A socket that `poll` reports readable may be read. -/
theorem within_wait (t : PassTurn) :
    Within (Steady setup) (wait t)
      (fun ready p => p.Steady setup ∧ ∀ client holder timer,
        ready = some (client, holder, timer) →
          client.readable = true ∨ holder.readable = true → p.Ready setup 0) (Told setup) := by
  refine Within.bind (Q := fun _ => Steady setup) (Within.update fun _ hp => hp) fun _ => ?_
  apply Within.read_bind
  intro p hp
  cases t.poll with
  | interrupted =>
    apply Within.pure
    rintro _ rfl
    exact ⟨hp, nofun⟩
  | fault source => exact Within.fail fun _ heq => heq ▸ hp.told
  | ready client holder timer =>
    apply Within.pure
    rintro q rfl
    refine ⟨hp, ?_⟩
    rintro _ _ _ ⟨⟩ hreadable
    have hpending : q.historyPending = false := by
      simp only [requested, id, Bool.and_eq_true, Bool.not_eq_true'] at hreadable
      rcases hreadable with h | h
      · exact h.2
      · exact h.2
    simp only [historyPending, PendingWrites.hasData, ByteQueue.isEmpty, Bool.or_eq_false_iff,
      Bool.not_eq_false', List.isEmpty_iff] at hpending
    obtain ⟨done, waiting, -, hcarries⟩ := hp.1.carried
    exact ⟨hp, hpending.1, Nat.le_of_eq (hcarries.bytes_nil hpending.2)⟩

theorem within_pass (t : PassTurn) :
    Within (Steady setup) (pass t)
      (fun outcome p => if outcome.isNone then p.Steady setup else p.Ordered setup [])
      (Told setup) := by
  refine Within.bind (within_wait t) fun ready => ?_
  cases ready with
  | none => exact Within.pure fun _ hp => hp.1
  | some ready =>
    obtain ⟨client, holder, timer⟩ := ready
    dsimp only
    refine Within.bind (Q := fun goOn p => if goOn then p.Steady setup ∧
      (holder.readable = true → p.Ready setup replyRoom) else p.Ordered setup []) ?_ fun goOn => ?_
    · unfold clientStep
      split
      · rename_i hreadable
        apply (within_readPublic t.clientRead).conseq
        · exact fun p hp => hp.2 client holder timer rfl (.inl hreadable)
        · intro goOn p hp
          cases goOn with
          | false => exact hp
          | true => exact ⟨hp.1, fun _ => hp⟩
      · apply Within.pure
        intro p hp
        refine ⟨hp.1, fun hreadable => ?_⟩
        obtain ⟨hsteady, hdone, hroom⟩ := hp.2 client holder timer rfl (.inr hreadable)
        exact ⟨hsteady, hdone, by omega⟩
    cases goOn with
    | false => exact Within.pure fun _ hp => hp
    | true =>
      rw [if_pos rfl]
      refine Within.bind (Q := fun outcome p => if outcome.isNone then p.Steady setup
        else p.Ordered setup []) ?_ fun outcome => ?_
      · unfold holderStep
        by_cases hreadable : holder.readable = true
        · rw [if_pos hreadable]
          exact (within_readHolder t.holderRead).pre fun p hp => hp.2 hreadable
        · rw [if_neg hreadable]
          exact Within.pure fun p hp => hp.1
      cases outcome with
      | some outcome =>
        have hflush := within_flushPublic (P := Ordered setup [])
          (fun p hp front count hfront hcount => hp.write hfront hcount) t.lastWrites
        refine Within.bind (Q := fun _ => Ordered setup []) ?_ fun _ => Within.pure fun _ hp => hp
        refine Within.bind (Q := fun _ => Ordered setup []) ?_ fun _ => Within.pure fun _ hp => hp
        apply ((Within.attempt hflush).weaken fun _ hp => ⟨[], hp⟩).post
        intro r p hp
        cases r with
        | ok u => exact hp
        | error e => exact hp
      | none =>
        refine Within.bind (within_serve t client holder timer) fun _ => ?_
        split
        · exact Within.pure fun _ hp => hp.1
        · exact Within.pure fun _ hp => hp

theorem steady_start (readWrite hasTimer : Bool) :
    (start setup.sessionId setup.minor setup.initial readWrite hasTimer).Steady setup := by
  refine ⟨?_, rfl, rfl⟩
  constructor
  · exact ⟨rfl, rfl, rfl⟩
  · exact ⟨[], [], rfl, ByteQueue.Carries.empty⟩
  · exact nofun
  · exact ⟨[], [], [], rfl, rfl, rfl, .nil⟩
  · exact nofun
  · exact fun h => absurd rfl h
  · exact nofun

end order

end Proxy

section main

variable [SerdeJson]

end main

end PersistShell

import PersistShell.Core.Json
import PersistShell.Daemon.ProxyOrder

/-! What has been delivered when the proxy ends: the input that the client sent while it was the
writer, and the output and the exit that the holder sent. The loop ends at one of three steps:
a read of the client, a read of the holder, and the look at the failure bits of the poll. None
of them waits for the queues, so that everything depends on what is left in the state before
the step. -/

namespace PersistShell
open Program

/-- The frames after which the proxy leaves the client. -/
def Frame.endsAttach (f : Frame) : Bool := f.msgType = .detach || f.msgType = .close

/-- The payloads of the `Stdin` frames before the client ends the attach. -/
def stdinBefore : List Frame → List Bytes
  | [] => []
  | f :: frames =>
    if f.endsAttach then []
    else if f.msgType = .stdin then f.payload :: stdinBefore frames
    else stdinBefore frames

def inputs (frames : List HolderFrame) : List Bytes :=
  (frames.filter (·.messageType = .input)).map HolderFrame.payload

def HolderFrame.isExit (f : HolderFrame) : Bool := f.messageType = .sessionExited

/-- Frames of the holder that the client must be sent before the attach ends. -/
def HolderFrame.isOutput (f : HolderFrame) : Bool := f.messageType = .output || f.isExit

/-- Frames to the client that stand for those. -/
def Frame.isOutput (f : Frame) : Bool := f.msgType = .stdout || f.msgType = .sessionExited

/-- What is left of the frames behind the first exit. -/
def behindExit (frames : List HolderFrame) : List HolderFrame :=
  (frames.dropWhile (!·.isExit)).tail

/-- Whether the client is the writer after a frame of the holder. -/
def writerWith (writer : Bool) (h : HolderFrame) : Bool :=
  if h.messageType = .writeGranted then true
  else if h.messageType = .writeRevoked then false
  else writer

/-- Whether the client is the writer after the frames before the first exit. -/
def writerAfter : Bool → List HolderFrame → Bool
  | writer, [] => writer
  | writer, h :: frames => if h.isExit then writer else writerAfter (writerWith writer h) frames

/-- The type that a queued frame carries. -/
def holderKind (chunk : Bytes) : Option HolderMessageType :=
  HolderMessageType.fromU16 (fromBeBytes ((chunk.drop 12).take 2))

def publicKind (chunk : Bytes) : Option MessageType :=
  MessageType.fromU16 (fromBeBytes ((chunk.drop 4).take 2))

namespace Proxy

/-- The frames of the client that have arrived and are not handled. -/
def unhandled (p : Proxy) : List Frame :=
  (publicFraming.cut (p.publicFrames.buf ++ p.client.unread)).items

/-- The frames of the holder that have arrived and are not handled. -/
def unheard (p : Proxy) : List HolderFrame :=
  ((holderFraming p.holderMinor).cut (p.holderFrames.buffer ++ p.holder.unread)).items

/-- All the frames that the holder has sent. -/
def sentByHolder (p : Proxy) : List HolderFrame :=
  ((holderFraming p.holderMinor).cut p.holder.sent).items

/-- The `Stdin` frames that arrived and are not handled, when the client is the writer. -/
def inputLeft (p : Proxy) : List Bytes := if p.writer then stdinBefore p.unhandled else []

/-- The payloads of the `Stdin` frames that arrived while the client was the writer, and before
it ended the attach. -/
def owedInput (p : Proxy) : List Bytes :=
  p.accepted ++ if p.detached then [] else p.inputLeft

/-- Every `Stdin` frame that counts is on the holder connection as a whole `Input` frame. -/
def InputDelivered (p : Proxy) : Prop :=
  ∃ frames : List HolderFrame, frames.flatMap (HolderFrame.bytes p.holderMinor) <+: p.toHolder.written ∧
    inputs frames = p.owedInput

/-- Whether the holder has ended the data connection, or said that the session is over. -/
def holderLeft (p : Proxy) : Bool := p.holder.ended || p.received.any HolderFrame.isExit

section

variable [SerdeJson]

/-- Every output and exit that the holder sent is with the client as a whole frame, if the
client is still there. -/
def OutputDelivered (p : Proxy) : Prop :=
  p.client.ended = false → p.holderLeft = true →
    ∃ frames told : List Frame, frames.flatMap Frame.bytes <+: p.toPublic.written ∧
      told.Sublist frames ∧
      List.Forall₂ (Announces p.sessionId p.holderMinor)
        (p.sentByHolder.filter HolderFrame.isOutput) told

end

/-- No frame in the queue for the holder is an `Input` frame. -/
def NoInputWaits (p : Proxy) : Prop :=
  ∀ chunk ∈ p.toHolder.queue.chunks, holderKind chunk ≠ some .input

/-- No frame in the queue for the client is output or an exit. -/
def NoOutputWaits (p : Proxy) : Prop :=
  ∀ chunk ∈ p.toPublic.queue.chunks,
    publicKind chunk ≠ some .stdout ∧ publicKind chunk ≠ some .sessionExited

/-- The bytes that a read of the client brings. -/
def clientBytes (answer : ReadAnswer) (p : Proxy) : Bytes :=
  ((p.client.read answer).toOption.map Prod.fst).getD []

def holderBytesRead (answer : ReadAnswer) (p : Proxy) : Bytes :=
  ((p.holder.read answer).toOption.map Prod.fst).getD []

/-- The frames that a read of the client completes. -/
def framesRead (answer : ReadAnswer) (p : Proxy) : List Frame :=
  (publicFraming.cut (p.publicFrames.buf ++ p.clientBytes answer)).items

def framesHeard (answer : ReadAnswer) (p : Proxy) : List HolderFrame :=
  ((holderFraming p.holderMinor).cut
    (p.holderFrames.buffer ++ p.holderBytesRead answer)).items

/-- A read of the client that ends the attach: at the end of the stream, or at a `Detach`. -/
def ClientLeaves (answer : ReadAnswer) (p : Proxy) : Prop :=
  (p.client.read answer).toOption.map Prod.fst = some [] ∨
    (p.framesRead answer).any Frame.endsAttach = true

instance (answer : ReadAnswer) (p : Proxy) : Decidable (p.ClientLeaves answer) :=
  inferInstanceAs (Decidable (_ ∨ _))

/-- A read of the holder that ends the attach. -/
def HolderLeaves (answer : ReadAnswer) (p : Proxy) : Prop :=
  (p.holder.read answer).toOption.map Prod.fst = some [] ∨
    (p.framesHeard answer).any HolderFrame.isExit = true

/-- Before a read of the client that ends the attach: no input waits for the holder or comes with
that read, and if the holder has closed its end under a client that has not, nothing of its
output is left on the socket. -/
def ClientSettles (t : PassTurn) (p : Proxy) : Prop :=
  p.ClientLeaves t.clientRead → p.NoInputWaits ∧
    (p.writer = true → stdinBefore (p.framesRead t.clientRead) = []) ∧
    (p.client.ended = false → p.holder.ended = true →
      p.unheard.filter HolderFrame.isOutput = [])

/-- Before a read of the holder that ends the attach: no input waits for the holder or on the
socket of a client that is then the writer; and if the client is there when the exit comes, the
socket of the client refuses none of the last writes, and no output follows the exit. -/
def HolderSettles (t : PassTurn) (p : Proxy) : Prop :=
  p.HolderLeaves t.holderRead → p.NoInputWaits ∧
    (writerAfter p.writer (p.framesHeard t.holderRead) = true → stdinBefore p.unhandled = []) ∧
    (p.client.ended = false → (p.framesHeard t.holderRead).any HolderFrame.isExit = true →
      (∀ source, WriteAnswer.fault source ∉ t.lastWrites) ∧
      (behindExit p.unheard).filter HolderFrame.isOutput = [])

/-- Before the loop ends for a failure bit: no input waits anywhere; and if the holder has closed
its end under a client that has not, no output waits anywhere. -/
def FailureSettles (p : Proxy) : Prop :=
  p.NoInputWaits ∧ p.inputLeft = [] ∧
    (p.client.ended = false → p.holder.ended = true →
      p.NoOutputWaits ∧ p.unheard.filter HolderFrame.isOutput = [])

section

variable [SerdeJson]

/-- Each step of a pass at which the loop can end finds nothing left over. -/
def PassSettles (t : PassTurn) (p : Proxy) : Prop :=
  ∀ client holder timer polled, wait t p = (.ok (some (client, holder, timer)), polled) →
    (client.readable = true → polled.ClientSettles t) ∧
    ∀ heard, clientStep t client polled = (.ok true, heard) →
      (holder.readable = true → heard.HolderSettles t) ∧
      ∀ told served, holderStep t holder heard = (.ok none, told) →
        serve t client holder timer told = (.ok (), served) →
          (client.failed || holder.failed) = true → served.FailureSettles

def LoopSettles : List PassTurn → Proxy → Prop
  | [], _ => True
  | t :: turns, p =>
    PassSettles t p ∧ ∀ p', pass t p = (.ok none, p') → LoopSettles turns p'

/-- Every step of a run at which the loop can end finds nothing left over. -/
def RunSettles (turns : List PassTurn) (p : Proxy) : Prop :=
  ∀ p', fill p = (.ok (), p') → LoopSettles turns p'

end

end Proxy

section kinds

theorem HolderFrame.bytes_eq (minor : Nat) (h : HolderFrame) :
    ∃ front rest, h.bytes minor = front ++ (putU16 h.messageType.toU16 ++ rest) ∧
      front.length = 12 := by
  refine ⟨holderMagic ++ putU16 holderProtocolMajor ++ putU16 minor ++ putU32 h.payload.length,
    putU16 h.flags ++ putU32 h.requestId ++ putU64 h.generation ++ putU32 0 ++ h.payload, ?_, ?_⟩
  · simp only [HolderFrame.bytes, List.append_assoc]
  · simp only [List.length_append, putU16, putU32, length_toBeBytes]
    rfl

theorem HolderFrame.bytes_ne_nil (minor : Nat) (h : HolderFrame) : h.bytes minor ≠ [] := by
  obtain ⟨front, rest, hbytes, hfront⟩ := h.bytes_eq minor
  apply List.ne_nil_of_length_pos
  rw [hbytes, List.length_append, hfront]
  omega

theorem holderKind_bytes (minor : Nat) (h : HolderFrame) :
    holderKind (h.bytes minor) = some h.messageType := by
  obtain ⟨front, rest, hbytes, hfront⟩ := h.bytes_eq minor
  have hkind : h.messageType.toU16 % 256 ^ 2 = h.messageType.toU16 := by
    cases h.messageType <;> rfl
  rw [holderKind, hbytes, List.drop_left' hfront, putU16, List.take_left' (length_toBeBytes 2 _),
    fromBeBytes_toBeBytes, hkind, HolderMessageType.fromU16_toU16]

theorem publicKind_bytes (f : Frame) : publicKind f.bytes = some f.msgType := by
  have hkind : f.msgType.toU16 % 256 ^ 2 = f.msgType.toU16 := by
    cases f.msgType <;> rfl
  have hbytes : f.bytes = putU32 f.payload.length ++ (putU16 f.msgType.toU16 ++
      (putU16 f.flags ++ putU32 f.requestId ++ f.payload)) := by
    simp only [Frame.bytes, List.append_assoc]
  have hlen : (putU32 f.payload.length).length = 4 := length_toBeBytes 4 _
  have htype : (putU16 f.msgType.toU16).length = 2 := length_toBeBytes 2 _
  rw [publicKind, hbytes, List.drop_left' hlen, List.take_left' htype, putU16,
    fromBeBytes_toBeBytes, hkind, MessageType.fromU16_toU16]

theorem inputs_append (frames frames' : List HolderFrame) :
    inputs (frames ++ frames') = inputs frames ++ inputs frames' := by
  rw [inputs, List.filter_append, List.map_append]
  rfl

end kinds

namespace Proxy

section invariants

/-- `waiting` are the payloads of the `Input` frames that are not wholly written to the holder;
what was put into the queue is what was accepted of the client. -/
def Relays (waits : List Bytes) (p : Proxy) : Prop :=
  ∃ done waiting, p.relayed = done ++ waiting ∧
    p.toHolder.queue.Carries (HolderFrame.bytes p.holderMinor) done waiting p.toHolder.written ∧
    inputs waiting = waits ∧ inputs p.relayed = p.accepted

/-- No output waits in the queue for the client. -/
def Clear (p : Proxy) : Prop :=
  ∃ done waiting, p.queued = done ++ waiting ∧
    p.toPublic.queue.Carries Frame.bytes done waiting p.toPublic.written ∧
    waiting.filter Frame.isOutput = []

/-- The frames of the holder are cut off its stream in order: what is left is what has arrived
behind them. -/
def Heard (p : Proxy) : Prop :=
  ∃ eaten, p.holder.sent = eaten ++ (p.holderFrames.buffer ++ p.holder.unread) ∧
    ∀ more, (holderFraming p.holderMinor).cut (eaten ++ more) =
      ((holderFraming p.holderMinor).cut more).after p.received

theorem Relays.nil_of_noInputWaits {waits : List Bytes} {p : Proxy} (h : p.Relays waits)
    (hnone : p.NoInputWaits) : waits = [] := by
  obtain ⟨done, waiting, -, hcarries, rfl, -⟩ := h
  rw [inputs, List.map_eq_nil_iff, List.filter_eq_nil_iff]
  intro frame hframe hinput
  apply hnone (frame.bytes p.holderMinor)
  · rw [hcarries.chunks]
    exact List.mem_map_of_mem hframe
  · rw [holderKind_bytes, of_decide_eq_true hinput]

theorem Relays.delivered {p : Proxy} (h : p.Relays [])
    (howed : p.owedInput = p.accepted) : p.InputDelivered := by
  obtain ⟨done, waiting, hrelayed, hcarries, hwaits, haccepted⟩ := h
  refine ⟨done, hcarries.done_prefix, ?_⟩
  rw [howed, ← haccepted, hrelayed, inputs_append, hwaits, List.append_nil]

theorem Relays.relay {waits : List Bytes} {p : Proxy} (h : p.Relays waits) {frame : HolderFrame}
    (hframe : frame.messageType ≠ .input) : (p.relay frame).Relays waits := by
  obtain ⟨done, waiting, hrelayed, hcarries, hwaits, haccepted⟩ := h
  have hnone : inputs [frame] = [] := by
    rw [inputs, List.filter_cons, if_neg]
    · rfl
    · rw [decide_eq_true_eq]
      exact hframe
  refine ⟨done, waiting ++ [frame], ?_, hcarries.push (frame.bytes_ne_nil _), ?_, ?_⟩
  · simp only [Proxy.relay, hrelayed, List.append_assoc]
  · rw [inputs_append, hwaits, hnone, List.append_nil]
  · simp only [Proxy.relay, inputs_append, hnone, List.append_nil]
    exact haccepted

/-- An input is accepted and put into the queue. -/
theorem Relays.accept {waits : List Bytes} {p : Proxy} (h : p.Relays waits) (payload : Bytes) :
    (Proxy.relay { p with accepted := p.accepted ++ [payload] }
      { messageType := .input, payload }).Relays (waits ++ [payload]) := by
  obtain ⟨done, waiting, hrelayed, hcarries, hwaits, haccepted⟩ := h
  let frame : HolderFrame := { messageType := .input, payload }
  refine ⟨done, waiting ++ [frame], ?_, hcarries.push (frame.bytes_ne_nil _), ?_, ?_⟩
  · exact (congrArg (· ++ [frame]) hrelayed).trans (List.append_assoc _ _ _)
  · rw [inputs_append, hwaits]
    rfl
  · simp only [Proxy.relay, inputs_append, haccepted]
    rfl

theorem Relays.write {waits : List Bytes} {p : Proxy} (h : p.Relays waits) {front : Bytes}
    (hfront : p.toHolder.queue.front = some front) {count : Nat} (hcount : count ≤ front.length) :
    ∃ waits', Relays waits' { p with toHolder := p.toHolder.write front count } := by
  obtain ⟨done, waiting, hrelayed, hcarries, -, haccepted⟩ := h
  obtain ⟨finished, waiting', hwaiting, hafter⟩ := hcarries.advance hfront hcount
  refine ⟨inputs waiting', done ++ finished, waiting', ?_, hafter, rfl, haccepted⟩
  rw [hrelayed, hwaiting, List.append_assoc]

theorem Clear.pushed {p : Proxy} (h : p.Clear) {f : Frame} (hf : f.isOutput = false) :
    (p.pushed f).Clear := by
  obtain ⟨done, waiting, hqueued, hcarries, hclear⟩ := h
  refine ⟨done, waiting ++ [f], ?_, hcarries.push f.bytes_ne_nil, ?_⟩
  · simp only [Proxy.pushed, hqueued, List.append_assoc]
  · rw [List.filter_append, hclear, List.filter_cons, hf]
    rfl

theorem Clear.write {p : Proxy} (h : p.Clear) {front : Bytes}
    (hfront : p.toPublic.queue.front = some front) {count : Nat} (hcount : count ≤ front.length) :
    Clear { p with toPublic := p.toPublic.write front count } := by
  obtain ⟨done, waiting, hqueued, hcarries, hclear⟩ := h
  obtain ⟨finished, waiting', rfl, hafter⟩ := hcarries.advance hfront hcount
  rw [List.filter_append, List.append_eq_nil_iff] at hclear
  refine ⟨done ++ finished, waiting', ?_, hafter, hclear.2⟩
  rw [hqueued, List.append_assoc]

end invariants

section clientFrames

/-- What handling the frames of the client leaves as it is. -/
def besideClient (p : Proxy) : Proxy :=
  { p with
    toPublic := {}, toHolder := {}, queued := [], relayed := [], accepted := []
    detached := false, refused := [] }

/-- While the frames of the client are handled; `clear` says whether the queue for the client
is known to hold no output. -/
def Serving (waits : List Bytes) (clear : Prop) (beside : Proxy) (p : Proxy) : Prop :=
  p.Relays waits ∧ (clear → p.Clear) ∧ p.besideClient = beside ∧ p.detached = false

/-- The `Stdin` payload of one frame. -/
def stdinOf (f : Frame) : List Bytes := if f.msgType = .stdin then [f.payload] else []

/-- After a frame was handled: it ended the attach or it did not. -/
def Served (waits : List Bytes) (clear : Prop) (beside : Proxy) (ended goOn : Bool) (p : Proxy) :
    Prop :=
  p.Relays waits ∧ (clear → p.Clear) ∧ p.besideClient = beside ∧ p.detached = ended ∧
    goOn = !ended

variable {waits : List Bytes} {clear : Prop} {beside : Proxy}

theorem within_servePush {kind : MessageType} {payload : Bytes}
    (hkind : Frame.isOutput { msgType := kind, payload } = false) :
    Within (Serving waits clear beside) (pushPublic .publicRead kind payload)
      (fun _ => Serving waits clear beside) (fun _ => True) := by
  apply within_pushPublic
  · intro p hp _
    obtain ⟨hrelays, hclear, hbeside, hdetached⟩ := hp
    exact ⟨hrelays, fun hc => (hclear hc).pushed hkind, hbeside, hdetached⟩
  · exact fun _ _ _ => trivial

theorem within_serveRelay {kind : HolderMessageType} {payload : Bytes} (hkind : kind ≠ .input) :
    Within (Serving waits clear beside) (pushHolder kind payload)
      (fun _ => Serving waits clear beside) (fun _ => True) := by
  apply within_pushHolder
  · intro p hp
    obtain ⟨hrelays, hclear, hbeside, hdetached⟩ := hp
    exact ⟨hrelays.relay hkind, hclear, hbeside, hdetached⟩
  · exact fun _ _ => trivial

theorem within_serveFrame (f : Frame) :
    Within (Serving waits clear beside) (handlePublic f)
      (fun goOn => Served (waits ++ if beside.writer then stdinOf f else []) clear beside
        f.endsAttach goOn) (fun _ => True) := by
  have hserved {waits' : List Bytes} (hends : f.endsAttach = false)
      (hwaits : waits' = waits ++ if beside.writer then stdinOf f else []) :
      Within (Serving waits' clear beside) (pure true : ProxyProgram Bool)
        (fun goOn => Served (waits ++ if beside.writer then stdinOf f else []) clear beside
          f.endsAttach goOn) (fun _ => True) := by
    subst hwaits
    apply Within.pure
    intro p hp
    obtain ⟨hrelays, hclear, hbeside, hdetached⟩ := hp
    refine ⟨hrelays, hclear, hbeside, ?_, ?_⟩
    · rw [hends]
      exact hdetached
    · rw [hends]
      rfl
  have hkept (hends : f.endsAttach = false) (hnone : f.msgType ≠ .stdin ∨ beside.writer = false) :
      Within (Serving waits clear beside) (pure true : ProxyProgram Bool)
        (fun goOn => Served (waits ++ if beside.writer then stdinOf f else []) clear beside
          f.endsAttach goOn) (fun _ => True) := by
    apply hserved hends
    rcases hnone with hkind | hwriter
    · rw [stdinOf, if_neg hkind, ite_self, List.append_nil]
    · rw [hwriter]
      exact (List.append_nil _).symm
  have hleave (hends : f.endsAttach = true) (hkind : f.msgType ≠ .stdin) :
      Within (Serving waits clear beside)
        (do
          update fun p => { p with detached := true }
          return false : ProxyProgram Bool)
        (fun goOn => Served (waits ++ if beside.writer then stdinOf f else []) clear beside
          f.endsAttach goOn) (fun _ => True) := by
    refine Within.bind (Q := fun _ p => p.Relays waits ∧ (clear → p.Clear) ∧
      p.besideClient = beside ∧ p.detached = true) (Within.update ?_) fun _ => Within.pure ?_
    · intro p hp
      exact ⟨hp.1, hp.2.1, hp.2.2.1, rfl⟩
    · rintro p ⟨hrelays, hclear, hbeside, hdetached⟩
      rw [stdinOf, if_neg hkind, ite_self, List.append_nil, hends]
      exact ⟨hrelays, hclear, hbeside, hdetached, rfl⟩
  have hread : Within (Serving waits clear beside) (Program.read (·.writer) : ProxyProgram Bool)
      (fun writer p => writer = beside.writer ∧ Serving waits clear beside p) (fun _ => True) := by
    apply Within.read
    intro p hp
    obtain ⟨hrelays, hclear, hbeside, hdetached⟩ := hp
    have hwriter : p.besideClient.writer = beside.writer := congrArg Proxy.writer hbeside
    exact ⟨hwriter, hrelays, hclear, hbeside, hdetached⟩
  refine Within.bind hread fun writer => ?_
  by_cases hsame : writer = beside.writer
  swap
  · exact fun p hp => absurd hp.1 hsame
  subst hsame
  refine Within.pre (P := Serving waits clear beside) ?_ fun _ hp => hp.2
  split
  · rename_i hkind hwriter
    have hends : f.endsAttach = false := by
      rw [Frame.endsAttach, hkind]
      rfl
    refine Within.bind (Q := fun _ p => ∃ q, Serving waits clear beside q ∧
      p = { q with accepted := q.accepted ++ [f.payload] }) (Within.update ?_) fun _ => ?_
    · exact fun p hp => ⟨p, hp, rfl⟩
    refine Within.bind (Q := fun _ => Serving (waits ++ [f.payload]) clear beside) ?_ fun _ => ?_
    · apply within_pushHolder
      · rintro _ ⟨q, ⟨hrelays, hclear, hbeside, hdetached⟩, rfl⟩
        exact ⟨hrelays.accept f.payload, hclear, hbeside, hdetached⟩
      · exact fun _ _ => trivial
    · apply hserved hends
      rw [stdinOf, if_pos hkind, hwriter, if_pos rfl]
  · rename_i hkind hwriter
    have hends : f.endsAttach = false := by
      rw [Frame.endsAttach, hkind]
      rfl
    have hnone : f.msgType ≠ .stdin := by
      rw [hkind]
      decide
    split
    · exact hkept hends (.inl hnone)
    · split
      · exact hkept hends (.inl hnone)
      · exact Within.bind (within_serveRelay (by decide)) fun _ => hkept hends (.inl hnone)
  · rename_i hkind hwriter
    have hends : f.endsAttach = false := by
      rw [Frame.endsAttach, hkind]
      rfl
    have hnone : f.msgType ≠ .stdin := by
      rw [hkind]
      decide
    split
    · exact hkept hends (.inl hnone)
    · refine Within.bind (within_serveRelay (by decide)) fun _ => ?_
      exact Within.bind (within_servePush rfl) fun _ => hkept hends (.inl hnone)
  · rename_i hkind
    apply hleave
    · rw [Frame.endsAttach, hkind]
      rfl
    · rw [hkind]
      decide
  · rename_i hkind
    apply hleave
    · rw [Frame.endsAttach, hkind]
      rfl
    · rw [hkind]
      decide
  · rename_i hkind
    refine Within.bind (within_servePush rfl) fun _ => hkept ?_ (.inl ?_)
    · rw [Frame.endsAttach, hkind]
      rfl
    · rw [hkind]
      decide
  · rename_i hdetach hclose _ hstdin _ _
    apply hkept
    · rw [Frame.endsAttach, Bool.or_eq_false_iff, decide_eq_false_iff_not,
        decide_eq_false_iff_not]
      exact ⟨hdetach, hclose⟩
    · cases hwriter : beside.writer with
      | false => exact .inr rfl
      | true => exact .inl fun hkind => hstdin hkind hwriter

theorem within_serveFrames (frames : List Frame) :
    Within (Serving waits clear beside) (handlePublicFrames frames)
      (fun goOn => Served (waits ++ if beside.writer then stdinBefore frames else []) clear beside
        (frames.any Frame.endsAttach) goOn) (fun _ => True) := by
  induction frames generalizing waits with
  | nil =>
    apply Within.pure
    rintro p ⟨hrelays, hclear, hbeside, hdetached⟩
    rw [stdinBefore, ite_self, List.append_nil]
    exact ⟨hrelays, hclear, hbeside, hdetached, rfl⟩
  | cons f frames ih =>
    refine Within.bind (within_serveFrame f) fun goOn => ?_
    cases hends : f.endsAttach with
    | true =>
      have hnone : stdinOf f = [] := by
        rw [stdinOf, if_neg]
        intro hkind
        rw [Frame.endsAttach, hkind] at hends
        cases hends
      have hlater : stdinBefore (f :: frames) = [] := by
        rw [stdinBefore, if_pos hends]
      cases goOn with
      | true => exact fun p hp => absurd hp.2.2.2.2 (by decide)
      | false =>
        rw [hnone, hlater, List.any_cons, hends]
        exact Within.pure fun p hp => hp
    | false =>
      have hlater : stdinBefore (f :: frames) = stdinOf f ++ stdinBefore frames := by
        rw [stdinBefore, if_neg (by rw [hends]; decide), stdinOf]
        split
        · rfl
        · rfl
      cases goOn with
      | false => exact fun p hp => absurd hp.2.2.2.2 (by decide)
      | true =>
        have hwaits : waits ++ (if beside.writer then stdinBefore (f :: frames) else []) =
            (waits ++ if beside.writer then stdinOf f else []) ++
              if beside.writer then stdinBefore frames else [] := by
          rw [hlater, List.append_assoc]
          split
          · rfl
          · rfl
        rw [hwaits, List.any_cons, hends]
        exact ih.pre fun p hp => ⟨hp.1, hp.2.1, hp.2.2.1, hp.2.2.2.1⟩

end clientFrames

section clientRead

/-- What a read of the client leaves as it is. -/
def besideRead (p : Proxy) : Proxy := { p.besideClient with client := {}, publicFrames := {} }

theorem holder_of_besideRead {p v : Proxy} (h : p.besideRead = v.besideRead) :
    p.received = v.received ∧ p.holder = v.holder ∧ p.holderFrames = v.holderFrames ∧
      p.holderMinor = v.holderMinor := by
  have hreceived : p.besideRead.received = v.besideRead.received := by rw [h]
  have hholder : p.besideRead.holder = v.besideRead.holder := by rw [h]
  have hframes : p.besideRead.holderFrames = v.besideRead.holderFrames := by rw [h]
  have hminor : p.besideRead.holderMinor = v.besideRead.holderMinor := by rw [h]
  exact ⟨hreceived, hholder, hframes, hminor⟩

/-- After a read of the client in the state `v`. -/
structure ReadBy (v : Proxy) (answer : ReadAnswer) (waits : List Bytes) (clear : Prop)
    (goOn : Bool) (p : Proxy) : Prop where
  relays : p.Relays (waits ++ if v.writer then stdinBefore (v.framesRead answer) else [])
  clear : clear → p.Clear
  beside : p.besideRead = v.besideRead
  ended : p.client.ended = v.client.ended
  detached : goOn = true → p.detached = false
  left : goOn = false → v.ClientLeaves answer ∧ p.owedInput = p.accepted

variable {waits : List Bytes} {clear : Prop} {v : Proxy}

theorem within_takePublicBy {bytes : Bytes} {answer : ReadAnswer} {client : Inlet}
    (hbytes : v.clientBytes answer = bytes) (hended : client.ended = v.client.ended)
    (hrelays : v.Relays waits) (hclear : clear → v.Clear) (hdetached : v.detached = false) :
    Within (fun p => p = { v with client }) (readPublic.takePublic bytes)
      (fun goOn => ReadBy v answer waits clear goOn) (fun _ => True) := by
  apply Within.read_bind
  rintro _ rfl
  have hframes : (publicFraming.cut (v.publicFrames.buf ++ bytes)).items = v.framesRead answer := by
    rw [framesRead, hbytes]
  dsimp only [FrameAccumulator.feed]
  generalize publicFraming.cut (v.publicFrames.buf ++ bytes) = cut at hframes ⊢
  let beside : Proxy := { v.besideClient with client, publicFrames := ⟨cut.rest⟩ }
  refine Within.bind (Q := fun _ => Serving waits clear beside) (Within.update ?_) fun _ => ?_
  · rintro _ rfl
    exact ⟨hrelays, hclear, rfl, hdetached⟩
  refine Within.bind (within_serveFrames cut.items) fun goOn => ?_
  rw [hframes]
  have hafter : ∀ p : Proxy, p.besideClient = beside →
      p.besideRead = v.besideRead ∧ p.client.ended = v.client.ended := by
    intro p hp
    constructor
    · rw [besideRead, hp]
      rfl
    · have hclient : p.besideClient.client = beside.client := congrArg Proxy.client hp
      exact (congrArg Inlet.ended hclient).trans hended
  cases goOn with
  | false =>
    apply Within.pure
    rintro p ⟨hrelays, hclear, hbeside, hdetached, hends⟩
    have hends : (v.framesRead answer).any Frame.endsAttach = true := by
      cases h : (v.framesRead answer).any Frame.endsAttach with
      | true => rfl
      | false =>
        rw [h] at hends
        cases hends
    obtain ⟨hread, hended⟩ := hafter p hbeside
    refine ⟨hrelays, hclear, hread, hended, nofun, fun _ => ⟨.inr hends, ?_⟩⟩
    rw [owedInput, hdetached, hends]
    exact List.append_nil _
  | true =>
    cases cut.stopped with
    | some e => exact Within.fail fun _ _ => trivial
    | none =>
      apply Within.pure
      rintro p ⟨hrelays, hclear, hbeside, hdetached, hends⟩
      obtain ⟨hread, hended⟩ := hafter p hbeside
      refine ⟨hrelays, hclear, hread, hended, fun _ => ?_, nofun⟩
      rw [hdetached]
      cases h : (v.framesRead answer).any Frame.endsAttach with
      | false => rfl
      | true =>
        rw [h] at hends
        cases hends

theorem within_readPublicBy {answer : ReadAnswer} (hrelays : v.Relays waits)
    (hclear : clear → v.Clear) (hdetached : v.detached = false)
    (hidle : publicFraming.tryRead v.publicFrames.buf = .ok none) :
    Within (fun p => p = v) (readPublic answer)
      (fun goOn => ReadBy v answer waits clear goOn) (fun _ => True) := by
  apply Within.read_bind
  rintro _ rfl
  rename_i v
  cases hread : v.client.read answer with
  | error source =>
    cases source with
    | wouldBlock =>
      have hbytes : v.clientBytes answer = [] := by
        rw [clientBytes, hread]
        rfl
      exact within_takePublicBy hbytes rfl hrelays hclear hdetached
    | _ => exact Within.fail fun _ _ => trivial
  | ok found =>
    obtain ⟨bytes, client⟩ := found
    have hbytes : v.clientBytes answer = bytes := by
      rw [clientBytes, hread]
      rfl
    obtain ⟨-, hended, -⟩ := Inlet.read_front hread
    refine Within.bind (Q := fun _ p => p = { v with client }) (Within.update ?_) fun _ => ?_
    · rintro _ rfl
      rfl
    split
    · rename_i hnone
      subst hnone
      obtain ⟨hunread, -, rfl⟩ := Inlet.read_end hread
      have hframes : v.framesRead answer = [] := by
        rw [framesRead, hbytes, List.append_nil, Framing.cut_none hidle]
      apply Within.pure
      rintro _ rfl
      refine ⟨?_, hclear, rfl, rfl, nofun, fun _ => ⟨.inl ?_, ?_⟩⟩
      · rw [hframes, stdinBefore, ite_self, List.append_nil]
        exact hrelays
      · rw [hread]
        rfl
      · have hnone : v.inputLeft = [] := by
          rw [inputLeft, unhandled, hunread, List.append_nil, Framing.cut_none hidle]
          exact ite_self _
        change v.owedInput = v.accepted
        rw [owedInput, hdetached, hnone]
        exact List.append_nil _
    · exact within_takePublicBy hbytes hended hrelays hclear hdetached

end clientRead

section holderRead

/-- What a read of the holder leaves as it is. -/
def besideHolder (p : Proxy) : Proxy :=
  { p with
    toPublic := {}, queued := [], refused := [], received := [], writer := false, holder := {}
    holderFrames := {} }

theorem client_of_besideHolder {p v : Proxy} (h : p.besideHolder = v.besideHolder) :
    p.toHolder = v.toHolder ∧ p.relayed = v.relayed ∧ p.accepted = v.accepted ∧
      p.detached = v.detached ∧ p.client = v.client ∧ p.publicFrames = v.publicFrames ∧
      p.holderMinor = v.holderMinor := by
  have hqueue : p.besideHolder.toHolder = v.besideHolder.toHolder := by rw [h]
  have hrelayed : p.besideHolder.relayed = v.besideHolder.relayed := by rw [h]
  have haccepted : p.besideHolder.accepted = v.besideHolder.accepted := by rw [h]
  have hdetached : p.besideHolder.detached = v.besideHolder.detached := by rw [h]
  have hclient : p.besideHolder.client = v.besideHolder.client := by rw [h]
  have hframes : p.besideHolder.publicFrames = v.besideHolder.publicFrames := by rw [h]
  have hminor : p.besideHolder.holderMinor = v.besideHolder.holderMinor := by rw [h]
  exact ⟨hqueue, hrelayed, haccepted, hdetached, hclient, hframes, hminor⟩

/-- While the frames of the holder are handled: `received` are those before, and the reader has
come as far as `frames` and `holder` say. -/
def Hearing (v : Proxy) (received : List HolderFrame) (writer : Bool)
    (frames : HolderFrameAccumulator) (holder : Inlet) (p : Proxy) : Prop :=
  p.besideHolder = v.besideHolder ∧ p.received = received ∧ p.writer = writer ∧
    p.holderFrames = frames ∧ p.holder = holder

variable {v : Proxy} {received : List HolderFrame} {writer : Bool}
  {frames : HolderFrameAccumulator} {holder : Inlet}

theorem within_hearPush {kind : MessageType} {payload : Bytes} :
    Within (Hearing v received writer frames holder) (pushPublic .holderRead kind payload)
      (fun _ => Hearing v received writer frames holder) (fun _ => True) :=
  within_pushPublic (fun _ hp _ => hp) fun _ _ _ => trivial

theorem framesHeard_prefix (v : Proxy) (answer : ReadAnswer) :
    v.framesHeard answer <+: v.unheard := by
  rw [framesHeard, unheard, holderBytesRead]
  cases hread : v.holder.read answer with
  | error source =>
    have hearlier := (holderFraming v.holderMinor).items_mono v.holderFrames.buffer v.holder.unread
    dsimp only [Except.toOption, Option.map, Option.getD]
    rw [List.append_nil]
    exact hearlier
  | ok found =>
    obtain ⟨bytes, holder⟩ := found
    obtain ⟨hunread, -, -⟩ := Inlet.read_front hread
    have hearlier := (holderFraming v.holderMinor).items_mono (v.holderFrames.buffer ++ bytes)
      holder.unread
    dsimp only [Except.toOption, Option.map, Option.getD]
    rw [hunread, ← List.append_assoc]
    exact hearlier

theorem behindExit_append {frames more : List HolderFrame}
    (h : frames.any HolderFrame.isExit = true) :
    behindExit (frames ++ more) = behindExit frames ++ more := by
  induction frames with
  | nil => cases h
  | cons f frames ih =>
    cases hexit : f.isExit with
    | true =>
      simp only [behindExit, List.cons_append, List.dropWhile_cons, hexit]
      rfl
    | false =>
      rw [List.any_cons, hexit, Bool.false_or] at h
      have hlater := ih h
      unfold behindExit at hlater ⊢
      rw [List.cons_append, List.dropWhile_cons, List.dropWhile_cons, hexit]
      exact hlater

variable [SerdeJson]

theorem within_hearFrame (h : HolderFrame) :
    Within (Hearing v received writer frames holder) (handleHolder h)
      (fun outcome p => outcome.isSome = h.isExit ∧
        Hearing v (received ++ [h]) (writerWith writer h) frames holder p) (fun _ => True) := by
  have hnote : Within (Hearing v received writer frames holder)
      (Program.update fun p => { p with received := p.received ++ [h] } : ProxyProgram Unit)
      (fun _ => Hearing v (received ++ [h]) writer frames holder) (fun _ => True) := by
    apply Within.update
    rintro p ⟨hbeside, hreceived, hwriter, hframes, hholder⟩
    exact ⟨hbeside, congrArg (· ++ [h]) hreceived, hwriter, hframes, hholder⟩
  have hevent (hkind : h.messageType = .writeGranted ∨ h.messageType = .writeRevoked) :
      Within (Hearing v (received ++ [h]) writer frames holder)
        (handleWriterEvent h.messageType h.payload)
        (fun _ => Hearing v (received ++ [h]) (writerWith writer h) frames holder)
        (fun _ => True) := by
    refine Within.bind (Q := fun _ => Hearing v (received ++ [h]) writer frames holder)
      (Within.read fun _ hp => hp) fun sessionId => ?_
    refine Within.bind (Q := fun _ => Hearing v (received ++ [h]) writer frames holder)
      (Within.lift (fun _ _ _ hp => hp) fun _ _ => trivial) fun event => ?_
    refine Within.bind (Q := fun _ => Hearing v (received ++ [h]) writer frames holder) ?_
      fun _ => ?_
    · unfold rejectIf
      split
      · exact Within.fail fun _ _ => trivial
      · exact Within.pure fun _ hp => hp
    refine Within.bind (Within.update ?_) fun _ => within_hearPush
    rintro p ⟨hbeside, hreceived, hwriter, hframes, hholder⟩
    refine ⟨hbeside, hreceived, ?_, hframes, hholder⟩
    unfold writerWith
    rcases hkind with hkind | hkind
    · rw [hkind]
      rfl
    · rw [hkind]
      rfl
  unfold handleHolder
  refine Within.bind hnote fun _ => ?_
  cases hkind : h.messageType with
  | output =>
    have hwriter : writerWith writer h = writer := by
      rw [writerWith, hkind]
      rfl
    have hexit : h.isExit = false := by
      rw [HolderFrame.isExit, hkind]
      rfl
    rw [hwriter, hexit]
    exact Within.bind within_hearPush fun _ => Within.pure fun _ hp => ⟨rfl, hp⟩
  | writeGranted =>
    have hexit : h.isExit = false := by
      rw [HolderFrame.isExit, hkind]
      rfl
    dsimp only
    rw [hexit, ← hkind]
    exact Within.bind (hevent (.inl hkind)) fun _ => Within.pure fun _ hp => ⟨rfl, hp⟩
  | writeRevoked =>
    have hexit : h.isExit = false := by
      rw [HolderFrame.isExit, hkind]
      rfl
    dsimp only
    rw [hexit, ← hkind]
    exact Within.bind (hevent (.inr hkind)) fun _ => Within.pure fun _ hp => ⟨rfl, hp⟩
  | sessionExited =>
    have hwriter : writerWith writer h = writer := by
      rw [writerWith, hkind]
      rfl
    have hexit : h.isExit = true := by
      rw [HolderFrame.isExit, hkind]
      rfl
    dsimp only
    rw [hwriter, hexit]
    refine Within.bind (Q := fun _ => Hearing v (received ++ [h]) writer frames holder)
      (Within.read fun _ hp => hp) fun sessionId => ?_
    refine Within.bind (Q := fun _ => Hearing v (received ++ [h]) writer frames holder)
      (Within.read fun _ hp => hp) fun minor => ?_
    refine Within.bind (Q := fun _ => Hearing v (received ++ [h]) writer frames holder)
      (Within.lift (fun _ _ _ hp => hp) fun _ _ => trivial) fun context => ?_
    refine Within.bind (Q := fun _ => Hearing v (received ++ [h]) writer frames holder) ?_
      fun _ => ?_
    · unfold rejectIf
      split
      · exact Within.fail fun _ _ => trivial
      · exact Within.pure fun _ hp => hp
    exact Within.bind within_hearPush fun _ => Within.pure fun _ hp => ⟨rfl, hp⟩
  | _ =>
    have hwriter : writerWith writer h = writer := by
      rw [writerWith, hkind]
      rfl
    have hexit : h.isExit = false := by
      rw [HolderFrame.isExit, hkind]
      rfl
    rw [hwriter, hexit]
    exact Within.pure fun _ hp => ⟨rfl, hp⟩

theorem within_hearFrames (heard : List HolderFrame) :
    Within (Hearing v received writer frames holder) (handleHolderFrames heard)
      (fun outcome p => outcome.isSome = heard.any HolderFrame.isExit ∧
        ∃ before, heard = before ++ behindExit heard ∧
          Hearing v (received ++ before) (writerAfter writer heard) frames holder p)
      (fun _ => True) := by
  induction heard generalizing received writer with
  | nil =>
    apply Within.pure
    intro p hp
    refine ⟨rfl, [], rfl, ?_⟩
    rw [List.append_nil]
    exact hp
  | cons h heard ih =>
    refine Within.bind (within_hearFrame h) fun outcome => ?_
    cases hexit : h.isExit with
    | true =>
      have hbehind : behindExit (h :: heard) = heard := by
        rw [behindExit, List.dropWhile_cons, hexit]
        rfl
      have hwriter : writerWith writer h = writer := by
        have hkind := of_decide_eq_true hexit
        rw [writerWith, hkind]
        rfl
      cases outcome with
      | none => exact fun p hp => absurd hp.1 (by decide)
      | some outcome =>
        apply Within.pure
        rintro p ⟨-, hp⟩
        rw [List.any_cons, hexit, hbehind, writerAfter, if_pos hexit]
        refine ⟨rfl, [h], rfl, ?_⟩
        rw [hwriter] at hp
        exact hp
    | false =>
      have hbehind : behindExit (h :: heard) = behindExit heard := by
        rw [behindExit, List.dropWhile_cons, hexit]
        rfl
      cases outcome with
      | some outcome =>
        rintro p ⟨hsome, -⟩
        cases hsome
      | none =>
        rw [List.any_cons, hexit, Bool.false_or, hbehind, writerAfter, hexit]
        apply ih.conseq
        · exact fun p hp => hp.2
        · rintro outcome p ⟨hsome, before, hheard, hp⟩
          refine ⟨hsome, h :: before, congrArg (h :: ·) hheard, ?_⟩
          rw [List.append_assoc] at hp
          exact hp

/-- After a read of the holder in the state `v`. -/
structure HeardBy (v : Proxy) (answer : ReadAnswer) (outcome : Option ProxyOutcome)
    (p : Proxy) : Prop where
  beside : p.besideHolder = v.besideHolder
  writer : p.writer = writerAfter v.writer (v.framesHeard answer)
  stream : p.holder.ended = v.holder.ended ∧ p.holder.sent = v.holder.sent
  received : ∃ before, v.framesHeard answer = before ++ behindExit (v.framesHeard answer) ∧
    p.received = v.received ++ before
  kept : outcome = none → p.Heard ∧ (v.framesHeard answer).any HolderFrame.isExit = false
  left : outcome.isSome → v.HolderLeaves answer ∧
    ((v.framesHeard answer).any HolderFrame.isExit = true ∨ p = v ∧ v.unheard = [])

theorem within_readHolderBy {answer : ReadAnswer} (hheard : v.Heard)
    (hidle : (holderFraming v.holderMinor).tryRead v.holderFrames.buffer = .ok none) :
    Within (fun p => p = v) (readHolder answer) (fun outcome => HeardBy v answer outcome)
      (fun _ => True) := by
  apply Within.read_bind
  rintro _ rfl
  rename_i v
  cases hread : v.holder.read answer with
  | error source =>
    cases source with
    | wouldBlock =>
      have hframes : v.framesHeard answer = [] := by
        rw [framesHeard, holderBytesRead, hread]
        dsimp only [Except.toOption, Option.map, Option.getD]
        rw [List.append_nil, Framing.cut_none hidle]
      apply Within.pure
      rintro _ rfl
      refine ⟨rfl, ?_, ⟨rfl, rfl⟩, ⟨[], ?_, ?_⟩, fun _ => ⟨hheard, ?_⟩, nofun⟩
      · rw [hframes, writerAfter]
      · rw [hframes]
        rfl
      · rw [List.append_nil]
      · rw [hframes]
        rfl
    | _ => exact Within.fail fun _ _ => trivial
  | ok found =>
    obtain ⟨bytes, holder⟩ := found
    obtain ⟨hunread, hended, hsent⟩ := Inlet.read_front hread
    have hframes : v.framesHeard answer =
        ((holderFraming v.holderMinor).cut (v.holderFrames.buffer ++ bytes)).items := by
      rw [framesHeard, holderBytesRead, hread]
      rfl
    refine Within.bind (Q := fun _ p => p = { v with holder }) (Within.update ?_) fun _ => ?_
    · rintro _ rfl
      rfl
    split
    · rename_i hnone
      subst hnone
      obtain ⟨hempty, -, rfl⟩ := Inlet.read_end hread
      rw [List.append_nil, Framing.cut_none hidle] at hframes
      apply Within.pure
      rintro _ rfl
      refine ⟨rfl, ?_, ⟨rfl, rfl⟩, ⟨[], ?_, ?_⟩, nofun, fun _ => ⟨.inl ?_, .inr ⟨rfl, ?_⟩⟩⟩
      · rw [hframes, writerAfter]
      · rw [hframes]
        rfl
      · rw [List.append_nil]
      · rw [hread]
        rfl
      · rw [unheard, hempty, List.append_nil, Framing.cut_none hidle]
    apply Within.read_bind
    rintro _ rfl
    refine Within.bind (Q := fun accumulator p => p = { v with holder } ∧
      accumulator.buffer = v.holderFrames.buffer ++ bytes) (Within.lift ?_ fun _ _ => trivial)
      fun accumulator => ?_
    · rintro accumulator hfeed _ rfl
      unfold HolderFrameAccumulator.feed at hfeed
      split at hfeed
      · cases hfeed
      · cases hfeed
        exact ⟨rfl, rfl⟩
    apply Within.read_bind
    rintro _ ⟨rfl, hbuffer⟩
    rw [hbuffer]
    dsimp only
    generalize hcut : (holderFraming v.holderMinor).cut (v.holderFrames.buffer ++ bytes) = cut
      at hframes ⊢
    refine Within.bind (Q := fun _ => Hearing v v.received v.writer ⟨cut.rest⟩ holder)
      (Within.update ?_) fun _ => ?_
    · rintro _ ⟨rfl, -⟩
      exact ⟨rfl, rfl, rfl, rfl, rfl⟩
    refine Within.bind (within_hearFrames cut.items) fun outcome => ?_
    rw [← hframes]
    cases outcome with
    | some outcome =>
      apply Within.pure
      rintro p ⟨hsome, before, hbefore, hbeside, hreceived, hwriter, hrest, hholder⟩
      refine ⟨hbeside, hwriter, ?_, ⟨before, hbefore, hreceived⟩, nofun, fun _ => ⟨.inr ?_, .inl ?_⟩⟩
      · rw [hholder]
        exact ⟨hended, hsent⟩
      · exact hsome.symm
      · exact hsome.symm
    | none =>
      cases hstopped : cut.stopped with
      | some e => exact Within.fail fun _ _ => trivial
      | none =>
        apply Within.pure
        rintro p ⟨hsome, before, hbefore, hbeside, hreceived, hwriter, hrest, hholder⟩
        refine ⟨hbeside, hwriter, ?_, ⟨before, hbefore, hreceived⟩, fun _ => ⟨?_, hsome.symm⟩, nofun⟩
        · rw [hholder]
          exact ⟨hended, hsent⟩
        obtain ⟨eaten, hstream, heaten⟩ := hheard
        obtain ⟨eaten', hbytes, heaten'⟩ :=
          (holderFraming v.holderMinor).exists_eaten (v.holderFrames.buffer ++ bytes)
        have hminor : p.besideHolder.holderMinor = v.besideHolder.holderMinor :=
          congrArg Proxy.holderMinor hbeside
        change p.holderMinor = v.holderMinor at hminor
        have hall : v.framesHeard answer = before := by
          have hnone : behindExit (v.framesHeard answer) = [] := by
            rw [behindExit, List.dropWhile_eq_nil_iff.mpr]
            · rfl
            · intro h hmem
              have := List.any_eq_false.mp hsome.symm h hmem
              rw [Bool.not_eq_true] at this
              rw [this]
              rfl
          rw [hnone, List.append_nil] at hbefore
          exact hbefore
        refine ⟨eaten ++ eaten', ?_, fun more => ?_⟩
        · rw [hcut] at hbytes
          have hsplit : v.holderFrames.buffer ++ (bytes ++ holder.unread) =
              eaten' ++ (cut.rest ++ holder.unread) := by
            rw [← List.append_assoc, hbytes, List.append_assoc]
          rw [hholder, hrest, hsent, hstream, hunread, hsplit, List.append_assoc]
        · rw [hminor, List.append_assoc, heaten, heaten', hcut, ← hframes, hall, hreceived]
          simp only [Cut.after, List.append_assoc]

end holderRead

section level

variable {setup : Setup}

theorem Heard.arrive {p : Proxy} (h : p.Heard) (t : PassTurn) : (p.arrive t).Heard := by
  obtain ⟨eaten, hstream, heaten⟩ := h
  refine ⟨eaten, ?_, heaten⟩
  simp only [Proxy.arrive, Inlet.arrive]
  split
  · exact hstream
  · dsimp only
    rw [hstream]
    simp only [List.append_assoc]

theorem Heard.sent_eq {p : Proxy} (h : p.Heard) : p.sentByHolder = p.received ++ p.unheard := by
  obtain ⟨eaten, hstream, heaten⟩ := h
  rw [sentByHolder, hstream, heaten]
  rfl

/-- What the parts of a pass after the reads keep. -/
def Beyond (p : Proxy) : Prop :=
  (∃ waits, p.Relays waits) ∧ p.Heard ∧ p.received.any HolderFrame.isExit = false ∧
    p.detached = false

theorem within_beyondFill (fuel : Nat) :
    Within Beyond (fillLoop fuel) (fun _ => Beyond) (fun _ => True) := by
  induction fuel with
  | zero => exact Within.pure fun _ hp => hp
  | succ fuel ih =>
    apply Within.read_bind
    intro p hp
    split
    · exact Within.pure fun _ heq => heq ▸ hp
    · apply Within.read_bind
      rintro q rfl
      dsimp only
      split
      · exact Within.pure fun _ heq => heq ▸ hp
      · refine Within.bind (Q := fun _ => Beyond) ?_ fun _ =>
          Within.bind (Q := fun _ => Beyond) (Within.update fun _ hs => hs) fun _ => ih
        apply within_pushPublic
        · rintro _ rfl _
          exact hp
        · exact fun _ _ _ => trivial

theorem within_beyond (t : PassTurn) (client holder : Readiness) (timer : Bool) :
    Within Beyond (serve t client holder timer) (fun _ => Beyond) (fun _ => True) := by
  have hskip : Within Beyond (pure PUnit.unit : ProxyProgram PUnit) (fun _ => Beyond)
      (fun _ => True) := Within.pure fun _ hp => hp
  refine Within.bind (Q := fun _ => Beyond) ?_ fun _ => ?_
  · unfold timerStep
    split
    · unfold observe
      split
      · exact hskip
      · exact Within.fail fun _ _ => trivial
    · exact hskip
  refine Within.bind (Q := fun _ => Beyond) ?_ fun _ => ?_
  · unfold publicStep
    split
    · have hflush := within_flushPublic (P := Beyond) (fun _ hp _ _ _ _ => hp) t.clientWrites
      refine Within.bind (hflush.weaken fun _ _ => trivial) fun _ => ?_
      apply Within.read_bind
      intro p hp
      exact (within_beyondFill _).pre fun _ heq => heq ▸ hp
    · exact hskip
  · unfold relayStep
    split
    · have hflush := within_flushHolder (P := Beyond) (fun p hp front count hfront hcount => by
        obtain ⟨⟨waits, hrelays⟩, hrest⟩ := hp
        exact ⟨hrelays.write hfront hcount, hrest⟩) t.holderWrites
      exact hflush.weaken fun _ _ => trivial
    · exact hskip

end level

section lastFlush

/-- The client took every write of a flush that met no refusal. -/
theorem flush_drains {answers : List WriteAnswer} (hnone : ∀ source, WriteAnswer.fault source ∉ answers)
    (w : PendingWrites) :
    match PendingWrites.flush answers w with
    | (.ok _, w') => w'.queue.front = none
    | (.err _, _) => False
    | (.panic, _) => True := by
  induction answers generalizing w with
  | nil =>
    unfold PendingWrites.flush
    rw [bind_apply, read_apply]
    dsimp only
    cases hfront : w.queue.front with
    | none => exact hfront
    | some front => trivial
  | cons answer answers ih =>
    have hlater : ∀ source, WriteAnswer.fault source ∉ answers :=
      fun source hmem => hnone source (List.mem_cons_of_mem _ hmem)
    unfold PendingWrites.flush
    rw [bind_apply, read_apply]
    dsimp only
    cases hfront : w.queue.front with
    | none => exact hfront
    | some front =>
      cases answer with
      | fault source => exact absurd List.mem_cons_self (hnone source)
      | upTo count => exact ih hlater _

theorem flushBestEffort_returns {answers : List WriteAnswer} {p p' : Proxy}
    (hrun : flushBestEffort answers p = (.ok (), p')) :
    (∃ w, p' = { p with toPublic := w }) ∧
      ((∀ source, WriteAnswer.fault source ∉ answers) → p'.toPublic.queue.chunks = []) := by
  obtain ⟨r, q, hattempt, hrest⟩ := bind_returns.mp hrun
  cases hrest
  rw [attempt_apply, flushPublic, zoom] at hattempt
  constructor
  · refine ⟨(PendingWrites.flush answers p.toPublic).2, ?_⟩
    revert hattempt
    rcases PendingWrites.flush answers p.toPublic with ⟨a | e | _, w⟩
    · intro h
      cases h
      rfl
    · intro h
      cases h
      rfl
    · intro h
      cases h
  · intro hnone
    have hdrains := flush_drains hnone p.toPublic
    revert hattempt hdrains
    rcases PendingWrites.flush answers p.toPublic with ⟨a | e | _, w⟩
    · intro h hfront
      cases h
      exact List.head?_eq_none_iff.mp (Option.map_eq_none_iff.mp hfront)
    · exact fun _ h => h.elim
    · intro h
      cases h

theorem flushBestEffort_keeps {answers : List WriteAnswer} {P : Proxy → Prop} {p p' : Proxy}
    (hP : ∀ p, P p → ∀ front count, p.toPublic.queue.front = some front → count ≤ front.length →
      P { p with toPublic := p.toPublic.write front count })
    (hrun : flushBestEffort answers p = (.ok (), p')) (hp : P p) : P p' := by
  obtain ⟨r, q, hattempt, hrest⟩ := bind_returns.mp hrun
  cases hrest
  have hkept := (Within.attempt (within_flushPublic hP answers)).run hattempt hp
  cases r with
  | ok a => exact hkept
  | error e => exact hkept

end lastFlush

section delivery

variable [SerdeJson] {setup : Setup}

/-- An announced frame is output when the frame of the holder is. -/
theorem isOutput_of_announces {sessionId minor : Nat} {h : HolderFrame} {f : Frame}
    (hf : Announces sessionId minor h f) : f.isOutput = h.isOutput := by
  unfold Announces at hf
  unfold HolderFrame.isOutput HolderFrame.isExit
  cases hkind : h.messageType <;> rw [hkind] at hf
  all_goals first
    | exact hf.elim
    | (rw [hf]; rfl)
    | (obtain ⟨exitCode, rfl, -⟩ := hf; rfl)

theorem forall₂_filter {sessionId minor : Nat} {frames : List HolderFrame} {told : List Frame}
    (h : List.Forall₂ (Announces sessionId minor) frames told) :
    List.Forall₂ (Announces sessionId minor) (frames.filter HolderFrame.isOutput)
      (told.filter Frame.isOutput) := by
  induction h with
  | nil => exact .nil
  | @cons frame f frames told hf htold ih =>
    have hsame := isOutput_of_announces hf
    cases houtput : frame.isOutput with
    | true =>
      rw [List.filter_cons_of_pos houtput, List.filter_cons_of_pos (hsame.trans houtput)]
      exact .cons hf ih
    | false =>
      rw [List.filter_cons_of_neg (by rw [houtput]; decide),
        List.filter_cons_of_neg (by rw [hsame, houtput]; decide)]
      exact ih

/-- With no output waiting, the client has every output that was received. -/
theorem outputs_of_clear {p : Proxy} (hordered : p.Ordered setup []) (hclear : p.Clear)
    (hsent : p.sentByHolder.filter HolderFrame.isOutput = p.received.filter HolderFrame.isOutput) :
    ∃ frames told : List Frame, frames.flatMap Frame.bytes <+: p.toPublic.written ∧
      told.Sublist frames ∧
      List.Forall₂ (Announces p.sessionId p.holderMinor)
        (p.sentByHolder.filter HolderFrame.isOutput) told := by
  obtain ⟨done, waiting, hqueued, hcarries, hwaiting⟩ := hclear
  obtain ⟨chunks, handled, told, hframes, -, hreceived, htold⟩ := hordered.frames
  rw [List.append_nil] at hreceived
  refine ⟨done, told.filter Frame.isOutput, hcarries.done_prefix, ?_, ?_⟩
  · have hin : (told.filter Frame.isOutput).Sublist (p.queued.filter Frame.isOutput) := by
      apply List.Sublist.filter
      have hlater : told.Sublist (p.queued.filter (!·.isReply)) := by
        rw [hframes]
        exact List.sublist_append_right _ _
      exact hlater.trans List.filter_sublist
    rw [hqueued, List.filter_append, hwaiting, List.append_nil] at hin
    exact hin.trans List.filter_sublist
  · have hsame : p.received.filter HolderFrame.isOutput =
        (p.received.filter HolderFrame.isAnnounced).filter HolderFrame.isOutput := by
      rw [List.filter_filter]
      apply List.filter_congr
      intro h _
      unfold HolderFrame.isOutput HolderFrame.isExit HolderFrame.isAnnounced
      cases h.messageType <;> rfl
    rw [hsent, hsame, hreceived]
    exact forall₂_filter htold

theorem clear_of_empty {p : Proxy} (h : p.Ordered setup []) (hempty : p.toPublic.queue.chunks = []) :
    p.Clear := by
  obtain ⟨done, waiting, hqueued, hcarries⟩ := h.carried
  refine ⟨done, waiting, hqueued, hcarries, ?_⟩
  rw [hcarries.waiting_nil hempty]
  rfl

theorem clear_of_noOutputWaits {p : Proxy} (h : p.Ordered setup []) (hnone : p.NoOutputWaits) :
    p.Clear := by
  obtain ⟨done, waiting, hqueued, hcarries⟩ := h.carried
  refine ⟨done, waiting, hqueued, hcarries, ?_⟩
  rw [List.filter_eq_nil_iff]
  intro f hf houtput
  have hmem : f.bytes ∈ p.toPublic.queue.chunks := by
    rw [hcarries.chunks]
    exact List.mem_map_of_mem hf
  obtain ⟨hstdout, hexited⟩ := hnone _ hmem
  rw [publicKind_bytes] at hstdout hexited
  rw [Frame.isOutput, Bool.or_eq_true, decide_eq_true_eq, decide_eq_true_eq] at houtput
  rcases houtput with h | h
  · exact hstdout (congrArg some h)
  · exact hexited (congrArg some h)

def Delivered (p : Proxy) : Prop := p.InputDelivered ∧ p.OutputDelivered

/-- The loop ends at a read of the client. -/
theorem delivered_clientRead {t : PassTurn} {v p : Proxy} (hready : v.Ready setup 0)
    (hbeyond : v.Beyond) (hsettles : v.ClientSettles t)
    (hrun : readPublic t.clientRead v = (.ok false, p)) : p.Delivered := by
  obtain ⟨⟨waits, hrelays⟩, hheard, halive, hdetached⟩ := hbeyond
  have hkept := (within_readPublic t.clientRead).run hrun hready
  obtain ⟨⟨hordered, hidle⟩, -, hroom⟩ := hready
  have hempty : v.toPublic.queue.chunks = [] := by
    obtain ⟨done, waiting, -, hcarries⟩ := hordered.carried
    exact hcarries.chunks_nil (Nat.le_zero.mp hroom)
  have hclear := clear_of_empty hordered hempty
  have hread := (within_readPublicBy hrelays (fun _ : True => hclear) hdetached hidle.1).run hrun rfl
  obtain ⟨hleaves, howed⟩ := hread.left rfl
  obtain ⟨hnone, hstdin, houtput⟩ := hsettles hleaves
  constructor
  · have hwaits := hrelays.nil_of_noInputWaits hnone
    have hafter := hread.relays
    have hbrought : (if v.writer then stdinBefore (v.framesRead t.clientRead) else []) = [] := by
      split
      · exact hstdin ‹_›
      · rfl
    rw [hwaits, hbrought] at hafter
    exact hafter.delivered howed
  · intro hclient hleft
    obtain ⟨hreceived, hholder, -, hminor⟩ := holder_of_besideRead hread.beside
    have hended : v.holder.ended = true := by
      rw [holderLeft, hholder, hreceived, halive, Bool.or_false] at hleft
      exact hleft
    have hnothing := houtput (hread.ended ▸ hclient) hended
    have hsent : p.sentByHolder = v.sentByHolder := by
      rw [sentByHolder, sentByHolder, hholder, hminor]
    apply outputs_of_clear hkept (hread.clear trivial)
    rw [hsent, hheard.sent_eq, List.filter_append, hnothing, List.append_nil, hreceived]

/-- The loop ends at a read of the holder. -/
theorem delivered_holderRead {t : PassTurn} {v told p : Proxy} {outcome : ProxyOutcome}
    (hready : v.Ready setup replyRoom) (hclear : v.Clear) (hbeyond : v.Beyond)
    (hsettles : v.HolderSettles t)
    (hrun : readHolder t.holderRead v = (.ok (some outcome), told))
    (hflush : flushBestEffort t.lastWrites told = (.ok (), p)) : p.Delivered := by
  have hordered := (within_readHolder t.holderRead).run hrun hready
  obtain ⟨⟨waits, hrelays⟩, hheard, halive, hdetached⟩ := hbeyond
  have hread := (within_readHolderBy hheard hready.1.2.2).run hrun rfl
  obtain ⟨hleaves, hway⟩ := hread.left rfl
  obtain ⟨hnone, hstdin, houtput⟩ := hsettles hleaves
  obtain ⟨⟨w, rfl⟩, hdrained⟩ := flushBestEffort_returns hflush
  obtain ⟨hqueue, hrelayed, haccepted, hsame, hclient, hframes, hminor⟩ :=
    client_of_besideHolder hread.beside
  have hflushed := flushBestEffort_keeps (P := Ordered setup [])
    (fun q hq front count hfront hcount => hq.write hfront hcount) hflush hordered
  constructor
  · have hwaits := hrelays.nil_of_noInputWaits hnone
    subst hwaits
    have hafter : Relays [] { told with toPublic := w } := by
      obtain ⟨done, waiting, hdone, hcarries, hinputs, hall⟩ := hrelays
      refine ⟨done, waiting, hrelayed.trans hdone, ?_, hinputs, ?_⟩
      · dsimp only
        rw [hqueue, hminor]
        exact hcarries
      · dsimp only
        rw [hrelayed, haccepted]
        exact hall
    apply hafter.delivered
    have hnothing : inputLeft { told with toPublic := w } = [] := by
      unfold inputLeft unhandled
      dsimp only
      rw [hread.writer, hframes, hclient]
      split
      · exact hstdin ‹_›
      · rfl
    rw [owedInput, hnothing, ite_self, List.append_nil]
  · intro hconnected hleft
    have hsent : sentByHolder { told with toPublic := w } = v.received ++ v.unheard := by
      rw [← hheard.sent_eq]
      unfold sentByHolder
      dsimp only
      rw [hread.stream.2, hminor]
    rcases hway with hexit | ⟨htold, hend⟩
    · have hopen : v.client.ended = false := by
        rw [← hclient]
        exact hconnected
      obtain ⟨htaken, hbehind⟩ := houtput hopen hexit
      apply outputs_of_clear hflushed (clear_of_empty hflushed (hdrained htaken))
      obtain ⟨before, hbefore, hreceived⟩ := hread.received
      have hsplit : v.unheard = before ++ behindExit v.unheard := by
        obtain ⟨more, hmore⟩ := framesHeard_prefix v t.holderRead
        rw [← hmore, behindExit_append hexit, ← List.append_assoc, ← hbefore]
      rw [hsent, hsplit, ← List.append_assoc, ← hreceived, List.filter_append, hbehind,
        List.append_nil]
    · subst htold
      have hcleared := flushBestEffort_keeps (P := Clear)
        (fun q hq front count hfront hcount => hq.write hfront hcount) hflush hclear
      apply outputs_of_clear hflushed hcleared
      rw [hsent, hend, List.append_nil]

/-- The loop ends for a failure bit. -/
theorem delivered_failure {p : Proxy} (hsteady : p.Steady setup) (hbeyond : p.Beyond)
    (hsettles : p.FailureSettles) : p.Delivered := by
  obtain ⟨⟨waits, hrelays⟩, hheard, halive, hdetached⟩ := hbeyond
  obtain ⟨hnone, hinput, houtput⟩ := hsettles
  constructor
  · have hwaits := hrelays.nil_of_noInputWaits hnone
    subst hwaits
    apply hrelays.delivered
    rw [owedInput, hinput, ite_self, List.append_nil]
  · intro hclient hleft
    have hended : p.holder.ended = true := by
      rw [holderLeft, halive, Bool.or_false] at hleft
      exact hleft
    obtain ⟨hqueue, hsocket⟩ := houtput hclient hended
    apply outputs_of_clear hsteady.1 (clear_of_noOutputWaits hsteady.1 hqueue)
    rw [hheard.sent_eq, List.filter_append, hsocket, List.append_nil]

end delivery

section passes

theorem wait_arrives {t : PassTurn} {p polled : Proxy}
    {ready : Option (Readiness × Readiness × Bool)} (hrun : wait t p = (.ok ready, polled)) :
    polled = p.arrive t := by
  unfold wait at hrun
  obtain ⟨_, s, hupdate, hrun⟩ := bind_returns.mp hrun
  cases hupdate
  obtain ⟨_, s, hread, hrun⟩ := bind_returns.mp hrun
  cases hread
  cases hpoll : t.poll with
  | interrupted =>
    rw [hpoll] at hrun
    cases hrun
    rfl
  | fault source =>
    rw [hpoll] at hrun
    cases hrun
  | ready client holder timer =>
    rw [hpoll] at hrun
    cases hrun
    rfl

variable [SerdeJson] {setup : Setup}

/-- Between the passes of the loop. -/
structure Level (setup : Setup) (p : Proxy) : Prop where
  steady : p.Steady setup
  beyond : p.Beyond

theorem level_wait {t : PassTurn} {p polled : Proxy}
    {ready : Option (Readiness × Readiness × Bool)} (hlevel : p.Level setup)
    (hrun : wait t p = (.ok ready, polled)) :
    polled.Level setup ∧ ∀ client holder timer, ready = some (client, holder, timer) →
      client.readable = true ∨ holder.readable = true → polled.Ready setup 0 := by
  obtain ⟨hsteady, hready⟩ := (within_wait t).run hrun hlevel.steady
  refine ⟨⟨hsteady, ?_⟩, hready⟩
  rw [wait_arrives hrun]
  obtain ⟨hrelays, hheard, halive, hdetached⟩ := hlevel.beyond
  exact ⟨hrelays, hheard.arrive t, halive, hdetached⟩

theorem level_clientStep {t : PassTurn} {client holder : Readiness} {polled heard : Proxy}
    (hlevel : polled.Level setup)
    (hready : client.readable = true ∨ holder.readable = true → polled.Ready setup 0)
    (hrun : clientStep t client polled = (.ok true, heard)) :
    heard.Level setup ∧ (holder.readable = true → heard.Ready setup replyRoom ∧ heard.Clear) := by
  obtain ⟨⟨hordered, hidle⟩, hbeyond⟩ := hlevel
  have hclear (h : polled.Ready setup 0) : polled.Clear := by
    apply clear_of_empty hordered
    obtain ⟨done, waiting, -, hcarries⟩ := hordered.carried
    exact hcarries.chunks_nil (Nat.le_zero.mp h.2.2)
  unfold clientStep at hrun
  by_cases hreadable : client.readable = true
  · rw [if_pos hreadable] at hrun
    have hopen := hready (.inl hreadable)
    have hafter := (within_readPublic t.clientRead).run hrun hopen
    obtain ⟨⟨waits, hrelays⟩, hheard, halive, hdetached⟩ := hbeyond
    have hread := (within_readPublicBy hrelays (fun _ : True => hclear hopen) hdetached
      hidle.1).run hrun rfl
    obtain ⟨hreceived, hholder, hframes, hminor⟩ := holder_of_besideRead hread.beside
    refine ⟨⟨hafter.1, ⟨_, hread.relays⟩, ?_, ?_, hread.detached rfl⟩,
      fun _ => ⟨hafter, hread.clear trivial⟩⟩
    · unfold Heard
      rw [hholder, hframes, hminor, hreceived]
      exact hheard
    · rw [hreceived]
      exact halive
  · rw [if_neg hreadable] at hrun
    cases hrun
    refine ⟨⟨⟨hordered, hidle⟩, hbeyond⟩, fun hholder => ?_⟩
    have hopen := hready (.inr hholder)
    obtain ⟨hsteady, hdone, hroom⟩ := hopen
    exact ⟨⟨hsteady, hdone, by omega⟩, hclear ⟨hsteady, hdone, hroom⟩⟩

theorem level_holderStep {t : PassTurn} {holder : Readiness} {heard told : Proxy}
    (hlevel : heard.Level setup) (hready : holder.readable = true → heard.Ready setup replyRoom)
    (hrun : holderStep t holder heard = (.ok none, told)) : told.Level setup := by
  unfold holderStep at hrun
  by_cases hreadable : holder.readable = true
  · rw [if_pos hreadable] at hrun
    have hafter := (within_readHolder t.holderRead).run hrun (hready hreadable)
    obtain ⟨⟨waits, hrelays⟩, hheard, halive, hdetached⟩ := hlevel.beyond
    have hread := (within_readHolderBy hheard hlevel.steady.2.2).run hrun rfl
    obtain ⟨hqueue, hrelayed, haccepted, hsame, -, -, hminor⟩ :=
      client_of_besideHolder hread.beside
    obtain ⟨hkept, hnone⟩ := hread.kept rfl
    refine ⟨hafter, ⟨waits, ?_⟩, hkept, ?_, hsame.trans hdetached⟩
    · obtain ⟨done, waiting, hdone, hcarries, hinputs, hall⟩ := hrelays
      refine ⟨done, waiting, hrelayed.trans hdone, ?_, hinputs, ?_⟩
      · rw [hqueue, hminor]
        exact hcarries
      · rw [hrelayed, haccepted]
        exact hall
    · obtain ⟨before, hbefore, hreceived⟩ := hread.received
      rw [hbefore, List.any_append, Bool.or_eq_false_iff] at hnone
      rw [hreceived, List.any_append, halive, hnone.1]
      rfl
  · rw [if_neg hreadable] at hrun
    cases hrun
    exact hlevel

theorem level_serve {t : PassTurn} {client holder : Readiness} {timer : Bool} {told served : Proxy}
    (hlevel : told.Level setup) (hrun : serve t client holder timer told = (.ok (), served)) :
    served.Level setup :=
  ⟨(within_serve t client holder timer).run hrun hlevel.steady,
    (within_beyond t client holder timer).run hrun hlevel.beyond⟩

/-- A pass that goes on leaves the invariant; one that ends the loop has delivered everything. -/
theorem pass_returns {t : PassTurn} {p p' : Proxy} {outcome : Option ProxyOutcome}
    (hlevel : p.Level setup) (hsettles : PassSettles t p)
    (hrun : pass t p = (.ok outcome, p')) :
    if outcome.isSome then p'.Delivered else p'.Level setup := by
  unfold pass at hrun
  obtain ⟨ready, polled, hwait, hrun⟩ := bind_returns.mp hrun
  obtain ⟨hpolled, hready⟩ := level_wait hlevel hwait
  cases ready with
  | none =>
    cases hrun
    exact hpolled
  | some ready =>
    obtain ⟨client, holder, timer⟩ := ready
    have hopen := hready client holder timer rfl
    obtain ⟨hclient, hlater⟩ := hsettles client holder timer polled hwait
    dsimp only at hrun
    obtain ⟨goOn, heard, hstep, hrun⟩ := bind_returns.mp hrun
    cases goOn with
    | false =>
      cases hrun
      unfold clientStep at hstep
      by_cases hreadable : client.readable = true
      · rw [if_pos hreadable] at hstep
        exact delivered_clientRead (hopen (.inl hreadable)) hpolled.beyond (hclient hreadable)
          hstep
      · rw [if_neg hreadable] at hstep
        cases hstep
    | true =>
      obtain ⟨hheard, hholderReady⟩ := level_clientStep hpolled hopen hstep
      obtain ⟨hholder, hcheck⟩ := hlater heard hstep
      rw [if_pos rfl] at hrun
      obtain ⟨ending, told, hstep, hrun⟩ := bind_returns.mp hrun
      cases ending with
      | some ending =>
        obtain ⟨_, flushed, hflush, hrun⟩ := bind_returns.mp hrun
        cases hrun
        unfold holderStep at hstep
        by_cases hreadable : holder.readable = true
        · rw [if_pos hreadable] at hstep
          obtain ⟨hroom, hclear⟩ := hholderReady hreadable
          exact delivered_holderRead hroom hclear hheard.beyond (hholder hreadable) hstep hflush
        · rw [if_neg hreadable] at hstep
          cases hstep
      | none =>
        have htold := level_holderStep hheard (fun h => (hholderReady h).1) hstep
        obtain ⟨_, served, hserve, hrun⟩ := bind_returns.mp hrun
        have hserved := level_serve htold hserve
        by_cases hfailed : (client.failed || holder.failed) = true
        · rw [if_pos hfailed] at hrun
          cases hrun
          exact delivered_failure hserved.steady hserved.beyond
            (hcheck told p' hstep hserve hfailed)
        · rw [if_neg hfailed] at hrun
          cases hrun
          exact hserved

theorem loop_delivers {turns : List PassTurn} {p p' : Proxy} {outcome : ProxyOutcome}
    (hlevel : p.Level setup) (hsettles : LoopSettles turns p)
    (hrun : loop turns p = (.ok outcome, p')) : p'.Delivered := by
  induction turns generalizing p with
  | nil => cases hrun
  | cons t turns ih =>
    obtain ⟨hpass, hlater⟩ := hsettles
    obtain ⟨ending, q, hstep, hrun⟩ := bind_returns.mp hrun
    have hafter := pass_returns hlevel hpass hstep
    cases ending with
    | some ending =>
      cases hrun
      exact hafter
    | none => exact ih hafter (hlater q hstep) hrun

theorem level_start (readWrite hasTimer : Bool) :
    (start setup.sessionId setup.minor setup.initial readWrite hasTimer).Level setup := by
  refine ⟨steady_start readWrite hasTimer, ⟨[], ?_⟩, ?_, rfl, rfl⟩
  · exact ⟨[], [], rfl, ByteQueue.Carries.empty, rfl, rfl⟩
  · exact ⟨[], rfl, fun _ => rfl⟩

theorem level_fill {p p' : Proxy} (hlevel : p.Level setup) (hrun : fill p = (.ok (), p')) :
    p'.Level setup := by
  refine ⟨within_fill.run hrun hlevel.steady, ?_⟩
  have hbeyond : Within Beyond fill (fun _ => Beyond) fun _ => True := by
    apply Within.read_bind
    intro q hq
    exact (within_beyondFill _).pre fun _ heq => heq ▸ hq
  exact hbeyond.run hrun hlevel.beyond

end passes

end Proxy

section main

variable [SerdeJson]

/-- **An attach that ends has delivered what was accepted,** when each step at which it can end
finds nothing left over. -/
theorem ending_delivers {sessionId holderMinor : Nat} {initial : Bytes} {readWrite hasTimer : Bool}
    {timerFault : Option (String × Errno)} {turns : List PassTurn} {outcome : ProxyOutcome}
    {p : Proxy}
    (hsettles : Proxy.RunSettles turns
      (Proxy.start sessionId holderMinor initial readWrite hasTimer))
    (hrun : Proxy.run timerFault turns
      (Proxy.start sessionId holderMinor initial readWrite hasTimer) = (.ok outcome, p)) :
    p.InputDelivered ∧ p.OutputDelivered := by
  have hlevel : (Proxy.start sessionId holderMinor initial readWrite hasTimer).Level
      ⟨initial, sessionId, holderMinor⟩ := Proxy.level_start readWrite hasTimer
  unfold Proxy.run at hrun
  obtain ⟨_, filled, hfill, hrun⟩ := bind_returns.mp hrun
  have hfilled := Proxy.level_fill hlevel hfill
  cases timerFault with
  | some fault => cases hrun
  | none => exact Proxy.loop_delivers hfilled (hsettles filled hfill) hrun

end main

section samples

attribute [local instance] Json.serdeJson

def typed : Frame := { msgType := .stdin, payload := [97] }

/-- The client types a letter and detaches at once. -/
def typedAndGone : List PassTurn :=
  [{ client := { bytes := typed.bytes ++ Frame.bytes { msgType := .detach } }
     poll := .ready { readable := true } {} false }]

/-- **The letter is accepted, but never written to the holder.** -/
theorem detach_drops_input :
    ∃ outcome p, Proxy.run none typedAndGone (Proxy.start 1 1 [] true false) = (.ok outcome, p) ∧
      ¬ p.InputDelivered := by
  refine ⟨{ exitContext := none }, (Proxy.run none typedAndGone (Proxy.start 1 1 [] true false)).2,
    Prod.ext (by decide +kernel) rfl, ?_⟩
  rintro ⟨frames, hearlier, hinputs⟩
  have hwritten : (Proxy.run none typedAndGone
      (Proxy.start 1 1 [] true false)).2.toHolder.written = [] := by decide +kernel
  have howed : (Proxy.run none typedAndGone (Proxy.start 1 1 [] true false)).2.owedInput =
      [[97]] := by decide +kernel
  rw [hwritten, List.prefix_nil, List.flatMap_eq_nil_iff] at hearlier
  rw [howed] at hinputs
  cases frames with
  | nil => cases hinputs
  | cons f frames => exact HolderFrame.bytes_ne_nil _ f (hearlier f List.mem_cons_self)

/-- The client types a letter; the holder takes it; the client leaves. -/
def typedAndTaken : List PassTurn :=
  [{ client := { bytes := typed.bytes }
     poll := .ready { readable := true } {} false },
   { poll := .ready {} { writable := true } false
     holderWrites := [.upTo 100] },
   { client := { ends := true }
     poll := .ready { readable := true } {} false }]

theorem typed_is_delivered :
    (Proxy.run none typedAndTaken (Proxy.start 1 1 [] true false)).2.InputDelivered ∧
      (Proxy.run none typedAndTaken (Proxy.start 1 1 [] true false)).2.OutputDelivered := by
  have hsettles : Proxy.RunSettles typedAndTaken (Proxy.start 1 1 [] true false) := by
    intro p hfill
    cases hfill
    constructor
    · -- the letter ends nothing
      intro client holder timer polled hwait
      cases hwait
      constructor
      · intro _ hleaves
        exact absurd hleaves (by decide +kernel)
      intro heard hclient
      cases hclient
      constructor
      · intro hreadable
        cases hreadable
      intro told served hholder hserve hfailed
      cases hfailed
    intro p' hpass
    cases hpass
    constructor
    · -- nothing is read
      intro client holder timer polled hwait
      cases hwait
      constructor
      · intro hreadable
        cases hreadable
      intro heard hclient
      constructor
      · intro hreadable
        cases hreadable
      intro told served hholder hserve hfailed
      cases hfailed
    intro p' hpass
    cases hpass
    constructor
    · -- the client leaves, and nothing waits
      intro client holder timer polled hwait
      cases hwait
      constructor
      · intro _ _
        refine ⟨?_, ?_, ?_⟩
        · intro chunk hchunk
          cases hchunk
        · intro _
          decide +kernel
        · intro hended
          cases hended
      · intro heard hclient
        cases hclient
    intro p' hpass
    cases hpass
  have hrun : Proxy.run none typedAndTaken (Proxy.start 1 1 [] true false) =
      (.ok { exitContext := none },
        (Proxy.run none typedAndTaken (Proxy.start 1 1 [] true false)).2) :=
    Prod.ext (by decide +kernel) rfl
  exact ending_delivers hsettles hrun

end samples

end PersistShell

import PersistShell.Core.Json
import PersistShell.Daemon.Attachments
import PersistShell.Daemon.ProxyDelivery
import PersistShell.Ipc.PublicChunks

/-! What the daemon writes to the sockets of its clients: the replies of `handle_client`, the
queue of a proxy, and the byte that the thread of another client writes for `DetachSignal`. The
sockets do not block, so that any write may take a part of its bytes, or none. -/

namespace PersistShell
open Program

section replies

/-- `write_all`: what went out, and the answers that are left when all of it did. Without an
answer a write would block; a write of no byte is an error. -/
def writeAll : Bytes → List WriteAnswer → Bytes × Option (List WriteAnswer)
  | [], answers => ([], some answers)
  | _, [] => ([], none)
  | _, .fault _ :: _ => ([], none)
  | bytes, .upTo count :: answers =>
    if count = 0 then ([], none)
    else
      let (written, left) := writeAll (bytes.drop count) answers
      (bytes.take count ++ written, left)

/-- `write_frame`, as far as it gets: the header, and then the payload. -/
def Frame.write (frame : Frame) (answers : List WriteAnswer) : Bytes :=
  match writeAll frame.header answers with
  | (written, none) => written
  | (written, some answers) => written ++ (writeAll frame.payload answers).1

theorem writeAll_front (bytes : Bytes) (answers : List WriteAnswer) :
    (writeAll bytes answers).1 <+: bytes ∧
      ((writeAll bytes answers).2.isSome = true → (writeAll bytes answers).1 = bytes) := by
  induction answers generalizing bytes with
  | nil =>
    cases bytes with
    | nil => exact ⟨List.prefix_refl _, fun _ => rfl⟩
    | cons b bytes => exact ⟨List.nil_prefix, nofun⟩
  | cons answer answers ih =>
    cases bytes with
    | nil => exact ⟨List.prefix_refl _, fun _ => rfl⟩
    | cons b bytes =>
      cases answer with
      | fault source => exact ⟨List.nil_prefix, nofun⟩
      | upTo count =>
        unfold writeAll
        dsimp only
        split
        · exact ⟨List.nil_prefix, nofun⟩
        · obtain ⟨hfront, hall⟩ := ih ((b :: bytes).drop count)
          constructor
          · conv => rhs; rw [← List.take_append_drop count (b :: bytes)]
            exact (List.prefix_append_right_inj _).mpr hfront
          · intro hsome
            dsimp only at hsome ⊢
            rw [hall hsome, List.take_append_drop]

/-- What goes out of a frame is the front of it. -/
theorem Frame.write_front (frame : Frame) (answers : List WriteAnswer) :
    frame.write answers <+: frame.bytes := by
  have hheader := writeAll_front frame.header answers
  rw [Frame.write, frame.bytes_eq]
  split
  · rename_i written hwrite
    rw [hwrite] at hheader
    exact hheader.1.trans (List.prefix_append _ _)
  · rename_i written answers' hwrite
    rw [hwrite] at hheader
    have hall : written = frame.header := hheader.2 rfl
    rw [hall]
    exact (List.prefix_append_right_inj _).mpr (writeAll_front _ _).1

end replies

/-- The header says how long the payload is. -/
def Frame.WellFormed (frame : Frame) : Prop := frame.payload.length < 2 ^ 32

theorem wellFormed_of_limit {f : Frame} (h : f.payload.length ≤ f.msgType.limit) : f.WellFormed := by
  have hlimit : f.msgType.limit ≤ 2 ^ 20 := by
    unfold MessageType.limit maxIoFrame maxControlFrame
    split <;> decide
  unfold Frame.WellFormed
  omega

/-- The socket of a client. -/
structure ClientSocket where
  /-- What went out before the proxy that runs, and what of the proxy's writes is before `mark`. -/
  sent : Bytes := []
  mark : Nat := 0
  proxy : Option Proxy := none
  /-- Whether the attach of the proxy is read-write. -/
  readWrite : Bool := false
  -- what happened so far; nothing is decided by it
  /-- The frames of which a byte went out, before the proxy that runs. -/
  begun : List Frame := []
  /-- Whether the last of them went out in part, and is not continued. -/
  cut : Bool := false

namespace ClientSocket

/-- All that was written to the socket. -/
def written (c : ClientSocket) : Bytes :=
  c.sent ++ (c.proxy.map fun p => p.toPublic.written.drop c.mark).getD []

/-- The frames that were written to the socket, or wait to be written. -/
def frames (c : ClientSocket) : List Frame :=
  c.begun ++ (c.proxy.map Proxy.queued).getD []

/-- `handle_client` goes on after a frame, however much of it went out. -/
def reply (c : ClientSocket) (frame : Frame) (answers : List WriteAnswer) : ClientSocket :=
  let out := frame.write answers
  if out = [] then c
  else
    { c with
      sent := c.sent ++ out
      begun := c.begun ++ [frame]
      cut := c.cut || out ≠ frame.bytes }

/-- The frames of a proxy of which a byte went out. -/
def started (p : Proxy) : List Frame :=
  p.queued.take (p.queued.length - p.toPublic.queue.chunks.length +
    if p.toPublic.queue.offset = 0 then 0 else 1)

/-- The proxy has ended, and its queue is dropped. -/
def finish (c : ClientSocket) (p : Proxy) : ClientSocket where
  sent := c.sent ++ p.toPublic.written.drop c.mark
  begun := c.begun ++ started p
  cut := c.cut || p.toPublic.queue.offset ≠ 0

/-- A byte of another thread. -/
def stray (c : ClientSocket) (answer : WriteAnswer) : ClientSocket :=
  match answer with
  | .fault _ | .upTo 0 => c
  | .upTo _ =>
    { c with sent := c.written ++ [1], mark := (c.proxy.map (·.toPublic.written.length)).getD 0 }

end ClientSocket

/-- The sockets by their descriptor, and what was written to those that are closed. -/
structure ClientSockets extends Attachments where
  sockets : Std.ExtTreeMap Nat ClientSocket := {}
  past : List ClientSocket := []

inductive SocketAction where
  | accept (fd : Nat)
  | reply (fd : Nat) (frame : {f : Frame // f.WellFormed}) (answers : List WriteAnswer)
  /-- The holder has attached the session, and the proxy is set up. -/
  | attach (fd sessionId holderMinor : Nat) (initialOutput : Bytes) (readWrite : Bool)
    (timerFault : Option (String × Errno))
  /-- A pass of the proxy. -/
  | pass (fd : Nat) (turn : PassTurn)
  /-- The thread of any client handles `DetachSignal`. -/
  | detachSignal (sessionId : Nat) (answer : WriteAnswer)
  | finishClose (sessionId : Nat)
  | leave (fd : Nat) (detach : Option Nat)

namespace Proxy

theorem leaves_fillLoop (fuel : Nat) {w : Bytes} :
    Leaves (fun p : Proxy => p.toPublic.written = w) (fillLoop fuel) := by
  induction fuel with
  | zero => exact Leaves.pure _
  | succ fuel ih =>
    refine Leaves.bind (Leaves.read _) fun history => ?_
    split
    · exact Leaves.pure _
    refine Leaves.bind (Leaves.read _) fun toPublic => ?_
    dsimp only
    split
    · exact Leaves.pure _
    have hpush : ∀ payload, Within (fun p : Proxy => p.toPublic.written = w)
        (pushPublic .history .stdout payload) (fun _ p => p.toPublic.written = w)
        fun p => p.toPublic.written = w :=
      fun payload => within_pushPublic (fun _ h _ => h) fun _ h _ => h
    refine Leaves.bind (fun p hp => (hpush _).leaves (fun _ _ => id) hp) fun _ => ?_
    exact Leaves.bind (Leaves.update fun _ h => h) fun _ => ih

/-- Nothing goes out before the first pass. -/
theorem leaves_fill {w : Bytes} : Leaves (fun p : Proxy => p.toPublic.written = w) fill :=
  Leaves.bind (Leaves.read _) fun _ => leaves_fillLoop _

end Proxy

section machine

variable [SerdeJson]

namespace ClientSockets
open Attachments

/-- The connection is dropped. -/
def close (s : ClientSockets) (fd : Nat) (c : ClientSocket) : ClientSockets :=
  { s with sockets := s.sockets.erase fd, past := c :: s.past }

def release (a : Attachments) (readWrite : Bool) (sessionId fd : Nat) : Attachments :=
  if readWrite then a.releaseWriter sessionId fd else a.removeRoClient sessionId fd

def step (s : ClientSockets) : SocketAction → Option ClientSockets
  | .accept fd =>
    if s.sockets.contains fd then none else some { s with sockets := s.sockets.insert fd {} }
  | .reply fd frame answers =>
    match s.sockets[fd]? with
    | some c =>
      if c.proxy.isSome then none
      else some { s with sockets := s.sockets.insert fd (c.reply frame.val answers) }
    | none => none
  | .attach fd sessionId holderMinor initialOutput readWrite timerFault =>
    match s.sockets[fd]? with
    | some c =>
      if c.proxy.isSome then none
      else
        let entries := if readWrite then s.transferWriter sessionId fd
          else s.addRoClient sessionId fd
        match Proxy.fill (Proxy.start sessionId holderMinor initialOutput readWrite readWrite) with
        | (.ok _, p) =>
          if readWrite ∧ timerFault.isSome then
            some (close { s with toAttachments := entries } fd c)
          else some
            { entries with
              sockets := s.sockets.insert fd { c with proxy := some p, readWrite }
              past := s.past }
        | _ => some (close { s with toAttachments := entries } fd c)
    | none => none
  | .pass fd turn =>
    match s.sockets[fd]? with
    | some c =>
      match c.proxy with
      | none => none
      | some p =>
        match Proxy.pass turn p with
        | (.ok none, p') => some { s with sockets := s.sockets.insert fd { c with proxy := some p' } }
        | (.ok (some _), p') => some
          { release s.toAttachments c.readWrite p.sessionId fd with
            sockets := s.sockets.insert fd (c.finish p'), past := s.past }
        | (.err _, p') => some (s.close fd (c.finish p'))
        | (.panic, _) => none
    | none => none
  | .detachSignal sessionId answer =>
    match s.attachedSessions[sessionId]? with
    | none => some s
    | some fd =>
      match s.sockets[fd]? with
      | none => some s
      | some c => some { s with sockets := s.sockets.insert fd (c.stray answer) }
  | .finishClose sessionId => some { s with toAttachments := s.finishClose sessionId }
  | .leave fd detach =>
    match s.sockets[fd]? with
    | some c =>
      if c.proxy.isSome then none
      else
        match detach with
        | none => some (s.close fd c)
        | some sessionId =>
          some (close { s with toAttachments := s.releaseWriter sessionId fd } fd c)
    | none => none

/-- A frame of which a part went out is the last that is written to its client, and no thread
writes the byte of `DetachSignal`. -/
def Clear (s : ClientSockets) : SocketAction → Prop
  | .reply fd frame answers => ∀ c, s.sockets[fd]? = some c → c.cut = true →
      frame.val.write answers = []
  | .pass fd turn => ∀ c p, s.sockets[fd]? = some c → c.proxy = some p → c.cut = true →
      (Proxy.pass turn p).2.toPublic.written = []
  | .detachSignal sessionId answer => ∀ fd, s.attachedSessions[sessionId]? = some fd →
      s.sockets.contains fd = true → answer = .upTo 0 ∨ ∃ source, answer = .fault source
  | _ => True

end ClientSockets

/-- **The socket carries only whole frames:** what was written is the front of the frames that
were begun, one behind the other. -/
def ClientSocket.Whole (c : ClientSocket) : Prop :=
  (∀ f ∈ c.frames, f.WellFormed) ∧ c.written <+: c.frames.flatMap Frame.bytes

/-- What holds of a socket between the steps. -/
structure ClientSocket.Sound (c : ClientSocket) : Prop where
  mark : c.mark = 0
  wellFormed : ∀ f ∈ c.begun, f.WellFormed
  sent : c.sent <+: c.begun.flatMap Frame.bytes
  uncut : c.cut = false → c.sent = c.begun.flatMap Frame.bytes
  silent : c.cut = true → ∀ p, c.proxy = some p → p.toPublic.written = []
  steady : ∀ p, c.proxy = some p → ∃ setup, p.Steady setup

section sockets

variable {c : ClientSocket} {p : Proxy}

/-- What a proxy has queued is there for its client, whole. -/
theorem Proxy.Told.queued {setup : Setup} (h : p.Told setup) :
    (∀ f ∈ p.queued, f.WellFormed) ∧ ∃ done waiting, p.queued = done ++ waiting ∧
      p.toPublic.queue.Carries Frame.bytes done waiting p.toPublic.written := by
  obtain ⟨outstanding, hordered⟩ := h
  exact ⟨fun f hf => wellFormed_of_limit (hordered.fits f hf), hordered.carried⟩

namespace ClientSocket

theorem Sound.whole (h : c.Sound) : c.Whole := by
  unfold Whole frames written
  rw [h.mark]
  cases hproxy : c.proxy with
  | none =>
    simp only [Option.map_none, Option.getD_none, List.append_nil]
    exact ⟨h.wellFormed, h.sent⟩
  | some p =>
    simp only [Option.map_some, Option.getD_some, List.drop_zero]
    obtain ⟨setup, hsteady⟩ := h.steady p hproxy
    obtain ⟨hfits, done, waiting, hqueued, hcarries⟩ := hsteady.told.queued
    have hwritten := hcarries.written_prefix
    rw [← hqueued] at hwritten
    constructor
    · intro f hf
      exact (List.mem_append.mp hf).elim (h.wellFormed f) (hfits f)
    · rw [List.flatMap_append]
      cases hcut : c.cut with
      | true =>
        rw [h.silent hcut p hproxy, List.append_nil]
        exact h.sent.trans (List.prefix_append _ _)
      | false =>
        rw [h.uncut hcut]
        exact (List.prefix_append_right_inj _).mpr hwritten

theorem Sound.reply (h : c.Sound) (hproxy : c.proxy = none) {frame : Frame}
    {answers : List WriteAnswer} (hframe : frame.WellFormed)
    (hclear : c.cut = true → frame.write answers = []) : (c.reply frame answers).Sound := by
  unfold ClientSocket.reply
  dsimp only
  split
  · exact h
  · rename_i hout
    have hcut : c.cut = false := by
      cases hcut : c.cut with
      | true => exact absurd (hclear hcut) hout
      | false => rfl
    have hfront := frame.write_front answers
    have hnone : ∀ {P : Proxy → Prop}, ∀ p, c.proxy = some p → P p := by
      intro P p hsome
      rw [hproxy] at hsome
      cases hsome
    constructor
    · exact h.mark
    · intro f hf
      rcases List.mem_append.mp hf with hold | hnew
      · exact h.wellFormed f hold
      · rw [List.mem_singleton.mp hnew]
        exact hframe
    · rw [h.uncut hcut, List.flatMap_append, List.flatMap_singleton]
      exact (List.prefix_append_right_inj _).mpr hfront
    · intro hwhole
      rw [hcut, Bool.false_or, decide_eq_false_iff_not, not_not] at hwhole
      dsimp only
      rw [h.uncut hcut, hwhole, List.flatMap_append, List.flatMap_singleton]
    · exact fun _ => hnone
    · exact hnone

/-- What went out of a proxy is the front of the frames that it has started. -/
theorem written_started {setup : Setup} (htold : p.Told setup) :
    p.toPublic.written <+: (started p).flatMap Frame.bytes ∧
      (p.toPublic.queue.offset = 0 →
        p.toPublic.written = (started p).flatMap Frame.bytes) := by
  obtain ⟨-, done, waiting, hqueued, hcarries⟩ := htold.queued
  have hlength : p.queued.length - p.toPublic.queue.chunks.length = done.length := by
    rw [hcarries.chunks, List.length_map, hqueued, List.length_append]
    omega
  unfold started
  rw [hlength, hqueued, hcarries.written]
  by_cases hoffset : p.toPublic.queue.offset = 0
  · rw [if_pos hoffset, hoffset, Nat.add_zero, List.take_left, List.take_zero, List.append_nil]
    exact ⟨List.prefix_refl _, fun _ => rfl⟩
  · refine ⟨?_, fun h => absurd h hoffset⟩
    rw [if_neg hoffset]
    cases hwaiting : waiting with
    | nil =>
      have hchunks := hcarries.chunks
      rw [hwaiting] at hchunks
      exact absurd (hcarries.offset_nil hchunks) hoffset
    | cons f later =>
      have hchunks := hcarries.chunks
      rw [hwaiting, List.map_cons] at hchunks
      have hlt : p.toPublic.queue.offset < f.bytes.length := by
        apply hcarries.offset_lt
        rw [hchunks]
        rfl
      rw [hchunks, List.flatten_cons, List.take_append_of_le_length hlt.le, List.take_append,
        List.take_of_length_le (Nat.le_succ _), Nat.add_sub_cancel_left, List.take_succ_cons,
        List.take_zero, List.flatMap_append, List.flatMap_singleton]
      exact (List.prefix_append_right_inj _).mpr (List.take_prefix _ _)

/-- A proxy that ends leaves what it has written, in part or whole. -/
theorem Sound.finish (h : c.Sound) {setup : Setup} (htold : p.Told setup)
    (hsilent : c.cut = true → p.toPublic.written = []) : (c.finish p).Sound := by
  obtain ⟨hfront, hwhole⟩ := written_started htold
  have hsent : (c.finish p).sent = c.sent ++ p.toPublic.written := by
    change c.sent ++ p.toPublic.written.drop c.mark = _
    rw [h.mark, List.drop_zero]
  constructor
  · rfl
  · intro f hf
    rcases List.mem_append.mp hf with hold | hnew
    · exact h.wellFormed f hold
    · exact htold.queued.1 f (List.mem_of_mem_take hnew)
  · rw [hsent]
    change _ <+: (c.begun ++ started p).flatMap Frame.bytes
    rw [List.flatMap_append]
    cases hcut : c.cut with
    | true =>
      rw [hsilent hcut, List.append_nil]
      exact h.sent.trans (List.prefix_append _ _)
    | false =>
      rw [h.uncut hcut]
      exact (List.prefix_append_right_inj _).mpr hfront
  · intro hcut
    obtain ⟨hcut, hoffset⟩ := Bool.or_eq_false_iff.mp hcut
    rw [decide_eq_false_iff_not, not_not] at hoffset
    rw [hsent, h.uncut hcut, hwhole hoffset]
    exact List.flatMap_append.symm
  · exact fun _ => nofun
  · exact nofun

/-- A proxy that starts, or goes on after a pass. -/
theorem Sound.attached (h : c.Sound) {setup : Setup} (hsteady : p.Steady setup)
    (hsilent : c.cut = true → p.toPublic.written = []) (readWrite : Bool) :
    Sound { c with proxy := some p, readWrite } := by
  constructor
  · exact h.mark
  · exact h.wellFormed
  · exact h.sent
  · exact h.uncut
  · intro hcut q hq
    cases hq
    exact hsilent hcut
  · intro q hq
    cases hq
    exact ⟨setup, hsteady⟩

end ClientSocket

end sockets

namespace ClientSockets

variable {s s' : ClientSockets}

/-- All the sockets are as they should be, also those that are closed. -/
structure Sound (s : ClientSockets) : Prop where
  sockets : ∀ (fd : Nat) (c : ClientSocket), s.sockets[fd]? = some c → c.Sound
  past : ∀ c ∈ s.past, ClientSocket.Sound c

theorem Sound.insert (h : s.Sound) {fd : Nat} {c : ClientSocket} (hc : c.Sound)
    (a : Attachments) :
    Sound { a with sockets := s.sockets.insert fd c, past := s.past } := by
  refine ⟨fun fd' c' hget => ?_, h.past⟩
  change (s.sockets.insert fd c)[fd']? = some c' at hget
  rw [NatMap.get_insert] at hget
  split at hget
  · cases hget
    exact hc
  · exact h.sockets fd' c' hget

theorem Sound.close (h : s.Sound) {fd : Nat} {c : ClientSocket} (hc : c.Sound)
    (a : Attachments) : Sound (ClientSockets.close { s with toAttachments := a } fd c) := by
  constructor
  · intro fd' c' hget
    change (s.sockets.erase fd)[fd']? = some c' at hget
    rw [NatMap.get_erase] at hget
    split at hget
    · cases hget
    · exact h.sockets fd' c' hget
  · intro c' hc'
    rcases List.mem_cons.mp hc' with rfl | hold
    · exact hc
    · exact h.past c' hold

/-- A step that writes nothing behind a part of a frame keeps the sockets as they should be. -/
theorem sound_step {action : SocketAction} (h : s.Sound) (hclear : s.Clear action)
    (hstep : s.step action = some s') : s'.Sound := by
  cases action with
  | accept fd =>
    rw [step] at hstep
    split at hstep
    · cases hstep
    · cases hstep
      refine h.insert ?_ s.toAttachments
      exact ⟨rfl, nofun, List.prefix_refl _, fun _ => rfl, nofun, nofun⟩
  | reply fd frame answers =>
    rw [step] at hstep
    split at hstep
    · rename_i c hget
      split at hstep
      · cases hstep
      · rename_i hproxy
        cases hstep
        have hnone : c.proxy = none := Option.not_isSome_iff_eq_none.mp hproxy
        exact h.insert ((h.sockets fd c hget).reply hnone frame.property (hclear c hget)) _
    · cases hstep
  | attach fd sessionId holderMinor initialOutput readWrite timerFault =>
    rw [step] at hstep
    split at hstep
    · rename_i c hget
      have hc := h.sockets fd c hget
      split at hstep
      · cases hstep
      dsimp only at hstep
      split at hstep
      · rename_i u p hfill
        split at hstep
        · cases hstep
          exact h.close hc _
        · cases hstep
          have hstart : (Proxy.start sessionId holderMinor initialOutput readWrite
              readWrite).Steady ⟨initialOutput, sessionId, holderMinor⟩ :=
            Proxy.steady_start readWrite readWrite
          have hsteady := Proxy.within_fill.run hfill hstart
          have hwritten : p.toPublic.written = [] := Proxy.leaves_fill.run hfill rfl
          exact h.insert (hc.attached hsteady (fun _ => hwritten) readWrite) _
      · cases hstep
        exact h.close hc _
    · cases hstep
  | pass fd turn =>
    rw [step] at hstep
    split at hstep
    · rename_i c hget
      have hc := h.sockets fd c hget
      split at hstep
      · cases hstep
      · rename_i p hproxy
        obtain ⟨setup, hsteady⟩ := hc.steady p hproxy
        have hpass := Proxy.within_pass turn p hsteady
        have hsilent := hclear c p hget hproxy
        split at hstep
        · rename_i p' hrun
          rw [hrun] at hpass hsilent
          cases hstep
          exact h.insert (hc.attached hpass hsilent c.readWrite) _
        · rename_i outcome p' hrun
          rw [hrun] at hpass hsilent
          cases hstep
          exact h.insert (hc.finish ⟨[], hpass⟩ hsilent) _
        · rename_i e p' hrun
          rw [hrun] at hpass hsilent
          cases hstep
          exact h.close (hc.finish hpass hsilent) _
        · cases hstep
    · cases hstep
  | detachSignal sessionId answer =>
    rw [step] at hstep
    split at hstep
    · cases hstep
      exact h
    · rename_i fd hentry
      split at hstep
      · cases hstep
        exact h
      · rename_i c hget
        cases hstep
        have hopen : s.sockets.contains fd = true := (NatMap.contains_iff _ _).mpr ⟨c, hget⟩
        have hstray : c.stray answer = c := by
          rcases hclear fd hentry hopen with rfl | ⟨source, rfl⟩
          · rfl
          · rfl
        rw [hstray]
        exact h.insert (h.sockets fd c hget) _
  | finishClose sessionId =>
    cases hstep
    exact ⟨h.sockets, h.past⟩
  | leave fd detach =>
    rw [step] at hstep
    split at hstep
    · rename_i c hget
      have hc := h.sockets fd c hget
      split at hstep
      · cases hstep
      · split at hstep
        · cases hstep
          exact h.close hc _
        · cases hstep
          exact h.close hc _
    · cases hstep

end ClientSockets

end machine

section samples

attribute [local instance] Json.serdeJson

/-- A client is told of a pong, and the other one of nothing. -/
def answered : List SocketAction :=
  [.accept 7, .reply 7 ⟨{ msgType := .pong }, Nat.two_pow_pos 32⟩ [.upTo 12]]

end samples

end PersistShell

import PersistShell.Holder.Acceptance
import PersistShell.Holder.Quiet
import PersistShell.Program.QueueRun

/-! The queues of the holder under back-pressure: the input of a session on its way to the
terminal, and the output of a connection on its way to the peer. -/

namespace PersistShell

/-- How many of the bytes that it is given a write takes; none when it fails. -/
def Turn.taken (turn : Turn) (front : Bytes) : Nat :=
  match turn.fault with
  | some _ => 0
  | none => min (turn.count.getD front.length) front.length

theorem Turn.taken_le (turn : Turn) (front : Bytes) : turn.taken front ≤ front.length := by
  unfold Turn.taken
  cases turn.fault with
  | some _ => exact Nat.zero_le _
  | none => exact Nat.min_le_right _ _

/-- A write that goes through, whole or in part. -/
def Turn.Writes (turn : Turn) : Prop := turn.fault = none ∧ turn.count ≠ some 0

theorem Turn.Writes.taken_ne {turn : Turn} (h : turn.Writes) {front : Bytes} (hfront : front ≠ []) :
    turn.taken front ≠ 0 := by
  have hpos := List.length_pos_iff.mpr hfront
  rw [Turn.taken, h.1]
  dsimp only
  cases hcount : turn.count with
  | none =>
    rw [Option.getD_none]
    omega
  | some count =>
    have hne : count ≠ 0 := fun hzero => h.2 (hzero ▸ hcount)
    rw [Option.getD_some]
    omega

/-- What the next writes make of a queue. -/
def World.flushed (w : World) (q : ByteQueue) : Bytes × ByteQueue :=
  q.flushed Turn.taken {} (q.chunks.flatten.length + 1) w.script

namespace Holder
open Program

theorem call_eq (w : World) : ∃ w', call w = (.ok (w.script.headD {}), w') ∧
    w'.server = w.server ∧ w'.script = w.script.tail := by
  unfold call
  split
  · rename_i hscript
    exact ⟨w, by rw [hscript]; rfl, rfl, by rw [hscript]; rfl⟩
  · rename_i turn script hscript
    have hacted := World.acted_foldl { w with script := script } turn.activity
    exact ⟨_, by rw [hscript]; rfl, hacted.server, by rw [hacted.script, hscript]; rfl⟩

section input

variable {s : SessionId} {w : World} {session : Session} {pty : PtySession}

/-- Which of its ends the write of the front of a queue comes to. -/
theorem writeInput_eq (front : Bytes) (w : World) : ∃ r w', writeInput front w = (.ok r, w') ∧
    w'.server = w.server ∧ w'.script = w.script.tail ∧
    ((∃ source, r = .error source ∧ (w.script.headD {}).taken front = 0) ∨
      r = .ok ((w.script.headD {}).taken front)) := by
  obtain ⟨w', hcall, hserver, hscript⟩ := call_eq w
  unfold writeInput
  rw [bind_ok hcall]
  cases hfault : (w.script.headD {}).fault with
  | some source =>
    exact ⟨_, w', rfl, hserver, hscript, .inl ⟨source, rfl, by rw [Turn.taken, hfault]⟩⟩
  | none => exact ⟨_, w', rfl, hserver, hscript, .inr (by rw [Turn.taken, hfault])⟩

/-- The session is there, with this input waiting for this terminal. -/
structure HasInput (s : SessionId) (q : ByteQueue) (pty : Option PtySession) (w : World) : Prop where
  found : ∃ session, w.server.runtime.sessions[s]? = some session ∧ session.input = q ∧
    session.pty = pty

theorem HasInput.of_server {q : ByteQueue} {terminal : Option PtySession} {w' : World}
    (h : HasInput s q terminal w)
    (hsame : w'.server.runtime.sessions[s]? = w.server.runtime.sessions[s]?) :
    HasInput s q terminal w' := by
  obtain ⟨session, hsession, hq, hpty⟩ := h.found
  exact ⟨session, hsame.trans hsession, hq, hpty⟩

/-- The write loop does to the queue what the writes do. -/
theorem flushInputLoop_flushed (fuel : Nat) {q : ByteQueue} (h : HasInput s q (some pty) w)
    (hfuel : q.left < fuel) :
    ∃ r w', flushInputLoop s fuel w = (r, w') ∧ r ≠ .panic ∧
      HasInput s (q.flushed Turn.taken {} fuel w.script).2 (some pty) w' := by
  induction fuel generalizing w q with
  | zero => exact absurd hfuel (Nat.not_lt_zero _)
  | succ fuel ih =>
    obtain ⟨session, hsession, rfl, hpty⟩ := h.found
    have hread : server w = (.ok w.server, w) := rfl
    unfold flushInputLoop
    rw [bind_ok hread, hsession]
    dsimp only
    rw [hpty]
    cases hfront : session.input.front with
    | none =>
      refine ⟨_, w, rfl, fun h => (by cases h), ?_⟩
      rw [ByteQueue.flushed_stops fun front hsome => by rw [hfront] at hsome; cases hsome]
      exact h
    | some front =>
      dsimp only
      obtain ⟨r, w', hwrite, hserver, hscript, hends⟩ := writeInput_eq front w
      have hsame : w'.server.runtime.sessions[s]? = w.server.runtime.sessions[s]? := by rw [hserver]
      rw [bind_ok hwrite]
      have hstopped : (w.script.headD {}).taken front = 0 →
          HasInput s (session.input.flushed Turn.taken {} (fuel + 1) w.script).2 (some pty) w' := by
        intro hnone
        rw [ByteQueue.flushed_stops fun found hsome => ?_]
        · exact h.of_server hsame
        · rw [hfront] at hsome
          cases hsome
          exact hnone
      rcases hends with ⟨source, rfl, hnone⟩ | rfl
      · have hinput := hstopped hnone
        cases source with
        | wouldBlock => exact ⟨_, w', rfl, fun h => (by cases h), hinput⟩
        | _ => exact ⟨_, _, rfl, fun h => (by cases h), hinput.of_server rfl⟩
      · cases hcount : (w.script.headD {}).taken front with
        | zero => exact ⟨_, w', rfl, fun h => (by cases h), hstopped hcount⟩
        | succ count =>
          have hle := (w.script.headD {}).taken_le front
          rw [hcount] at hle
          have hless : (session.input.advance (count + 1)).left < session.input.left :=
            ByteQueue.left_advance_lt hfront (Nat.succ_pos count) hle
          let advanced : Session → Session := fun session =>
            { session with input := session.input.advance (count + 1) }
          let next : World := { w' with server := { w'.server with runtime :=
            { w'.server.runtime with
              sessions := w'.server.runtime.sessions.alter s (·.map advanced) } } }
          have hnext : HasInput s (session.input.advance (count + 1)) (some pty) next := by
            refine ⟨advanced session, ?_, rfl, hpty⟩
            change (w'.server.runtime.sessions.alter s _)[s]? = _
            rw [NatMap.get_alter, if_pos rfl, hsame, hsession]
            rfl
          obtain ⟨r, last, hrun, hreturns, hlast⟩ := ih hnext (by omega)
          have hcount' : (w.script.headD {}).taken front ≠ 0 := by
            rw [hcount]
            exact Nat.succ_ne_zero count
          rw [ByteQueue.flushed_succ hfront fuel w.script hcount', hcount, ← hscript]
          exact ⟨r, last, hrun, hreturns, hlast⟩

/-- The bytes that a flush puts into the terminal. -/
def sentInput (s : SessionId) (w : World) : Bytes :=
  match w.server.runtime.sessions[s]? with
  | none => []
  | some session => if session.pty.isSome then (w.flushed session.input).1 else []

/-- A flush leaves the queue that the writes leave, and returns or fails. -/
theorem flushInput_flushed {q : ByteQueue} {terminal : Option PtySession}
    (h : HasInput s q terminal w) :
    (flushInput s w).1 ≠ .panic ∧
      HasInput s (if terminal.isSome then (w.flushed q).2 else q) terminal (flushInput s w).2 ∧
      sentInput s w = if terminal.isSome then (w.flushed q).1 else [] := by
  obtain ⟨session, hsession, rfl, rfl⟩ := h.found
  have hread : server w = (.ok w.server, w) := rfl
  have hunwrap : (unwrap w.server.runtime.sessions[s]? : Holder Session) w = (.ok session, w) := by
    rw [hsession]
    rfl
  refine and_assoc.mp ⟨?_, by rw [sentInput, hsession]⟩
  unfold flushInput
  rw [bind_ok hread, bind_ok hunwrap]
  cases hpty : session.pty with
  | none =>
    have hloop : flushInputLoop s (session.input.chunks.flatten.length + 1) w = (.ok (), w) := by
      unfold flushInputLoop
      rw [bind_ok hread, hsession]
      dsimp only
      rw [hpty]
      cases session.input.front <;> rfl
    rw [bind_ok hloop]
    rw [hpty] at h
    exact ⟨fun h => (by cases h), h⟩
  | some pty =>
    rw [hpty] at h
    obtain ⟨r, w', hrun, hreturns, hleft⟩ :=
      flushInputLoop_flushed _ h (Nat.lt_succ_of_le session.input.left_le)
    cases r with
    | ok _ =>
      rw [bind_ok hrun]
      exact ⟨fun h => (by cases h), hleft⟩
    | err e =>
      rw [bind_err hrun]
      exact ⟨fun h => (by cases h), hleft⟩
    | panic => exact absurd rfl hreturns

/-- What `queue_input` asks for. -/
def AcceptsInput (s : SessionId) (data : Bytes) (w : World) : Prop :=
  ∃ session, w.server.runtime.sessions[s]? = some session ∧ session.exitCode = none ∧ data ≠ [] ∧
    session.input.bytes + data.length ≤ maxPendingInput

/-- What is refused changes nothing. -/
theorem queueInput_refused {data : Bytes} (h : ¬ AcceptsInput s data w) :
    ∃ message, queueInput s data w = (.err (.invalidArgument message), w) := by
  have hread : server w = (.ok w.server, w) := rfl
  unfold queueInput
  rw [bind_ok hread]
  cases hsession : w.server.runtime.sessions[s]? with
  | none => exact ⟨_, rfl⟩
  | some session =>
    dsimp only
    by_cases hwritable : session.exitCode.isSome = true ∨ data = []
    · rw [rejectIf, if_pos hwritable]
      exact ⟨_, rfl⟩
    · rw [rejectIf, if_neg hwritable]
      obtain ⟨hrunning, hdata⟩ := not_or.mp hwritable
      have hfull : session.input.bytes + data.length > maxPendingInput := by
        by_contra hroom
        refine h ⟨session, hsession, ?_, hdata, Nat.le_of_not_lt hroom⟩
        rwa [Bool.not_eq_true, Option.isSome_eq_false_iff, Option.isNone_iff_eq_none] at hrunning
      rw [rejectIf, if_pos hfull]
      exact ⟨_, rfl⟩

/-- Where the input has been put into the queue and is about to be flushed. -/
def enqueued (s : SessionId) (data : Bytes) (w : World) : World :=
  { (call w).2 with server := { (call w).2.server with runtime := { (call w).2.server.runtime with
    sessions := (call w).2.server.runtime.sessions.alter s (·.map fun session =>
      { session with
        input := session.input.push data, lastActiveAtMs := (w.script.headD {}).now }) } } }

/-- What is accepted is put at the end of the queue, which is then flushed. -/
theorem queueInput_accepted {data : Bytes} (h : AcceptsInput s data w) :
    queueInput s data w = flushInput s (enqueued s data w) := by
  obtain ⟨session, hsession, hrunning, hdata, hroom⟩ := h
  obtain ⟨w', hcall, -, -⟩ := call_eq w
  have hread : server w = (.ok w.server, w) := rfl
  have hwritable : ¬ (session.exitCode.isSome = true ∨ data = []) := by
    rw [hrunning]
    exact not_or.mpr ⟨Bool.false_ne_true, hdata⟩
  have hnow : nowMs w = (.ok (w.script.headD {}).now, w') := by
    unfold nowMs
    rw [bind_ok hcall]
    rfl
  have hafter : w' = (call w).2 := by rw [hcall]
  unfold queueInput
  rw [bind_ok hread, hsession]
  dsimp only
  rw [rejectIf, if_neg hwritable, rejectIf, if_neg (Nat.not_lt.mpr hroom)]
  change (nowMs >>= _ : Holder Bool) w = _
  rw [bind_ok hnow, hafter]
  rfl

theorem enqueued_input {data : Bytes} {q : ByteQueue} {terminal : Option PtySession}
    (h : HasInput s q terminal w) : HasInput s (q.push data) terminal (enqueued s data w) := by
  obtain ⟨session, hsession, rfl, rfl⟩ := h.found
  obtain ⟨w', hcall, hserver, -⟩ := call_eq w
  have hafter : (call w).2.server = w.server := by rw [hcall, hserver]
  refine ⟨{ session with
    input := session.input.push data, lastActiveAtMs := (w.script.headD {}).now }, ?_, rfl, rfl⟩
  change ((call w).2.server.runtime.sessions.alter s _)[s]? = _
  rw [NatMap.get_alter, if_pos rfl, hafter, hsession]
  rfl

end input

section output

variable {fd : Fd} {w : World} {c : Connection}

/-- The connection is there, with this output waiting. -/
structure HasOutput (fd : Fd) (q : ByteQueue) (w : World) : Prop where
  found : ∃ c, w.server.connections[fd]? = some c ∧ c.output = q

theorem HasOutput.of_server {q : ByteQueue} {w' : World} (h : HasOutput fd q w)
    (hsame : w'.server.connections[fd]? = w.server.connections[fd]?) : HasOutput fd q w' := by
  obtain ⟨c, hc, hq⟩ := h.found
  exact ⟨c, hsame.trans hc, hq⟩

theorem connection_eq (hc : w.server.connections[fd]? = some c) :
    connection fd w = (.ok c, w) := by
  change unwrap w.server.connections[fd]? w = _
  rw [hc]
  rfl

/-- The write loop does to the queue what the writes do. -/
theorem flushLoop_flushed (fuel : Nat) {q : ByteQueue} (h : HasOutput fd q w)
    (hfuel : q.left < fuel) :
    ∃ r w', flushLoop fd fuel w = (r, w') ∧ r ≠ .panic ∧
      HasOutput fd (q.flushed Turn.taken {} fuel w.script).2 w' := by
  induction fuel generalizing w q with
  | zero => exact absurd hfuel (Nat.not_lt_zero _)
  | succ fuel ih =>
    obtain ⟨c, hc, rfl⟩ := h.found
    unfold flushLoop
    rw [bind_ok (connection_eq hc)]
    cases hfront : c.output.front with
    | none =>
      refine ⟨_, w, rfl, fun h => (by cases h), ?_⟩
      rw [ByteQueue.flushed_stops fun front hsome => by rw [hfront] at hsome; cases hsome]
      exact h
    | some front =>
      obtain ⟨w', hcall, hserver, hscript⟩ := call_eq w
      have hsame : w'.server.connections[fd]? = w.server.connections[fd]? := by rw [hserver]
      dsimp only
      rw [bind_ok hcall]
      have hstopped : (w.script.headD {}).taken front = 0 →
          HasOutput fd (c.output.flushed Turn.taken {} (fuel + 1) w.script).2 w' := by
        intro hnone
        rw [ByteQueue.flushed_stops fun found hsome => ?_]
        · exact h.of_server hsame
        · rw [hfront] at hsome
          cases hsome
          exact hnone
      have htaken : ∀ fault, (w.script.headD {}).fault = fault → (w.script.headD {}).taken front =
          fault.elim (min ((w.script.headD {}).count.getD front.length) front.length) fun _ => 0 := by
        rintro fault rfl
        unfold Turn.taken
        cases (w.script.headD {}).fault <;> rfl
      cases hfault : (w.script.headD {}).fault with
      | some source =>
        have houtput := hstopped (htaken _ hfault)
        cases source with
        | wouldBlock => exact ⟨_, w', rfl, fun h => (by cases h), houtput⟩
        | _ => exact ⟨_, _, rfl, fun h => (by cases h), houtput.of_server rfl⟩
      | none =>
        have htaken := htaken _ hfault
        rw [Option.elim_none] at htaken
        dsimp only
        cases hcount : min ((w.script.headD {}).count.getD front.length) front.length with
        | zero => exact ⟨_, w', rfl, fun h => (by cases h), hstopped (htaken.trans hcount)⟩
        | succ count =>
          have hle : count + 1 ≤ front.length := hcount ▸ Nat.min_le_right _ _
          have hless : (c.output.advance (count + 1)).left < c.output.left :=
            ByteQueue.left_advance_lt hfront (Nat.succ_pos count) hle
          let advanced : Connection → Connection := fun c =>
            { c with output := c.output.advance (count + 1) }
          let next : World := { w' with server := { w'.server with
            connections := w'.server.connections.alter fd (·.map advanced) } }
          have hnext : HasOutput fd (c.output.advance (count + 1)) next := by
            refine ⟨advanced c, ?_, rfl⟩
            change (w'.server.connections.alter fd _)[fd]? = _
            rw [NatMap.get_alter, if_pos rfl, hsame, hc]
            rfl
          obtain ⟨r, last, hrun, hreturns, hlast⟩ := ih hnext (by omega)
          have hcount' : (w.script.headD {}).taken front ≠ 0 := by
            rw [htaken, hcount]
            exact Nat.succ_ne_zero count
          rw [ByteQueue.flushed_succ hfront fuel w.script hcount', htaken, hcount, ← hscript]
          exact ⟨r, last, hrun, hreturns, hlast⟩

/-- The bytes that a flush hands to the peer. -/
def sentOutput (fd : Fd) (w : World) : Bytes :=
  match w.server.connections[fd]? with
  | none => []
  | some c => (w.flushed c.output).1

theorem flush_flushed {q : ByteQueue} (h : HasOutput fd q w) :
    (flush fd w).1 ≠ .panic ∧ HasOutput fd (w.flushed q).2 (flush fd w).2 ∧
      sentOutput fd w = (w.flushed q).1 := by
  obtain ⟨c, hc, rfl⟩ := h.found
  refine and_assoc.mp ⟨?_, by rw [sentOutput, hc]⟩
  obtain ⟨r, w', hrun, hreturns, hleft⟩ :=
    flushLoop_flushed _ h (Nat.lt_succ_of_le c.output.left_le)
  unfold flush
  rw [bind_ok (connection_eq hc)]
  cases r with
  | ok more =>
    rw [bind_ok hrun]
    cases more with
    | false => exact ⟨fun h => (by cases h), hleft⟩
    | true =>
      obtain ⟨c', hc', -⟩ := hleft.found
      rw [if_pos rfl, bind_ok (connection_eq hc')]
      exact ⟨fun h => (by cases h), hleft⟩
  | err e =>
    rw [bind_err hrun]
    exact ⟨fun h => (by cases h), hleft⟩
  | panic => exact absurd rfl hreturns

/-- The bytes of a frame that the connection has room for. -/
def AcceptsOutput (fd : Fd) (frame : HolderFrame) (bytes : Bytes) (w : World) : Prop :=
  ∃ c, w.server.connections[fd]? = some c ∧
    encodeFrameWithMinor frame c.protocolMinor = .ok bytes ∧
    c.output.bytes + bytes.length ≤ maxPendingOutput

theorem reactorModify_server (writable : Bool) (w : World) :
    (reactorModify fd writable w).2.server = w.server := by
  obtain ⟨w', hcall, hserver, -⟩ := call_eq w
  have hread : server w = (.ok w.server, w) := rfl
  have hcontrol : (epollControl fd writable w).2.server = w.server := by
    unfold epollControl control
    rw [bind_apply, bind_ok hcall]
    cases (w.script.headD {}).fault <;> exact hserver
  unfold reactorModify
  rw [bind_ok hread]
  by_cases hnone : w.server.reactor.tokens[fd]? = none
  · rw [rejectIf, if_pos hnone]
    rfl
  · rw [rejectIf, if_neg hnone]
    exact hcontrol

theorem encodeFrame_ne_nil {frame : HolderFrame} {minor : Nat} {bytes : Bytes}
    (h : encodeFrameWithMinor frame minor = .ok bytes) : bytes ≠ [] := by
  have hmagic : holderMagic ≠ [] := by decide
  rw [bytes_of_encode h, HolderFrame.bytes]
  simp only [List.append_assoc, ne_eq, List.append_eq_nil_iff, hmagic, false_and, not_false_eq_true]

theorem queueFrame_accepted {frame : HolderFrame} {bytes : Bytes} {q : ByteQueue}
    (h : HasOutput fd q w) (haccepts : AcceptsOutput fd frame bytes w) :
    HasOutput fd (q.push bytes) (queueFrame fd frame w).2 := by
  obtain ⟨c, hc, hencode, hroom⟩ := haccepts
  obtain ⟨_, hc', rfl⟩ := h.found
  cases hc.symm.trans hc'
  have hread : server w = (.ok w.server, w) := rfl
  have hqueue : c.queue frame = .ok { c with output := c.output.push bytes } := by
    unfold Connection.queue
    rw [hencode]
    exact bind_eq_ok.mpr ⟨bytes, rfl, bind_eq_ok.mpr
      ⟨(), rejectIf_eq_ok.mpr (Nat.not_lt.mpr hroom), rfl⟩⟩
  refine ⟨{ c with output := c.output.push bytes }, ?_, rfl⟩
  unfold queueFrame
  rw [bind_ok hread, hc]
  dsimp only
  rw [hqueue]
  change (reactorModify fd true { w with server := { w.server with
    connections := w.server.connections.alter fd (·.map fun _ =>
      { c with output := c.output.push bytes }) } }).2.server.connections[fd]? = _
  rw [reactorModify_server]
  change (w.server.connections.alter fd _)[fd]? = _
  rw [NatMap.get_alter, if_pos rfl, hc]
  rfl

/-- What is refused changes nothing. -/
theorem queueFrame_refused {frame : HolderFrame} (h : ∀ bytes, ¬ AcceptsOutput fd frame bytes w) :
    ∃ e, queueFrame fd frame w = (.err e, w) := by
  have hread : server w = (.ok w.server, w) := rfl
  unfold queueFrame
  rw [bind_ok hread]
  cases hc : w.server.connections[fd]? with
  | none => exact ⟨_, rfl⟩
  | some c =>
    have hqueue : ∃ e, c.queue frame = .error e := by
      unfold Connection.queue
      cases hencode : encodeFrameWithMinor frame c.protocolMinor with
      | error e => exact ⟨_, rfl⟩
      | ok bytes =>
        have hfull : c.output.bytes + bytes.length > maxPendingOutput :=
          Nat.lt_of_not_le fun hroom => h bytes ⟨c, hc, hencode, hroom⟩
        refine ⟨.invalidArgument "holder client output queue limit exceeded", ?_⟩
        change (rejectIf _ _ >>= _ : Except PersistError Connection) = _
        rw [rejectIf, if_pos hfull]
        rfl
    obtain ⟨e, hqueue⟩ := hqueue
    dsimp only
    rw [hqueue]
    exact ⟨_, rfl⟩

end output

section flushes

variable {q : ByteQueue} {accepted : List Bytes} {written : Bytes} {limit : Nat}

/-- What a queue has in a run: it carries what was accepted, within its limit. -/
def QueueHolds (limit : Nat) (q : ByteQueue) (accepted : List Bytes) (written : Bytes) : Prop :=
  q.Carried accepted written ∧ q.bytes ≤ limit

theorem queueHolds_empty : QueueHolds limit {} [] [] := ⟨.empty, Nat.zero_le _⟩

theorem QueueHolds.push (h : QueueHolds limit q accepted written) {chunk : Bytes} (hne : chunk ≠ [])
    (hroom : q.bytes + chunk.length ≤ limit) :
    QueueHolds limit (q.push chunk) (accepted ++ [chunk]) written :=
  ⟨h.1.push hne, hroom⟩

theorem QueueHolds.flushed (h : QueueHolds limit q accepted written) (w : World) :
    QueueHolds limit (w.flushed q).2 accepted (written ++ (w.flushed q).1) := by
  have hcarried : (w.flushed q).2.Carried accepted (written ++ (w.flushed q).1) :=
    h.1.flushed Turn.taken_le _ _
  have hold := congrArg List.length h.1.written_pending
  have hnew := congrArg List.length hcarried.written_pending
  have hbytes := h.1.bytes_eq
  have hbytes' := hcarried.bytes_eq
  have hlimit := h.2
  simp only [List.length_append] at hold hnew
  exact ⟨hcarried, by omega⟩

theorem QueueHolds.written_prefix (h : QueueHolds limit q accepted written) :
    written <+: accepted.flatten := ⟨q.pending, h.1.written_pending⟩

/-- A flush whose first write goes through writes one more byte, while there are any. -/
theorem QueueHolds.progress (h : QueueHolds limit q accepted written) (w : World)
    (hwrites : (w.script.headD {}).Writes) :
    min accepted.flatten.length (written.length + 1) ≤ (written ++ (w.flushed q).1).length := by
  have hpending := congrArg List.length h.1.written_pending
  rw [List.length_append] at hpending
  rw [List.length_append]
  by_cases hempty : q.pending = []
  · rw [hempty, List.length_nil] at hpending
    omega
  · have hne : (w.flushed q).1 ≠ [] :=
      ByteQueue.flushed_progress _ h.1 hempty fun _ hfront => hwrites.taken_ne hfront
    have hpos := List.length_pos_iff.mpr hne
    omega

/-- All is written when as much is written as was accepted. -/
theorem QueueHolds.complete (h : QueueHolds limit q accepted written)
    (hlength : accepted.flatten.length ≤ written.length) : written = accepted.flatten :=
  h.written_prefix.eq_of_length (Nat.le_antisymm h.written_prefix.length_le hlength)

end flushes

section runs

/-- The life of the input queue of a session: the payloads that were accepted and the bytes that
the terminal took. Between the calls everything but the queue may change. -/
inductive InputRun (s : SessionId) : List Bytes → Bytes → World → Prop
  | opened {w : World} {terminal} (h : HasInput s {} terminal w) : InputRun s [] [] w
  | between {accepted written w w' q terminal terminal'} (h : InputRun s accepted written w)
      (hq : HasInput s q terminal w) (hq' : HasInput s q terminal' w') :
      InputRun s accepted written w'
  | queued {accepted written w data} (h : InputRun s accepted written w)
      (haccepts : AcceptsInput s data w) :
      InputRun s (accepted ++ [data]) (written ++ sentInput s (enqueued s data w))
        (queueInput s data w).2
  | refused {accepted written w data} (h : InputRun s accepted written w)
      (hrefused : ¬ AcceptsInput s data w) : InputRun s accepted written (queueInput s data w).2
  | flushed {accepted written w} (h : InputRun s accepted written w) :
      InputRun s accepted (written ++ sentInput s w) (flushInput s w).2

/-- The life of the output queue of a connection: the encoded frames that were accepted and the
bytes that the peer took. -/
inductive OutputRun (fd : Fd) : List Bytes → Bytes → World → Prop
  | opened {w : World} (h : HasOutput fd {} w) : OutputRun fd [] [] w
  | between {accepted written w w' q} (h : OutputRun fd accepted written w)
      (hq : HasOutput fd q w) (hq' : HasOutput fd q w') : OutputRun fd accepted written w'
  | queued {accepted written w frame bytes} (h : OutputRun fd accepted written w)
      (haccepts : AcceptsOutput fd frame bytes w) :
      OutputRun fd (accepted ++ [bytes]) written (queueFrame fd frame w).2
  | refused {accepted written w frame} (h : OutputRun fd accepted written w)
      (hrefused : ∀ bytes, ¬ AcceptsOutput fd frame bytes w) :
      OutputRun fd accepted written (queueFrame fd frame w).2
  | flushed {accepted written w} (h : OutputRun fd accepted written w) :
      OutputRun fd accepted (written ++ sentOutput fd w) (flush fd w).2

variable {s : SessionId} {fd : Fd} {accepted : List Bytes} {written : Bytes} {w w' : World}

theorem QueueHolds.flushInput {q : ByteQueue} {terminal : Option PtySession} {limit : Nat}
    (h : QueueHolds limit q accepted written) (hq : HasInput s q terminal w) :
    ∃ q', HasInput s q' terminal (flushInput s w).2 ∧
      QueueHolds limit q' accepted (written ++ sentInput s w) := by
  obtain ⟨-, hleft, hsent⟩ := flushInput_flushed hq
  rw [hsent]
  cases terminal with
  | none =>
    refine ⟨q, hleft, ?_⟩
    rw [Option.isSome_none, if_neg Bool.false_ne_true, List.append_nil]
    exact h
  | some pty => exact ⟨_, hleft, h.flushed w⟩

theorem InputRun.holds (h : InputRun s accepted written w) :
    ∃ q terminal, HasInput s q terminal w ∧ QueueHolds maxPendingInput q accepted written := by
  induction h with
  | opened h => exact ⟨_, _, h, queueHolds_empty⟩
  | between _ hq hq' ih =>
    obtain ⟨q, terminal, hfound, hholds⟩ := ih
    obtain ⟨session, hsession, rfl, -⟩ := hfound.found
    obtain ⟨session', hsession', rfl, -⟩ := hq.found
    cases hsession.symm.trans hsession'
    exact ⟨_, _, hq', hholds⟩
  | queued _ haccepts ih =>
    obtain ⟨q, terminal, hfound, hholds⟩ := ih
    obtain ⟨session, hsession, -, hdata, hroom⟩ := id haccepts
    obtain ⟨session', hsession', rfl, -⟩ := hfound.found
    cases hsession.symm.trans hsession'
    obtain ⟨q', hq', hholds'⟩ := (hholds.push hdata hroom).flushInput (enqueued_input hfound)
    rw [queueInput_accepted haccepts]
    exact ⟨q', terminal, hq', hholds'⟩
  | refused _ hrefused ih =>
    obtain ⟨message, hsame⟩ := queueInput_refused hrefused
    rw [hsame]
    exact ih
  | flushed _ ih =>
    obtain ⟨q, terminal, hfound, hholds⟩ := ih
    obtain ⟨q', hq', hholds'⟩ := hholds.flushInput hfound
    exact ⟨q', terminal, hq', hholds'⟩

theorem OutputRun.holds (h : OutputRun fd accepted written w) :
    ∃ q, HasOutput fd q w ∧ QueueHolds maxPendingOutput q accepted written := by
  induction h with
  | opened h => exact ⟨_, h, queueHolds_empty⟩
  | between _ hq hq' ih =>
    obtain ⟨q, hfound, hholds⟩ := ih
    obtain ⟨c, hc, rfl⟩ := hfound.found
    obtain ⟨c', hc', rfl⟩ := hq.found
    cases hc.symm.trans hc'
    exact ⟨_, hq', hholds⟩
  | queued _ haccepts ih =>
    obtain ⟨q, hfound, hholds⟩ := ih
    obtain ⟨c, hc, hencode, hroom⟩ := id haccepts
    obtain ⟨c', hc', rfl⟩ := hfound.found
    cases hc.symm.trans hc'
    exact ⟨_, queueFrame_accepted hfound haccepts,
      hholds.push (encodeFrame_ne_nil hencode) hroom⟩
  | refused _ hrefused ih =>
    obtain ⟨e, hsame⟩ := queueFrame_refused hrefused
    rw [hsame]
    exact ih
  | flushed _ ih =>
    obtain ⟨q, hfound, hholds⟩ := ih
    obtain ⟨-, hleft, hsent⟩ := flush_flushed hfound
    rw [hsent]
    exact ⟨_, hleft, hholds.flushed _⟩

/-- Flushes into an open terminal, each with a first write that goes through. -/
inductive InputFlushes (s : SessionId) (first : World) : Nat → Bytes → World → Prop
  | none : InputFlushes s first 0 [] first
  | more {n sent w' w'' q terminal pty} (h : InputFlushes s first n sent w')
      (hq : HasInput s q terminal w') (hq' : HasInput s q (some pty) w'')
      (hwrites : (w''.script.headD {}).Writes) :
      InputFlushes s first (n + 1) (sent ++ sentInput s w'') (flushInput s w'').2

inductive OutputFlushes (fd : Fd) (first : World) : Nat → Bytes → World → Prop
  | none : OutputFlushes fd first 0 [] first
  | more {n sent w' w'' q} (h : OutputFlushes fd first n sent w') (hq : HasOutput fd q w')
      (hq' : HasOutput fd q w'') (hwrites : (w''.script.headD {}).Writes) :
      OutputFlushes fd first (n + 1) (sent ++ sentOutput fd w'') (flush fd w'').2

theorem InputFlushes.run {n : Nat} {sent : Bytes} (h : InputFlushes s w n sent w')
    (hrun : InputRun s accepted written w) : InputRun s accepted (written ++ sent) w' ∧
      min accepted.flatten.length (written.length + n) ≤ (written ++ sent).length := by
  induction h with
  | none =>
    rw [List.append_nil]
    exact ⟨hrun, Nat.min_le_right _ _⟩
  | more _ hq hq' hwrites ih =>
    obtain ⟨hrun, hlength⟩ := ih
    have hbefore := hrun.between hq hq'
    obtain ⟨q, terminal, hfound, hholds⟩ := hbefore.holds
    obtain ⟨session, hsession, rfl, rfl⟩ := hfound.found
    obtain ⟨session', hsession', -, hpty⟩ := hq'.found
    cases hsession.symm.trans hsession'
    rw [← List.append_assoc]
    refine ⟨hbefore.flushed, ?_⟩
    obtain ⟨-, -, hsent⟩ := flushInput_flushed hfound
    have hmore := hholds.progress _ hwrites
    rw [hsent, hpty, Option.isSome_some, if_pos rfl]
    omega

theorem OutputFlushes.run {n : Nat} {sent : Bytes} (h : OutputFlushes fd w n sent w')
    (hrun : OutputRun fd accepted written w) : OutputRun fd accepted (written ++ sent) w' ∧
      min accepted.flatten.length (written.length + n) ≤ (written ++ sent).length := by
  induction h with
  | none =>
    rw [List.append_nil]
    exact ⟨hrun, Nat.min_le_right _ _⟩
  | more _ hq hq' hwrites ih =>
    obtain ⟨hrun, hlength⟩ := ih
    have hbefore := hrun.between hq hq'
    obtain ⟨q, hfound, hholds⟩ := hbefore.holds
    rw [← List.append_assoc]
    refine ⟨hbefore.flushed, ?_⟩
    obtain ⟨-, -, hsent⟩ := flush_flushed hfound
    have hmore := hholds.progress _ hwrites
    rw [hsent]
    omega

end runs

end Holder

end PersistShell

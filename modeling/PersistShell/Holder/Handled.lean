import PersistShell.Holder.Moves

/-! The parts of the handlers that leave the descriptors of the holder alone, besides those that
are disconnected. Whatever is closed under steady moves and such losses survives them. -/

namespace PersistShell
namespace Holder
open Program

variable [SerdeJson] {seats : Fd → Prop} {J : World → Prop} {α : Type} {fd : Fd} {s : SessionId}
  {frame : HolderFrame} {minor : Nat}

omit [SerdeJson] in
/-- A frame that is queued changes nothing else about its connection. -/
theorem Connection.face_queue {c c' : Connection} (hq : c.queue frame = .ok c') :
    c'.role = c.role ∧ c'.peer = c.peer := by
  obtain ⟨bytes, -, hq⟩ := bind_eq_ok.mp hq
  obtain ⟨-, -, hq⟩ := bind_eq_ok.mp hq
  cases hq
  exact ⟨rfl, rfl⟩

section closed

variable (hJ : Closed seats J)
include hJ

theorem Closed.leaves_disconnect (hfd : seats fd) : Leaves J (disconnect fd) :=
  fun _ hw => hJ.lose hfd hw

theorem Closed.leaves_epollControl (writable : Bool) : Leaves J (epollControl fd writable) :=
  Leaves.bind (hJ.leaves_control _) fun _ =>
    hJ.leaves_update (fun w => .watched w _) fun _ => .refl _

theorem Closed.leaves_reactorModify (writable : Bool) : Leaves J (reactorModify fd writable) :=
  Leaves.bind leaves_server fun _ => Leaves.bind (Leaves.reject _ _) fun _ =>
    hJ.leaves_epollControl writable

theorem Closed.leaves_queueFrame : Leaves J (queueFrame fd frame) := by
  intro w hw
  refine Within.leaves (P := J) (Q := fun _ => J) ?_ (fun _ _ => id) hw
  refine Within.bind at_server fun h => ?_
  cases hc : h.connections[fd]? with
  | none => exact Within.fail fun _ hw => hw.1
  | some c =>
    refine Within.bind (Within.lift (Q := fun c' w => At J h w ∧ c.queue frame = .ok c')
      (fun c' hq w hw => ⟨hw, hq⟩) fun w hw => hw.1) fun c' => ?_
    refine Within.bind (Q := fun _ => J) (Within.update ?_) fun _ =>
      .of_leaves (hJ.leaves_reactorModify true) fun _ => id
    rintro w ⟨⟨hw, rfl⟩, hq⟩
    refine hJ.move (.connection fun found hfound => ?_) (.connection _ fd _) hw
    rw [hc] at hfound
    cases hfound
    exact Connection.face_queue hq

theorem Closed.leaves_queueOrDisconnect (hfd : seats fd) (n : Option Note) :
    Leaves J (queueOrDisconnect fd frame n) := by
  refine Leaves.bind (Leaves.attempt hJ.leaves_queueFrame) fun r => ?_
  cases r with
  | ok u => exact Leaves.forEach (fun n => hJ.leaves_note n) _
  | error e => exact hJ.leaves_disconnect hfd

omit [SerdeJson] hJ in
theorem leaves_eventFrame (messageType : HolderMessageType) (payload : Bytes) :
    Leaves J (eventFrame messageType payload) :=
  Leaves.bind (Leaves.bind leaves_server fun _ => Leaves.pure _) fun _ => Leaves.pure _

theorem Closed.leaves_sendControl : Leaves J (sendControl frame) := by
  refine Leaves.read_bind fun w hw => ?_
  cases hc : w.server.controller with
  | none => exact Leaves.pure _
  | some controller => exact hJ.leaves_queueOrDisconnect (hJ.controller hw hc) _

theorem Closed.leaves_respond {kind : HolderMessageType} {payload : Bytes} :
    Leaves J (respond fd frame kind payload) :=
  Leaves.bind (Leaves.bind leaves_server fun _ => Leaves.pure _) fun _ => hJ.leaves_queueFrame

theorem Closed.leaves_operationResponse {kind : HolderMessageType} {response : OperationResponse} :
    Leaves J (operationResponse fd frame kind response) :=
  Leaves.bind (leaves_protocol _ _) fun _ => hJ.leaves_respond

theorem Closed.leaves_detachConnection : Leaves J (detachConnection fd) := by
  refine Leaves.bind leaves_server fun h => ?_
  refine Leaves.bind (hJ.leaves_modifyConnection fun _ => ⟨rfl, rfl⟩) fun _ =>
    Leaves.bind (hJ.leaves_note _) fun _ => ?_
  rcases h.connections[fd]?.bind Connection.attachedSession with _ | s
  · exact Leaves.pure _
  · dsimp only
    split
    · exact hJ.leaves_update (fun w => .writers w _) fun w => .release _ s
    · exact Leaves.pure _

theorem Closed.leaves_releaseWriter : Leaves J (releaseWriter s) := by
  refine Leaves.read_bind fun w hw => ?_
  cases hwriter : w.server.writers[s]? with
  | none => exact Leaves.pure _
  | some fd =>
    refine Leaves.bind (hJ.leaves_update (fun w => .writers w _) fun w => .release _ s) fun _ =>
      Leaves.bind (hJ.leaves_note _) fun _ => ?_
    exact Leaves.bind (leaves_eventFrame _ _) fun _ =>
      hJ.leaves_queueOrDisconnect (hJ.writer hw hwriter) _

theorem Closed.leaves_detachSession : Leaves J (detachSession s) := by
  refine Leaves.bind leaves_server fun h => Leaves.bind (hJ.leaves_update
    (fun w => .unattached w s) fun w => .unattach _ s) fun _ => ?_
  exact Leaves.forEach (fun _ => hJ.leaves_note _) _

/-- A controller that is gone makes room for a new one. -/
theorem Closed.leaves_dropClosedController : Leaves J dropClosedController := by
  refine Leaves.read_bind fun w hw => ?_
  cases hc : w.server.controller with
  | none => exact Leaves.pure _
  | some controller =>
    dsimp only
    split
    · refine Leaves.bind hJ.leaves_call fun turn => ?_
      split
      · exact hJ.leaves_disconnect (hJ.controller hw hc)
      · exact Leaves.pure _
    · exact Leaves.pure _

theorem Closed.leaves_handleInventory : Leaves J (handleInventory fd frame) := by
  refine Leaves.bind (leaves_protocol _ _) fun request => Leaves.bind leaves_server fun h => ?_
  exact Leaves.bind (leaves_protocol _ _) fun payload => hJ.leaves_respond

theorem Closed.leaves_handleClose : Leaves J (handleClose fd frame) :=
  Leaves.bind (leaves_protocol _ _) fun _ => Leaves.bind hJ.leaves_close fun _ => hJ.leaves_operationResponse

theorem Closed.leaves_handleKill : Leaves J (handleKill fd frame) :=
  Leaves.bind (leaves_protocol _ _) fun _ => Leaves.bind hJ.leaves_kill fun _ => hJ.leaves_operationResponse

theorem Closed.leaves_handleRetireExited : Leaves J (handleRetireExited fd frame) :=
  Leaves.bind (leaves_protocol _ _) fun _ => Leaves.bind hJ.leaves_retireExited fun _ =>
    hJ.leaves_operationResponse

theorem Closed.leaves_handleShutdownAll : Leaves J (handleShutdownAll fd frame) :=
  Leaves.bind hJ.leaves_respond fun _ =>
    hJ.leaves_update (fun w => .shutdown w _) fun _ => .shutdown _ _

theorem Closed.leaves_handleGetExitContext :
    Leaves J (handleGetExitContext fd minor frame) := by
  refine Leaves.bind (leaves_protocol _ _) fun request => Leaves.bind leaves_server fun h => ?_
  exact Leaves.bind (leaves_protocol _ _) fun payload => hJ.leaves_respond

omit [SerdeJson] hJ in
theorem leaves_requireWriter : Leaves J (requireWriter fd) := by
  refine Leaves.bind leaves_connection fun c => ?_
  rcases c.attachedSession with _ | s
  · exact Leaves.fail _
  · exact Leaves.bind leaves_server fun _ => Leaves.bind (Leaves.reject _ _) fun _ => Leaves.pure _

theorem Closed.leaves_handleInput : Leaves J (handleInput fd frame) := by
  refine Leaves.bind leaves_requireWriter fun s => Leaves.bind (hJ.leaves_note _) fun _ => ?_
  refine Leaves.bind (hJ.leaves_queueInput _) fun pending => Leaves.bind leaves_server fun h => ?_
  cases h.runtime.ptyFd s with
  | none => exact Leaves.pure _
  | some ptyFd => exact hJ.leaves_reactorModify _

theorem Closed.leaves_handleResize : Leaves J (handleResize fd frame) :=
  Leaves.bind leaves_requireWriter fun _ => Leaves.bind (leaves_protocol _ _) fun _ =>
    Leaves.bind (hJ.leaves_note _) fun _ => hJ.leaves_resize

theorem Closed.leaves_handleSignalFrame : Leaves J (handleSignalFrame fd frame) :=
  Leaves.bind leaves_requireWriter fun _ => Leaves.bind (leaves_protocol _ _) fun _ =>
    Leaves.bind (hJ.leaves_note _) fun _ => hJ.leaves_signal

/-- The writer before was one of the connections. -/
theorem Closed.within_claimWriter (hfd : seats fd) (mode : HolderAttachMode) :
    Within J (claimWriter fd s mode)
      (fun previous w => J w ∧ ∀ fd, previous = some fd → seats fd) J := by
  refine Within.read_bind fun w hw => ?_
  have hprevious : ∀ fd, w.server.writers[s]? = some fd → seats fd := fun fd => hJ.writer hw
  refine Within.bind (Q := fun _ => J)
    ((Within.of_leaves (hJ.leaves_note _) fun _ => id).pre fun _ hs => hs ▸ hw) fun _ => ?_
  split
  · refine Within.bind (Within.of_leaves (hJ.leaves_update (fun w => .writers w _) fun w =>
      .claim _ s hfd) fun _ => id) fun _ => ?_
    exact Within.pure fun _ hw => ⟨hw, hprevious⟩
  · exact Within.pure fun _ hw => ⟨hw, nofun⟩

theorem Closed.leaves_revokeWriter {previous : Option Fd}
    (hprevious : ∀ fd, previous = some fd → seats fd) : Leaves J (revokeWriter previous s) := by
  cases previous with
  | none => exact Leaves.pure _
  | some previous =>
    exact Leaves.bind (leaves_eventFrame _ _) fun _ =>
      hJ.leaves_queueOrDisconnect (hprevious previous rfl) _

theorem Closed.leaves_attach (hfd : seats fd) : Leaves J (attach fd frame) := by
  refine Leaves.bind (leaves_protocol _ _) fun request => Leaves.bind leaves_server fun h => ?_
  split
  · exact hJ.leaves_operationResponse
  · refine Leaves.bind hJ.leaves_detachConnection fun _ => ?_
    refine Leaves.bind_within (hJ.within_claimWriter hfd _) fun previous hprevious => ?_
    refine Leaves.bind (hJ.leaves_revokeWriter hprevious) fun _ => ?_
    refine Leaves.bind (hJ.leaves_updateConnection fun _ => ⟨rfl, rfl⟩) fun _ =>
      Leaves.bind hJ.leaves_operationResponse fun _ => Leaves.bind leaves_server fun h => ?_
    refine Leaves.bind (Leaves.unwrap _) fun replay => Leaves.bind ?_ fun _ => ?_
    · exact Leaves.forEach (fun chunk => Leaves.bind (leaves_eventFrame _ _) fun _ =>
        hJ.leaves_queueFrame) _
    · split
      · exact Leaves.bind (leaves_eventFrame _ _) fun _ => hJ.leaves_queueFrame
      · exact Leaves.pure _

theorem Closed.leaves_handleData (hfd : seats fd) : Leaves J (handleData fd frame) := by
  unfold handleData
  split
  · exact hJ.leaves_attach hfd
  · split
    · exact hJ.leaves_detachConnection
    · exact Leaves.fail _
  · exact hJ.leaves_handleInput
  · exact hJ.leaves_handleResize
  · exact hJ.leaves_handleSignalFrame
  · exact Leaves.fail _

/-- Whoever is attached to a session is among the connections. -/
theorem Closed.seats_attachedTo {w : World} (hw : J w) :
    ∀ fd ∈ attachedTo w.server s, seats fd := by
  intro fd hfd
  obtain ⟨c, hc⟩ := (NatMap.mem_keys_iff _ _).mp (List.mem_of_mem_filter hfd)
  refine hJ.serves hw ?_
  rw [HolderServer.Serves, hc]
  exact Option.some_ne_none _

theorem Closed.leaves_publishOutput (batch : OutputBatch) : Leaves J (publishOutput batch) := by
  refine Leaves.read_bind fun w hw => Leaves.bind ?_ fun _ => ?_
  · refine Leaves.forEach (fun chunk => ?_) _
    refine Leaves.bind (leaves_eventFrame _ _) fun frame => ?_
    exact Leaves.forEach_mem fun fd hfd => hJ.leaves_queueOrDisconnect (hJ.seats_attachedTo hw fd hfd) _
  · split
    · exact Leaves.bind (leaves_eventFrame _ _) fun _ => hJ.leaves_sendControl
    · exact Leaves.pure _

theorem Closed.leaves_drainAndPublish : Leaves J (drainAndPublish fd) :=
  Leaves.bind hJ.leaves_drainOutput fun _ => hJ.leaves_publishOutput _

theorem Closed.leaves_handlePty (events : Nat) : Leaves J (handlePty fd events) := by
  have hflush : Leaves J (if hasAny events epollOut then do
      let s ← unwrap ((← server).runtime.sessionForPty fd)
      let pending ← flushInput s
      reactorModify fd pending
      else pure () : Holder Unit) := by
    split
    · refine Leaves.bind leaves_server fun h => Leaves.bind (Leaves.unwrap _) fun s => ?_
      exact Leaves.bind hJ.leaves_flushInput fun _ => hJ.leaves_reactorModify _
    · exact Leaves.pure _
  unfold handlePty
  dsimp only
  split
  · exact Leaves.bind hJ.leaves_drainOutput fun _ => Leaves.bind (hJ.leaves_publishOutput _) fun _ => hflush
  · exact hflush

theorem Closed.leaves_handleLogFailures : Leaves J handleLogFailures := by
  refine Leaves.bind hJ.leaves_call fun turn => Leaves.forEach (fun failure => ?_) _
  refine Leaves.bind hJ.leaves_degradeLog fun _ => ?_
  exact Leaves.bind (leaves_eventFrame _ _) fun _ => hJ.leaves_sendControl

theorem Closed.leaves_announceToController (legacyPayload v2Payload : Bytes) :
    Leaves J (announceToController s legacyPayload v2Payload) := by
  refine Leaves.read_bind fun w hw => ?_
  cases hc : w.server.controller with
  | none => exact Leaves.pure _
  | some controller =>
    exact Leaves.bind (leaves_eventFrame _ _) fun _ =>
      hJ.leaves_queueOrDisconnect (hJ.controller hw hc) _

/-- An exit is announced once the token of its terminal is gone. -/
theorem Closed.within_announceExit {P : World → Prop} {exited : ExitedSession}
    (hremove : Within P (reactorRemove exited.ptyFd) (fun _ => J) J) :
    Within P (announceExit exited) (fun _ => J) J := by
  refine Within.bind hremove fun _ => Within.of_leaves (J := J) ?_ fun _ => id
  refine Leaves.bind hJ.leaves_releaseWriter fun _ => ?_
  refine Leaves.bind (leaves_protocol _ _) fun legacy => Leaves.bind (leaves_protocol _ _) fun v2 => ?_
  refine Leaves.read_bind fun w hw => Leaves.bind ?_ fun _ => ?_
  · refine Leaves.forEach_mem fun target htarget => Leaves.bind leaves_connection fun c => ?_
    exact Leaves.bind (leaves_eventFrame _ _) fun _ =>
      hJ.leaves_queueOrDisconnect (hJ.seats_attachedTo hw target htarget) _
  · split
    · exact Leaves.bind hJ.leaves_detachSession fun _ => hJ.leaves_announceToController _ _
    · exact hJ.leaves_announceToController _ _

theorem Closed.leaves_readFrames : Leaves J (readFrames fd) := by
  have hloop : ∀ fuel, Leaves J (readLoop fd fuel) := by
    intro fuel
    induction fuel with
    | zero => exact Leaves.abort
    | succ fuel ih =>
      refine Leaves.bind hJ.leaves_call fun turn => ?_
      rcases turn.fault with _ | source
      · rcases turn.data with _ | _ | ⟨b, bytes⟩
        · exact Leaves.pure _
        · exact Leaves.pure _
        · intro w hw
          refine Within.leaves (P := J) (Q := fun _ => J) ?_ (fun _ _ => id) hw
          refine Within.bind (Within.bind at_server fun h => Within.unwrap (Q := fun c w =>
            J w ∧ w.server.connections[fd]? = some c) ?_ fun _ hw => hw.1) fun c => ?_
          · rintro c hc w ⟨hw, rfl⟩
            exact ⟨hw, hc⟩
          refine Within.bind (Within.lift (Q := fun r w => (J w ∧
            w.server.connections[fd]? = some c) ∧ c.feed _ = .ok r) (fun r hr w hw => ⟨hw, hr⟩)
            fun w hw => hw.1) fun r => ?_
          refine Within.bind (Q := fun _ => J) (Within.update ?_) fun _ =>
            .of_leaves (Leaves.bind ih fun _ => Leaves.pure _) fun _ => id
          rintro w ⟨⟨hw, hc⟩, hr⟩
          refine hJ.move (.connection fun found hfound => ?_) (.connection _ fd _) hw
          rw [hc] at hfound
          cases hfound
          obtain ⟨a, -, hr⟩ := bind_eq_ok.mp hr
          obtain ⟨p, -, hr⟩ := bind_eq_ok.mp hr
          cases hr
          exact ⟨rfl, rfl⟩
      · cases source with
        | wouldBlock => exact Leaves.pure _
        | _ => exact hJ.leaves_failIo _ _
  exact Leaves.bind leaves_connection fun _ => Leaves.bind (Leaves.read _) fun _ => hloop _

theorem Closed.leaves_flush : Leaves J (flush fd) := by
  have hloop : ∀ fuel, Leaves J (flushLoop fd fuel) := by
    intro fuel
    induction fuel with
    | zero => exact Leaves.abort
    | succ fuel ih =>
      refine Leaves.bind leaves_connection fun c => ?_
      rcases c.output.front with _ | front
      · exact Leaves.pure _
      · refine Leaves.bind hJ.leaves_call fun turn => ?_
        rcases turn.fault with _ | source
        · dsimp only
          generalize min (turn.count.getD front.length) front.length = count
          cases count with
          | zero => exact Leaves.pure _
          | succ count =>
            exact Leaves.bind (hJ.leaves_modifyConnection fun _ => ⟨rfl, rfl⟩) fun _ => ih
        · cases source with
          | wouldBlock => exact Leaves.pure _
          | _ => exact hJ.leaves_failIo _ _
  refine Leaves.bind leaves_connection fun c => Leaves.bind (hloop _) fun more => ?_
  split
  · exact Leaves.bind leaves_connection fun _ => Leaves.pure _
  · exact Leaves.pure _

theorem Closed.leaves_receiveFrames (events : Nat) : Leaves J (receiveFrames fd events) := by
  unfold receiveFrames
  split
  · exact hJ.leaves_readFrames
  · exact Leaves.pure _

theorem Closed.leaves_flushConnection (hfd : seats fd) (events : Nat) :
    Leaves J (flushConnection fd events) := by
  unfold flushConnection
  split
  · refine Leaves.bind hJ.leaves_flush fun more => ?_
    split
    · exact Leaves.bind (hJ.leaves_disconnect hfd) fun _ => Leaves.pure _
    · refine Leaves.bind leaves_server fun h => ?_
      cases h.connections[fd]? with
      | none => exact Leaves.pure _
      | some c => exact hJ.leaves_reactorModify _
  · refine Leaves.bind leaves_server fun h => ?_
    cases h.connections[fd]? with
    | none => exact Leaves.pure _
    | some c => exact hJ.leaves_reactorModify _

theorem Closed.leaves_reactorWait : Leaves J reactorWait := by
  have hloop : ∀ fuel, Leaves J (waitLoop fuel) := by
    intro fuel
    induction fuel with
    | zero => exact Leaves.abort
    | succ fuel ih =>
      refine Leaves.bind hJ.leaves_call fun turn => ?_
      split
      · exact Leaves.pure _
      · exact ih
      · exact Leaves.fail _
  exact Leaves.bind (Leaves.read _) fun _ => hloop _

end closed

end Holder

end PersistShell

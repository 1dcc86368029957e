import PersistShell.Holder.Arrivals
import PersistShell.Holder.Handled

/-! Every handler, and with it every step of the holder, is a sequence of moves. -/

namespace PersistShell

/-- Connections went away, and nothing else that matters here happened. -/
structure Shrunk (w w' : World) : Prop where
  runtime : w'.server.runtime = w.server.runtime
  role : ∀ fd, w'.role fd = w.role fd ∨ w'.role fd = none

/-- The roles and the controller are as they were. -/
structure SameSeats (w w' : World) : Prop where
  role : ∀ fd, w'.role fd = w.role fd
  controller : w'.server.controller = w.server.controller

theorem Shrunk.of_server {w w' : World} (h : w'.server = w.server) : Shrunk w w' :=
  ⟨by rw [h], fun fd => .inl (by rw [World.role, World.role, h])⟩

theorem SameSeats.of_server {w w' : World} (h : w'.server = w.server) : SameSeats w w' :=
  ⟨fun fd => by rw [World.role, World.role, h], by rw [h]⟩

namespace Holder
open Program

variable {α : Type} {fd : Fd} {s : SessionId} {frame : HolderFrame} {minor : Nat}

section disconnects

variable {J : World → Prop} (hJ : ∀ w w', Shrunk w w' → J w → J w')
include hJ

theorem leaves_reactorRemove : Leaves J (reactorRemove fd) := by
  have hsame : ∀ {w w' : World}, w'.server.runtime = w.server.runtime →
      w'.server.connections = w.server.connections → Shrunk w w' := fun hruntime hc =>
    ⟨hruntime, fun fd => .inl (by rw [World.role, World.role, hc])⟩
  refine Leaves.bind (Leaves.update fun w hw => hJ w _ (hsame rfl rfl) hw) fun _ => ?_
  have hcall : Leaves J call := by
    intro w hw
    obtain ⟨turn, -, hcalled⟩ := called_call w
    exact hJ _ _ (.of_server hcalled.server) hw
  exact Leaves.bind hcall fun _ => Leaves.update fun w hw => hJ w _ (hsame rfl rfl) hw

theorem leaves_detachConnection : Leaves J (detachConnection fd) := by
  refine Leaves.bind (Leaves.read _) fun h => ?_
  have hdetach : Leaves J (modifyConnection fd fun c => { c with attachedSession := none }) := by
    refine Leaves.update fun w hw => hJ w _ ⟨rfl, fun fd' => .inl ?_⟩ hw
    exact w.role_alter fd fd' (fun c => { c with attachedSession := none }) fun _ => rfl
  refine Leaves.bind hdetach fun _ => Leaves.bind ?_ fun _ => ?_
  · exact Leaves.update fun w hw => hJ w _ (.of_server rfl) hw
  · rcases h.connections[fd]?.bind Connection.attachedSession with _ | s
    · exact Leaves.pure _
    · dsimp only
      split
      · exact Leaves.update fun w hw => hJ w _ ⟨rfl, fun _ => .inl rfl⟩ hw
      · exact Leaves.pure _

theorem leaves_removeConnection : Leaves J (removeConnection fd) := by
  refine Leaves.bind (leaves_reactorRemove hJ) fun _ => ?_
  refine Leaves.bind (leaves_detachConnection hJ) fun _ => Leaves.bind ?_ fun _ => ?_
  · refine Leaves.update fun w hw => hJ w _ ⟨rfl, fun fd' => ?_⟩ hw
    simp only [World.role]
    rw [NatMap.get_erase]
    split
    · exact .inr rfl
    · exact .inl rfl
  · exact Leaves.update fun w hw => hJ w _ (.of_server rfl) hw

/-- A disconnect removes connections and leaves the sessions alone. -/
theorem leaves_disconnect : Leaves J (disconnect fd) := by
  refine Leaves.bind (leaves_removeConnection hJ) fun _ => Leaves.bind (Leaves.read _) fun h => ?_
  split
  · refine Leaves.bind (Leaves.update fun w hw => ?_) fun _ =>
      Leaves.forEach (fun _ => leaves_removeConnection hJ) _
    exact hJ w _ ⟨rfl, fun _ => .inl rfl⟩ hw
  · exact Leaves.pure _

end disconnects

theorem within_protocol {P J : World → Prop} (hJ : ∀ w, P w → J w) (context : String)
    (r : Except HolderProtocolError α) :
    Within P (protocol context r) (fun a w => P w ∧ r = .ok a) J := by
  unfold protocol
  cases r with
  | ok a => exact Within.pure fun _ hw => ⟨hw, rfl⟩
  | error e => exact Within.fail hJ

/-- A connection that has had no handshake, if it is there. -/
def Guest (fd : Fd) (w : World) : Prop := w.role fd = some .pending ∨ w.role fd = none

theorem guest_shrunk {w w' : World} (h : Shrunk w w') (hw : Guest fd w) : Guest fd w' := by
  rcases h.role fd with hrole | hrole
  · rw [Guest, hrole]
    exact hw
  · exact .inr hrole

theorem within_generation (P : World → Prop) {J : World → Prop} :
    Within P generation (fun _ => P) J :=
  Within.bind (Within.read (Q := fun _ => P) fun _ => id) fun _ => Within.pure fun _ => id

/-- A registration leaves the connections alone. -/
theorem leaves_reactorAdd (writable : Bool) {w₁ : World} :
    Leaves (fun w => w.server.connections = w₁.server.connections) (reactorAdd fd writable) := by
  have hcontrol : ∀ operation,
      Leaves (fun w => w.server.connections = w₁.server.connections) (control operation) := by
    intro operation
    refine Leaves.bind ?_ fun turn => ?_
    · intro w hw
      obtain ⟨turn, -, hcalled⟩ := called_call w
      exact (congrArg HolderServer.connections hcalled.server).trans hw
    · cases turn.fault with
      | none => exact Leaves.pure _
      | some source => exact Leaves.fail _
  refine Leaves.bind (Leaves.read _) fun h => Leaves.bind (Leaves.update fun _ => id) fun _ => ?_
  refine Leaves.bind (Leaves.bind (hcontrol _) fun _ => Leaves.update fun _ => id) fun _ => ?_
  exact Leaves.update fun _ => id

variable [SerdeJson] {w₀ : World}

theorem moves_modifyReactor (f : Reactor → Reactor) : Leaves (Moved w₀) (modifyReactor f) :=
  Leaves.update fun w hw => hw.tail (.registered w _)

theorem moves_reactorAdd (writable : Bool) : Leaves (Moved w₀) (reactorAdd fd writable) := by
  refine Leaves.bind leaves_server fun h => Leaves.bind (moves_modifyReactor _) fun _ => ?_
  exact Leaves.bind (closed_moved.leaves_epollControl _) fun _ => moves_modifyReactor _

theorem moves_reactorRemove : Leaves (Moved w₀) (reactorRemove fd) := by
  refine Leaves.bind (moves_modifyReactor _) fun _ => Leaves.bind closed_moved.leaves_call fun _ => ?_
  exact Leaves.update fun w hw => hw.tail (.watched w _)

/-- A predicate that moves keep which leave the roles and the controller alone. -/
def SeatClosed (P : World → Prop) : Prop := ∀ w w', Move w w' → SameSeats w w' → P w → P w'

section seated

variable {P J : World → Prop} (hP : SeatClosed P) (hJ : ∀ w, P w → J w)
include hP

theorem within_call : Within P call (fun _ => P) J :=
  within_called fun _ _ hcalled => hP _ _ (.called hcalled) (.of_server hcalled.server)

include hJ

theorem within_reactorModify (writable : Bool) :
    Within P (reactorModify fd writable) (fun _ => P) J := by
  refine Within.bind (Within.read (Q := fun _ => P) fun _ => id) fun h => ?_
  have hcontrol : ∀ operation, Within P (control operation) (fun _ => P) J := by
    intro operation
    refine Within.bind (within_call hP) fun turn => ?_
    cases turn.fault with
    | none => exact Within.pure fun _ => id
    | some source => exact Within.fail hJ
  refine Within.bind ((Within.reject hJ _ _).post fun _ _ hw => hw.1) fun _ => Within.bind (hcontrol _) fun _ => ?_
  exact Within.update fun w hw => hP w _ (.watched w _) (.of_server rfl) hw

theorem within_queueFrame : Within P (queueFrame fd frame) (fun _ => P) J := by
  refine Within.bind (Within.read (Q := fun h w => P w ∧ w.server = h) fun w hw => ⟨hw, rfl⟩)
    fun h => ?_
  cases hc : h.connections[fd]? with
  | none => exact Within.fail fun w hw => hJ w hw.1
  | some c =>
    refine Within.bind (Within.lift (Q := fun c' w => (P w ∧ w.server = h) ∧
      c.queue frame = .ok c') (fun c' hq w hw => ⟨hw, hq⟩) fun w hw => hJ w hw.1) fun c' => ?_
    refine Within.bind (Q := fun _ => P) (Within.update ?_) fun _ => within_reactorModify hP hJ true
    rintro w ⟨⟨hw, rfl⟩, hq⟩
    have hface : ∀ found, w.server.connections[fd]? = some found →
        c'.role = found.role ∧ c'.peer = found.peer := by
      intro found hfound
      rw [hc] at hfound
      cases hfound
      exact Connection.face_queue hq
    refine hP w _ (.connection hface) ⟨fun fd' => ?_, rfl⟩ hw
    simp only [World.role]
    rw [NatMap.get_alter]
    split
    · rename_i heq
      rw [← heq, hc]
      exact congrArg some (hface c hc).1
    · rfl

end seated

theorem seatClosed_moved : SeatClosed (Moved w₀) := fun _ _ hmove _ hw => hw.tail hmove

section hellos

/-- Where a connection is known to be a guest. -/
def Greets (w₀ : World) (fd : Fd) (w : World) : Prop := Moved w₀ w ∧ Guest fd w

theorem greets_closed : SeatClosed (Greets w₀ fd) := by
  intro w w' hmove hseats hw
  refine ⟨hw.1.tail hmove, ?_⟩
  rw [Guest, hseats.role]
  exact hw.2

theorem greets_moved : ∀ w, Greets w₀ fd w → Moved w₀ w := fun _ hw => hw.1

theorem within_dropClosedController :
    Within (Greets w₀ fd) dropClosedController (fun _ => Greets w₀ fd) (Moved w₀) := by
  refine Within.bind (Within.read (Q := fun _ => Greets w₀ fd) fun _ => id) fun h => ?_
  cases h.controller with
  | none => exact Within.pure fun _ => id
  | some controller =>
    dsimp only
    split
    · refine Within.bind (within_call greets_closed) fun turn => ?_
      split
      · intro w hw
        have hmoved := (closed_moved.leaves_disconnect trivial : Leaves (Moved w₀) (disconnect controller.fd)) w hw.1
        have hguest := @leaves_disconnect controller.fd (Guest fd) (fun _ _ => guest_shrunk) w hw.2
        revert hmoved hguest
        rcases disconnect controller.fd w with ⟨_ | _ | _, w'⟩
        · exact fun hmoved hguest => ⟨hmoved, hguest⟩
        · exact fun hmoved _ => hmoved
        · exact fun hmoved _ => hmoved
      · exact Within.pure fun _ => id
    · exact Within.pure fun _ => id

/-- The guest is there. -/
def Present (w₀ : World) (fd : Fd) (w : World) : Prop := Moved w₀ w ∧ w.role fd = some .pending

theorem present_closed : SeatClosed (Present w₀ fd) := by
  intro w w' hmove hseats hw
  refine ⟨hw.1.tail hmove, ?_⟩
  rw [hseats.role]
  exact hw.2

theorem within_guest :
    Within (Greets w₀ fd) (connection fd) (fun _ => Present w₀ fd) (Moved w₀) := by
  refine Within.bind (Within.read (Q := fun h w => Greets w₀ fd w ∧ w.server = h)
    fun w hw => ⟨hw, rfl⟩) fun h => ?_
  cases hc : h.connections[fd]? with
  | none => exact Within.abort fun w hw => hw.1.1
  | some c =>
    refine Within.pure fun w hw => ⟨hw.1.1, ?_⟩
    obtain ⟨⟨hmoved, hguest⟩, rfl⟩ := hw
    rcases hguest with hpending | hnone
    · exact hpending
    · rw [World.role, hc] at hnone
      cases hnone

/-- The guest is there, and the controller is known. -/
def Seen (w₀ : World) (fd : Fd) (controller : Option Controller) (w : World) : Prop :=
  Present w₀ fd w ∧ w.server.controller = controller

theorem seen_closed {controller : Option Controller} : SeatClosed (Seen w₀ fd controller) := by
  intro w w' hmove hseats hw
  exact ⟨present_closed w w' hmove hseats hw.1, hseats.controller.trans hw.2⟩

theorem seen_moved {controller : Option Controller} :
    ∀ w, Seen w₀ fd controller w → Moved w₀ w := fun _ hw => hw.1.1

theorem within_refuse {controller : Option Controller} :
    Within (Seen w₀ fd controller) (updateConnection fd fun c => { c with closeAfterFlush := true })
      (fun _ => Moved w₀) (Moved w₀) :=
  .of_leaves (closed_moved.leaves_updateConnection fun _ => ⟨rfl, rfl⟩) seen_moved

/-- The connection of a guest that is there can be looked up. -/
theorem connection_of_present {w : World} (hw : Present w₀ fd w) :
    ∃ c, connection fd w = (.ok c, w) := by
  have hrole : w.role fd ≠ none := by
    rw [hw.2]
    nofun
  obtain ⟨c, hc⟩ := exists_of_role hrole
  refine ⟨c, ?_⟩
  change unwrap w.server.connections[fd]? w = _
  rw [hc]
  rfl

theorem moves_handleControlHello :
    Within (Greets w₀ fd) (handleControlHello fd minor frame) (fun _ => Moved w₀) (Moved w₀) := by
  refine Within.bind ((Within.reject greets_moved _ _).post fun _ _ hw => hw.1) fun _ => ?_
  refine Within.bind within_dropClosedController fun _ => ?_
  refine Within.bind ((within_protocol greets_moved _ _).post fun _ _ hw => hw.1) fun hello => ?_
  refine Within.bind within_guest fun c => ?_
  refine Within.bind (Within.read (Q := fun h => Seen w₀ fd h.controller) fun w hw => ⟨hw, rfl⟩)
    fun h => ?_
  refine Within.bind (within_generation (Seen w₀ fd h.controller)) fun generation => ?_
  refine Within.bind (within_queueFrame seen_closed seen_moved) fun _ => ?_
  split
  · rename_i haccepted
    have hfree : h.controller = none := by
      unfold helloStatus at haccepted
      by_contra hbusy
      rw [if_pos (Option.isSome_iff_ne_none.mpr hbusy)] at haccepted
      split at haccepted <;> cases haccepted
    intro w hw
    obtain ⟨c, hc⟩ := connection_of_present hw.1
    have hseat : Move w _ := .seated hello hw.1.2 (hw.2.trans hfree)
    have := (seen_moved w hw).tail hseat
    rw [updateConnection, bind_apply, bind_apply, hc]
    exact this
  · exact within_refuse

theorem moves_handleDataHello :
    Within (Greets w₀ fd) (handleDataHello fd minor frame) (fun _ => Moved w₀) (Moved w₀) := by
  refine Within.bind ((within_protocol greets_moved _ _).post fun _ _ hw => hw.1) fun hello => ?_
  refine Within.bind within_guest fun c => ?_
  refine Within.bind (Within.read (Q := fun h => Seen w₀ fd h.controller) fun w hw => ⟨hw, rfl⟩)
    fun h => ?_
  dsimp only
  cases haccepted : dataHelloAccepted h c.peer hello minor with
  | true =>
    have hcontroller : h.controller.isSome = true := by
      cases hnone : h.controller with
      | none => rw [dataHelloAccepted, hnone] at haccepted; cases haccepted
      | some controller => rfl
    have hminor : Within (Seen w₀ fd h.controller)
        (updateConnection fd fun c => { c with protocolMinor := minor })
        (fun _ => Seen w₀ fd h.controller) (Moved w₀) := by
      intro w hw
      obtain ⟨c, hc⟩ := connection_of_present hw.1
      rw [updateConnection, bind_apply, hc]
      refine seen_closed w _ (.connection fun _ _ => ⟨rfl, rfl⟩) ⟨fun fd' => ?_, rfl⟩ hw
      exact w.role_alter fd fd' (fun c => { c with protocolMinor := minor }) fun _ => rfl
    refine Within.bind hminor fun _ => Within.bind (within_generation _) fun generation => ?_
    refine Within.bind (within_queueFrame seen_closed seen_moved) fun _ => ?_
    intro w hw
    obtain ⟨c, hc⟩ := connection_of_present hw.1
    have hsome : w.server.controller.isSome = true := by
      rw [hw.2]
      exact hcontroller
    have := (seen_moved w hw).tail (.admitted hw.1.2 hsome)
    rw [if_pos rfl, updateConnection, bind_apply, hc]
    exact this
  | false =>
    refine Within.bind (within_generation _) fun generation => ?_
    exact Within.bind (within_queueFrame seen_closed seen_moved) fun _ => within_refuse

theorem moves_handleHello :
    Within (Greets w₀ fd) (handleHello fd minor frame) (fun _ => Moved w₀) (Moved w₀) := by
  unfold handleHello
  split
  · exact moves_handleControlHello
  · exact moves_handleDataHello
  · exact Within.fail greets_moved

end hellos

section requests

theorem moves_handleCapability : Leaves (Moved w₀) (handleCapability fd minor frame) := by
  refine Leaves.bind leaves_connection fun c => Leaves.bind (Leaves.reject _ _) fun _ => ?_
  refine Leaves.bind (leaves_protocol _ _) fun request => Leaves.bind (Leaves.reject _ _) fun _ => ?_
  intro w hw
  refine Within.leaves (Q := fun _ => Moved w₀) ?_ (fun _ _ => id) hw
  refine Within.bind at_server fun h => ?_
  cases hcontroller : h.controller.filter fun controller => controller.fd = fd with
  | none => exact Within.fail fun w hw => hw.1
  | some controller =>
    have hsome := (Option.filter_eq_some_iff.mp hcontroller).1
    refine Within.bind ((Within.reject (fun _ hw => hw.1) _ _).post fun _ _ hw => hw.1) fun _ => ?_
    refine Within.bind (Q := fun _ => Moved w₀) (Within.update ?_) fun _ => ?_
    · rintro w ⟨hmoved, rfl⟩
      exact hmoved.tail (@Move.negotiated _ _ controller { controller with
        protocolMinor := holderProtocolMinor
        capabilities := holderCapabilityEnvironmentContext } hsome rfl)
    · refine .of_leaves (J := Moved w₀) ?_ fun _ => id
      refine Leaves.bind (closed_moved.leaves_updateConnection fun _ => ⟨rfl, rfl⟩) fun _ => ?_
      exact Leaves.bind (Leaves.bind leaves_server fun _ => Leaves.pure _) fun _ => closed_moved.leaves_queueFrame

theorem moves_handleCreate : Leaves (Moved w₀) (handleCreate fd minor frame) := by
  have hdecode : ∀ request, (if minor = holderProtocolMinor then
      decodeCreateRequestV2 frame.payload else decodeCreateRequest frame.payload) = .ok request →
      validateCreate request = .ok () := by
    intro request hdecode
    split at hdecode
    · exact (readCreate_yields true).decode hdecode
    · exact (readCreate_yields false).decode hdecode
  intro w hw
  refine Within.leaves (Q := fun _ => Moved w₀) ?_ (fun _ _ => id) hw
  refine Within.bind (within_protocol (fun _ => id) _ _) fun request w hw => ?_
  refine Within.of_leaves (J := Moved w₀) (P := Moved w₀) ?_ (fun _ => id) w hw.1
  refine Leaves.bind (moves_create (hdecode request hw.2)) fun r => ?_
  rcases r with ⟨response, _ | ptyFd⟩
  · exact closed_moved.leaves_operationResponse
  · exact Leaves.bind (moves_reactorAdd _) fun _ => closed_moved.leaves_operationResponse

theorem moves_handleControl : Leaves (Moved w₀) (handleControl fd minor frame) := by
  unfold handleControl
  split
  · exact moves_handleCapability
  · refine Leaves.bind leaves_connection fun c => Leaves.bind (Leaves.reject _ _) fun _ => ?_
    split
    · exact closed_moved.leaves_handleInventory
    · exact moves_handleCreate
    · exact closed_moved.leaves_handleClose
    · exact closed_moved.leaves_handleKill
    · exact closed_moved.leaves_handleGetExitContext
    · exact closed_moved.leaves_handleRetireExited
    · split
      · exact closed_moved.leaves_handleShutdownAll
      · exact Leaves.fail _
    · exact Leaves.fail _

/-- A frame goes where the role of its connection says. -/
theorem processFrame_run {w : World} {c : Connection} (hc : w.server.connections[fd]? = some c) :
    processFrame fd minor frame w = (match c.role with
      | .pending => handleHello fd minor frame
      | .control => handleControl fd minor frame
      | .data => do
        rejectIf (minor ≠ c.protocolMinor)
          (PersistError.invalidArgument "holder data protocol minor changed")
        handleData fd frame : Holder Unit) w := by
  have hunwrap : (unwrap w.server.connections[fd]? : Holder Connection) w = (.ok c, w) := by
    rw [hc]
    rfl
  exact bind_ok hunwrap

theorem moves_processFrame : Leaves (Moved w₀) (processFrame fd minor frame) := by
  intro w hw
  cases hc : w.server.connections[fd]? with
  | none =>
    have hunwrap : (unwrap w.server.connections[fd]? : Holder Connection) w = (.panic, w) := by
      rw [hc]
      rfl
    have hstays : (processFrame fd minor frame w).2 = w :=
      congrArg Prod.snd (bind_panic hunwrap)
    rw [hstays]
    exact hw
  | some c =>
    rw [processFrame_run hc]
    cases hrole : c.role with
    | pending =>
      refine moves_handleHello.leaves (fun _ _ => id) ⟨hw, .inl ?_⟩
      rw [World.role, hc]
      exact congrArg some hrole
    | control => exact moves_handleControl w hw
    | data => exact Leaves.bind (Leaves.reject _ _) (fun _ => (closed_moved.leaves_handleData trivial)) w hw

end requests

section events

theorem moves_acceptPeer : Leaves (Moved w₀) acceptPeer := by
  refine Leaves.bind closed_moved.leaves_call fun turn => ?_
  split
  · exact Leaves.pure _
  · exact Leaves.pure _
  · exact Leaves.fail _
  · rename_i peer _ _
    refine Leaves.bind leaves_server fun h => Leaves.bind (Leaves.reject _ _) fun _ => ?_
    refine Leaves.bind (closed_moved.leaves_control _) fun _ => ?_
    -- the new descriptor is not among the connections, nor is it when the reactor knows it
    intro w hw
    refine Within.leaves (P := Moved w₀) (Q := fun _ => Moved w₀) ?_ (fun _ _ => id) hw
    refine Within.bind (Within.read (Q := fun fd w => Moved w₀ w ∧
      w.server.connections[fd]? = none) fun w hw => ⟨hw, ?_⟩) fun fd => ?_
    · have hrole := role_of_not_open (w.isOpen_freshFd turn.fd)
      rw [World.role] at hrole
      exact Option.map_eq_none_iff.mp hrole
    · have hadd : Within (fun w => Moved w₀ w ∧ w.server.connections[fd]? = none)
          (reactorAdd fd false)
          (fun _ w => Moved w₀ w ∧ w.server.connections[fd]? = none) (Moved w₀) := by
        intro w hw
        have hmoved := @moves_reactorAdd fd _ w₀ false w hw.1
        have hsame := @leaves_reactorAdd fd false w w rfl
        revert hmoved hsame
        rcases reactorAdd fd false w with ⟨_ | _ | _, w'⟩
        · exact fun hmoved hsame => ⟨hmoved, (congrArg (·[fd]?) hsame).trans hw.2⟩
        · exact fun hmoved _ => hmoved
        · exact fun hmoved _ => hmoved
      refine Within.bind hadd fun _ => Within.bind (Q := fun _ => Moved w₀) (Within.update ?_)
        fun _ => Within.pure fun _ => id
      exact fun w hw => hw.1.tail (.accepted peer hw.2)

theorem moves_acceptConnections : Leaves (Moved w₀) acceptConnections := by
  refine Leaves.bind (Leaves.read _) fun script => ?_
  have hloop : ∀ fuel, Leaves (Moved w₀) (acceptLoop fuel) := by
    intro fuel
    induction fuel with
    | zero => exact Leaves.abort
    | succ fuel ih =>
      refine Leaves.bind moves_acceptPeer fun r => ?_
      cases r with
      | none => exact Leaves.pure _
      | some fd => exact ih
  exact hloop _

theorem moves_announceExit (exited : ExitedSession) : Leaves (Moved w₀) (announceExit exited) := by
  have hremove : Within (Moved w₀) (reactorRemove exited.ptyFd) (fun _ => Moved w₀) (Moved w₀) :=
    .of_leaves moves_reactorRemove fun _ => id
  exact fun _ hw => (closed_moved.within_announceExit hremove).leaves (fun _ _ => id) hw

theorem moves_handleChild : Leaves (Moved w₀) handleChild := by
  refine Leaves.bind leaves_server fun h => Leaves.bind ?_ fun _ => ?_
  · exact Leaves.forEach (fun _ => closed_moved.leaves_drainAndPublish) _
  · exact Leaves.bind moves_reapExited fun _ => Leaves.forEach moves_announceExit _

theorem moves_handleSignal : Leaves (Moved w₀) handleSignal := by
  have hconsume : Leaves (Moved w₀) consumeSignal := by
    refine Leaves.bind closed_moved.leaves_call fun turn => ?_
    cases turn.fault with
    | some source => exact Leaves.fail _
    | none => exact Leaves.pure _
  refine Leaves.bind hconsume fun signal => ?_
  split
  · exact Leaves.pure _
  · split
    · exact Leaves.bind moves_handleChild fun _ => Leaves.pure _
    · exact Leaves.pure _

theorem moves_handleConnection (events : Nat) :
    Leaves (Moved w₀) (handleConnection fd events) := by
  refine Leaves.bind (Leaves.attempt (closed_moved.leaves_receiveFrames events)) fun r => ?_
  rcases r with error | ⟨frames, peerClosed⟩
  · exact closed_moved.leaves_disconnect trivial
  · refine Leaves.bind (Leaves.attempt (Leaves.forEach (fun _ => moves_processFrame) _)) fun r => ?_
    rcases r with error | _
    · exact closed_moved.leaves_disconnect trivial
    · dsimp only
      split
      · exact closed_moved.leaves_disconnect trivial
      · exact closed_moved.leaves_flushConnection trivial events

theorem moves_handleToken (token events : Nat) : Leaves (Moved w₀) (handleToken token events) := by
  refine Leaves.bind leaves_server fun h => ?_
  rcases h.reactor.fds[token]? with _ | fd
  · exact Leaves.pure _
  · refine Leaves.bind leaves_server fun h => ?_
    split
    · exact Leaves.pure _
    · split
      · exact moves_handleSignal
      · split
        · exact Leaves.bind closed_moved.leaves_handleLogFailures fun _ => Leaves.pure _
        · split
          · exact Leaves.bind (closed_moved.leaves_handlePty events) fun _ => Leaves.pure _
          · split
            · exact Leaves.bind (moves_handleConnection events) fun _ => Leaves.pure _
            · exact Leaves.pure _

theorem moves_finishBatch (acceptReady : Bool) :
    Leaves (Moved w₀) (finishBatch acceptReady) := by
  unfold finishBatch
  split
  · exact Leaves.bind moves_acceptConnections fun _ => Leaves.bind leaves_server fun _ =>
      Leaves.pure _
  · exact Leaves.bind leaves_server fun _ => Leaves.pure _

end events

end Holder

namespace HolderRun

variable [SerdeJson]

/-- A step of the holder, taken with the answers of its script, is a sequence of moves. -/
theorem moved_step {r r' : HolderRun} {script : List Turn} (h : r.step script = some r') :
    Moved { r.world with script, failures := [] } r'.world := by
  obtain ⟨world, batch, status⟩ := r
  have hproceed : ∀ {m : Holder Bool} {next}, Program.Leaves (Moved { world with script, failures := [] }) m →
      Moved { world with script, failures := [] }
        (proceed next (m { world with script, failures := [] })).world := by
    intro m next hm
    have := hm _ .refl
    revert this
    rcases m { world with script, failures := [] } with ⟨(_ | _) | _ | _, w'⟩ <;> exact id
  cases status with
  | running =>
    rcases batch with _ | ⟨_ | ⟨⟨token, events⟩, rest⟩, acceptReady⟩
    · cases h
      have := Holder.closed_moved.leaves_reactorWait { world with script, failures := [] } .refl
      revert this
      unfold wait
      rcases Holder.reactorWait { world with script, failures := [] } with ⟨_ | _ | _, w'⟩ <;> exact id
    · cases h
      exact hproceed (Holder.moves_finishBatch acceptReady)
    · cases h
      exact hproceed (Holder.moves_handleToken token events)
  | returned result => cases h
  | panicked => cases h

end HolderRun

end PersistShell

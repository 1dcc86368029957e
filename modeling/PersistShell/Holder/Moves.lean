import Mathlib.Logic.Relation
import PersistShell.Holder.Quiet

/-! Everything the holder does to its state is a sequence of a few kinds of moves: changes to one
session, changes to the table of sessions, and changes to connections, roles and writer slots.
What each kind of move keeps, every handler keeps. -/

namespace PersistShell

namespace HolderServer

/-- The listener, and the descriptors of the signals and of the log worker. -/
def Owns (h : HolderServer) (fd : Fd) : Prop := fd = h.socket ∨ fd = h.signals ∨ fd = h.logs

def Serves (h : HolderServer) (fd : Fd) : Prop := h.connections[fd]? ≠ none

def Hosts (h : HolderServer) (fd : Fd) : Prop := h.runtime.ptyToSession[fd]? ≠ none

end HolderServer

/-- A change that opens and closes no descriptor and registers none. Whoever becomes a writer
or the controller is in `seats`. -/
structure Steady (seats : Fd → Prop) (h h' : HolderServer) : Prop where
  own : ∀ fd, h'.Owns fd ↔ h.Owns fd
  reactor : h'.reactor = h.reactor
  serves : ∀ fd, h'.Serves fd ↔ h.Serves fd
  hosts : ∀ fd, h'.Hosts fd ↔ h.Hosts fd
  writers : ∀ (s : SessionId) fd, h'.writers[s]? = some fd → h.writers[s]? = some fd ∨ seats fd
  controller : ∀ c', h'.controller = some c' →
    (∃ c, h.controller = some c ∧ c'.fd = c.fd) ∨ seats c'.fd

section steady
variable {seats : Fd → Prop} {h h' : HolderServer} {s : SessionId}

theorem Steady.refl (h : HolderServer) : Steady seats h h where
  own _ := Iff.rfl
  reactor := rfl
  serves _ := Iff.rfl
  hosts _ := Iff.rfl
  writers _ _ := .inl
  controller c hc := .inl ⟨c, hc, rfl⟩

theorem Steady.of_eq (heq : h' = h) : Steady seats h h' := by
  subst heq
  exact .refl _

theorem Steady.runtime {r : Runtime} (hr : r.ptyToSession = h.runtime.ptyToSession) :
    Steady seats h { h with runtime := r } where
  own _ := Iff.rfl
  reactor := rfl
  serves _ := Iff.rfl
  hosts fd := by simp only [HolderServer.Hosts, hr]
  writers _ _ := .inl
  controller c hc := .inl ⟨c, hc, rfl⟩

theorem Steady.connections {connections : Std.ExtTreeMap Fd Connection}
    (hc : ∀ fd : Fd, connections[fd]? = none ↔ h.connections[fd]? = none) :
    Steady seats h { h with connections } where
  own _ := Iff.rfl
  reactor := rfl
  serves fd := not_congr (hc fd)
  hosts _ := Iff.rfl
  writers _ _ := .inl
  controller c hc := .inl ⟨c, hc, rfl⟩

theorem Steady.connection (h : HolderServer) (fd : Fd) (f : Connection → Connection) :
    Steady seats h { h with connections := h.connections.alter fd (·.map f) } := by
  refine .connections fun fd' => ?_
  rw [NatMap.get_alter]
  split
  · rename_i heq
    rw [heq, Option.map_eq_none_iff]
  · exact Iff.rfl

theorem Steady.writers_of {writers : Std.ExtTreeMap SessionId Fd}
    (hw : ∀ (s : SessionId) fd, writers[s]? = some fd → h.writers[s]? = some fd ∨ seats fd) :
    Steady seats h { h with writers } where
  own _ := Iff.rfl
  reactor := rfl
  serves _ := Iff.rfl
  hosts _ := Iff.rfl
  writers := hw
  controller c hc := .inl ⟨c, hc, rfl⟩

theorem writers_of_erase {fd : Fd} {s' : SessionId} (hs : (h.writers.erase s)[s']? = some fd) :
    h.writers[s']? = some fd := by
  rw [NatMap.get_erase] at hs
  split at hs
  · cases hs
  · exact hs

theorem Steady.release (h : HolderServer) (s : SessionId) :
    Steady seats h { h with writers := h.writers.erase s } :=
  .writers_of fun _ _ hs => .inl (writers_of_erase hs)

theorem Steady.claim {fd : Fd} (h : HolderServer) (s : SessionId) (hfd : seats fd) :
    Steady seats h { h with writers := h.writers.insert s fd } := by
  refine .writers_of fun s' fd' hs => ?_
  rw [NatMap.get_insert] at hs
  split at hs
  · cases hs
    exact .inr hfd
  · exact .inl hs

theorem Steady.shutdown (h : HolderServer) (fd : Option Fd) :
    Steady seats h { h with shutdownFd := fd } where
  own _ := Iff.rfl
  reactor := rfl
  serves _ := Iff.rfl
  hosts _ := Iff.rfl
  writers _ _ := .inl
  controller c hc := .inl ⟨c, hc, rfl⟩

theorem Steady.unattach (h : HolderServer) (s : SessionId) :
    Steady seats h { h with
      writers := h.writers.erase s
      connections := h.connections.map fun _ c =>
        if c.attachedSession = some s then { c with attachedSession := none } else c } where
  own _ := Iff.rfl
  reactor := rfl
  serves fd := by
    refine not_congr ?_
    rw [NatMap.get_map, Option.map_eq_none_iff]
  hosts _ := Iff.rfl
  writers _ _ hs := .inl (writers_of_erase hs)
  controller c hc := .inl ⟨c, hc, rfl⟩

end steady

variable [SerdeJson]

/-- A change to a session that stays in the table. -/
inductive Session.Move : Session → Session → Prop
  | stored (session : Session) (chunk : Bytes) :
      Move session { session with ring := session.ring.write chunk }
  | active (session : Session) (now : Nat) : Move session { session with lastActiveAtMs := now }
  | queued (session : Session) (data : Bytes) (now : Nat) :
      Move session { session with input := session.input.push data, lastActiveAtMs := now }
  | sent (session : Session) (count : Nat) :
      Move session { session with input := session.input.advance count }
  | closing (session : Session) : Move session { session with closing := true }
  | exited {session : Session} {pty : PtySession} {state : Option ShellState} (code : Int)
      (now : Nat) (hpty : session.pty = some pty)
      (hstate : ∀ found, state = some found → found.valid session.lastStateSequence = true) :
      Move session (session.withExit pty code state now)

/-- The session that `create` puts into the table. -/
def CreateSessionRequest.session (request : CreateSessionRequest) (pty : PtySession)
    (ring : RingBuffer) (now : Nat) : Session where
  pty := some pty
  shellPid := pty.childPid
  ring
  logPath := request.logPath
  logState := if request.logPath.isSome then .healthy else .disabled
  createdAtMs := now
  lastActiveAtMs := now

/-- A change to the sessions of the holder. -/
inductive Runtime.Move : Runtime → Runtime → Prop
  | session {r : Runtime} {s : SessionId} {f : Session → Session}
      (hf : ∀ session, r.sessions[s]? = some session → session.Move (f session)) :
      Move r { r with sessions := r.sessions.alter s (·.map f) }
  | created {r : Runtime} {request : CreateSessionRequest} (pty : PtySession) (ring : RingBuffer)
      (now : Nat) (hvalid : validateCreate request = .ok ())
      (hring : RingBuffer.new request.ringBufferSize = some ring)
      (hnew : r.sessions[request.sessionId]? = none) :
      Move r ({ r with
        sessions := r.sessions.insert request.sessionId (request.session pty ring now)
        ptyToSession := r.ptyToSession.insert pty.masterFd request.sessionId }).bumpGeneration
  | degraded (r : Runtime) (s : SessionId) : Move r (r.degradeLog s)
  | retired {r : Runtime} {s : SessionId} {session : Session}
      (hsession : r.sessions[s]? = some session) (hexit : session.exitCode.isSome = true) :
      Move r ({ r with sessions := r.sessions.erase s }).bumpGeneration
  | dropped (r : Runtime) (s : SessionId) (fd : Fd) :
      Move r ({ r with
        ptyToSession := r.ptyToSession.erase fd
        sessions := r.sessions.alter s
          (Option.map fun session : Session => { session with pty := none }) }).bumpGeneration

/-- The controller that an accepted `ControlHello` makes of a connection. -/
def ControlHello.controller (hello : ControlHello) (fd : Fd) : Controller where
  fd
  pid := hello.daemonPid
  nonce := hello.nonce
  protocolMinor := holderProtocolBaselineMinor
  capabilities := 0

/-- A change to the holder, or a system call. -/
inductive Move : World → World → Prop
  | called {w w' : World} (h : Called w w') : Move w w'
  | noted (w : World) (n : Note) : Move w { w with log := n :: w.log }
  | failed (w : World) (f : Failure) : Move w { w with failures := f :: w.failures }
  | watched (w : World) (interest : Std.ExtTreeMap Fd Bool) : Move w { w with interest }
  | terminals (w : World) (terminals : Std.ExtTreeMap Fd Terminal) : Move w { w with terminals }
  | registered (w : World) (reactor : Reactor) :
      Move w { w with server := { w.server with reactor } }
  | runtime {w : World} {r : Runtime} (h : Runtime.Move w.server.runtime r) :
      Move w { w with server := { w.server with runtime := r } }
  | writers (w : World) (writers : Std.ExtTreeMap SessionId Fd) :
      Move w { w with server := { w.server with writers } }
  | connection {w : World} {fd : Fd} {f : Connection → Connection}
      (hf : ∀ c, w.server.connections[fd]? = some c → (f c).role = c.role ∧ (f c).peer = c.peer) :
      Move w { w with server := { w.server with
        connections := w.server.connections.alter fd (·.map f) } }
  | unattached (w : World) (s : SessionId) :
      Move w { w with server := { w.server with
        writers := w.server.writers.erase s
        connections := w.server.connections.map fun _ c =>
          if c.attachedSession = some s then { c with attachedSession := none } else c } }
  | accepted {w : World} {fd : Fd} (peer : Peer) (hfresh : w.server.connections[fd]? = none) :
      Move w { w with server := { w.server with
        connections := w.server.connections.insert fd { peer } } }
  | seated {w : World} {fd : Fd} (hello : ControlHello) (hrole : w.role fd = some .pending)
      (hfree : w.server.controller = none) :
      Move w { w with server := { w.server with
        connections := w.server.connections.alter fd (·.map fun c => { c with role := .control })
        controller := some (hello.controller fd) } }
  | admitted {w : World} {fd : Fd} (hrole : w.role fd = some .pending)
      (hcontroller : w.server.controller.isSome = true) :
      Move w { w with server := { w.server with
        connections := w.server.connections.alter fd (·.map fun c => { c with role := .data }) } }
  | negotiated {w : World} {controller controller' : Controller}
      (hcontroller : w.server.controller = some controller)
      (hfd : controller'.fd = controller.fd) :
      Move w { w with server := { w.server with controller := some controller' } }
  | disconnected (w : World) (fd : Fd) : Move w (Holder.disconnect fd w).2
  | shutdown (w : World) (fd : Option Fd) :
      Move w { w with server := { w.server with shutdownFd := fd } }

/-- The worlds that moves lead to. -/
abbrev Moved : World → World → Prop := Relation.ReflTransGen Move

namespace Holder
open Program

/-- `J` survives every move that is steady, and the loss of a connection in `seats`, where all
connections, writers and controllers are. -/
structure Closed (seats : Fd → Prop) (J : World → Prop) : Prop where
  move : ∀ {w w'}, Move w w' → Steady seats w.server w'.server → J w → J w'
  lose : ∀ {w fd}, seats fd → J w → J (disconnect fd w).2
  serves : ∀ {w fd}, J w → w.server.Serves fd → seats fd
  writer : ∀ {w} {s : SessionId} {fd}, J w → w.server.writers[s]? = some fd → seats fd
  controller : ∀ {w c}, J w → w.server.controller = some c → seats c.fd

variable {seats : Fd → Prop} {J : World → Prop} {w₀ : World} {α : Type} {fd : Fd} {s : SessionId}

omit [SerdeJson] in
theorem leaves_server : Leaves J server := Leaves.read _

omit [SerdeJson] in
theorem leaves_protocol (context : String) (r : Except HolderProtocolError α) :
    Leaves J (protocol context r) :=
  Leaves.lift _

omit [SerdeJson] in
theorem leaves_connection : Leaves J (connection fd) :=
  Leaves.bind leaves_server fun _ => Leaves.unwrap _

/-- Where the state of the server itself is known. -/
def At (J : World → Prop) (h : HolderServer) (w : World) : Prop := J w ∧ w.server = h

omit [SerdeJson] in
theorem at_server : Within J server (fun h => At J h) J := Within.read fun _ hw => ⟨hw, rfl⟩

omit [SerdeJson] in
theorem at_done {a : α} {h : HolderServer} : Within (At J h) (pure a : Holder α) (fun _ => J) J :=
  Within.pure fun _ hw => hw.1

omit [SerdeJson] in
/-- A call keeps what survives calls, and never fails. -/
theorem within_called {P : World → Prop} (hP : CallClosed P) : Within P call (fun _ => P) J := by
  intro w hw
  obtain ⟨turn, hturn, hcalled⟩ := called_call w
  rcases hrun : call w with ⟨r, w'⟩
  rw [hrun] at hturn hcalled
  cases hturn
  exact hP _ _ hcalled hw

section closed

variable (hJ : Closed seats J)
include hJ

theorem Closed.leaves_update {f : World → World} (hf : ∀ w, Move w (f w))
    (hs : ∀ w, Steady seats w.server (f w).server) : Leaves J (update f : Holder Unit) :=
  Leaves.update fun w hw => hJ.move (hf w) (hs w) hw

theorem Closed.leaves_call : Leaves J call := by
  intro w hw
  obtain ⟨turn, -, hcalled⟩ := called_call w
  exact hJ.move (.called hcalled) (.of_eq hcalled.server) hw

theorem Closed.leaves_note (n : Note) : Leaves J (note n) :=
  hJ.leaves_update (fun w => .noted w n) fun _ => .refl _

theorem Closed.leaves_failIo (call : IoCall) (source : Errno) :
    Leaves J (failIo call source : Holder α) :=
  Leaves.bind (hJ.leaves_update (fun w => .failed w _) fun _ => .refl _) fun _ => Leaves.fail _

theorem Closed.leaves_nowMs : Leaves J nowMs := Leaves.bind hJ.leaves_call fun _ => Leaves.pure _

theorem Closed.leaves_control (operation : String) : Leaves J (control operation) := by
  refine Leaves.bind hJ.leaves_call fun turn => ?_
  cases turn.fault with
  | none => exact Leaves.pure _
  | some source => exact Leaves.fail _

/-- A change to one session. -/
theorem Closed.leaves_modifySession {f : Session → Session}
    (hf : ∀ session : Session, session.Move (f session)) : Leaves J (modifySession s f) :=
  hJ.leaves_update (fun _ => .runtime (.session fun session _ => hf session)) fun _ => .runtime rfl

/-- A change to one connection that keeps its role. -/
theorem Closed.leaves_modifyConnection {f : Connection → Connection}
    (hf : ∀ c, (f c).role = c.role ∧ (f c).peer = c.peer) :
    Leaves J (modifyConnection fd f) :=
  hJ.leaves_update (fun _ => .connection fun c _ => hf c) fun _ => .connection _ fd f

theorem Closed.leaves_updateConnection {f : Connection → Connection}
    (hf : ∀ c, (f c).role = c.role ∧ (f c).peer = c.peer) :
    Leaves J (updateConnection fd f) :=
  Leaves.bind leaves_connection fun _ => hJ.leaves_modifyConnection hf

section terminals

theorem Closed.leaves_readOutput (len : Nat) : Leaves J (readOutput fd len) := by
  refine Leaves.bind hJ.leaves_call fun turn => Leaves.bind (Leaves.read _) fun terminal => ?_
  cases terminal with
  | none => exact Leaves.pure _
  | some terminal =>
    dsimp only
    split
    · rcases turn.fault with _ | source
      · exact Leaves.pure _
      · cases source <;> exact Leaves.pure _
    · exact Leaves.bind (hJ.leaves_update (fun w => .terminals w _) fun _ => .refl _) fun _ => Leaves.pure _

theorem Closed.leaves_writeInput (bytes : Bytes) : Leaves J (writeInput bytes) := by
  refine Leaves.bind hJ.leaves_call fun turn => ?_
  cases turn.fault with
  | some source => exact Leaves.pure _
  | none => exact Leaves.pure _

theorem Closed.leaves_enqueue (data : Bytes) : Leaves J (enqueue data) :=
  Leaves.bind hJ.leaves_call fun _ => Leaves.pure _

theorem Closed.leaves_storeChunk (chunk : Bytes) : Leaves J (storeChunk s chunk) := by
  refine Leaves.bind (hJ.leaves_modifySession fun session => .stored session chunk) fun _ => ?_
  refine Leaves.bind (hJ.leaves_note _) fun _ => Leaves.bind hJ.leaves_nowMs fun now => ?_
  refine Leaves.bind (hJ.leaves_modifySession fun session => .active session now) fun _ => ?_
  refine Leaves.bind leaves_server fun h => ?_
  cases (h.runtime.sessions[s]?).bind Session.logPath with
  | some path => exact hJ.leaves_enqueue chunk
  | none => exact Leaves.pure _

theorem Closed.leaves_noteDry : Leaves J (noteDry fd) :=
  Leaves.bind (Leaves.read _) fun _ => hJ.leaves_note _

theorem Closed.leaves_drainLoop (fuel : Nat) : Leaves J (drainLoop s fd fuel) := by
  induction fuel with
  | zero => exact Leaves.abort
  | succ fuel ih =>
    have hdry : Leaves J (do noteDry fd; return ([], 0) : Holder (List Bytes × Nat)) :=
      Leaves.bind hJ.leaves_noteDry fun _ => Leaves.pure _
    refine Leaves.bind (hJ.leaves_readOutput _) fun r => ?_
    rcases r with source | _ | ⟨b, chunk⟩
    · cases source with
      | io => exact hdry
      | _ => exact hJ.leaves_failIo _ _
    · exact hdry
    · exact Leaves.bind (hJ.leaves_storeChunk _) fun _ => Leaves.bind ih fun _ => Leaves.pure _

theorem Closed.leaves_degradeLog : Leaves J (modifyRuntime (·.degradeLog s)) := by
  refine hJ.leaves_update (fun _ => .runtime (.degraded _ s)) fun w => .runtime ?_
  dsimp only [Runtime.degradeLog]
  split
  · rfl
  · split <;> rfl

theorem Closed.leaves_drainOutput : Leaves J (drainOutput fd) := by
  refine Leaves.bind leaves_server fun h => ?_
  cases h.runtime.sessionForPty fd with
  | none => exact Leaves.fail _
  | some s =>
    dsimp only
    refine Leaves.bind leaves_server fun h => Leaves.bind (Leaves.unwrap _) fun session => ?_
    have hrest : ∀ r : List Bytes × Nat, Leaves J (do
        if r.2 > 0 then modifyRuntime (·.degradeLog s)
        return ({ sessionId := s, chunks := r.1, logDropped := r.2 } : OutputBatch)) := by
      intro r
      dsimp only
      split
      · exact Leaves.bind hJ.leaves_degradeLog fun _ => Leaves.pure _
      · exact Leaves.pure _
    split
    · exact Leaves.bind (Leaves.read _) fun w => Leaves.bind (hJ.leaves_drainLoop _) hrest
    · exact Leaves.bind (Leaves.pure _) hrest

theorem Closed.leaves_flushInputLoop (fuel : Nat) : Leaves J (flushInputLoop s fuel) := by
  induction fuel with
  | zero => exact Leaves.abort
  | succ fuel ih =>
    refine Leaves.bind leaves_server fun h => ?_
    rcases h.runtime.sessions[s]? with _ | session
    · exact Leaves.abort
    · dsimp only
      rcases session.input.front with _ | front
      · exact Leaves.pure _
      · rcases session.pty with _ | pty
        · exact Leaves.pure _
        · refine Leaves.bind (hJ.leaves_writeInput front) fun r => ?_
          rcases r with source | _ | count
          · cases source with
            | wouldBlock => exact Leaves.pure _
            | _ => exact hJ.leaves_failIo _ _
          · exact Leaves.pure _
          · exact Leaves.bind (hJ.leaves_modifySession fun session => .sent session _) fun _ => ih

theorem Closed.leaves_flushInput : Leaves J (flushInput s) := by
  refine Leaves.bind leaves_server fun h => Leaves.bind (Leaves.unwrap _) fun session => ?_
  exact Leaves.bind (hJ.leaves_flushInputLoop _) fun _ => Leaves.bind leaves_server fun _ =>
    Leaves.pure _

theorem Closed.leaves_queueInput (data : Bytes) : Leaves J (queueInput s data) := by
  refine Leaves.bind leaves_server fun h => ?_
  cases h.runtime.sessions[s]? with
  | none => exact Leaves.fail _
  | some session =>
    refine Leaves.bind (Leaves.reject _ _) fun _ => Leaves.bind (Leaves.reject _ _) fun _ => ?_
    refine Leaves.bind hJ.leaves_nowMs fun now => ?_
    refine Leaves.bind (hJ.leaves_modifySession fun session => .queued session data now) fun _ => ?_
    exact hJ.leaves_flushInput

theorem Closed.leaves_resize : Leaves J (resize s) := by
  refine Leaves.bind leaves_server fun h => ?_
  cases h.runtime.ptyFd s with
  | none => exact Leaves.fail _
  | some pty => exact hJ.leaves_control _

theorem Closed.leaves_signal : Leaves J (signal s) := by
  refine Leaves.bind leaves_server fun h => ?_
  cases (h.runtime.sessions[s]?).bind Session.pty with
  | none => exact Leaves.fail _
  | some pty => exact hJ.leaves_control _

theorem Closed.leaves_signalChild : Leaves J signalChild :=
  Leaves.bind hJ.leaves_call fun _ => Leaves.pure _

theorem Closed.leaves_close : Leaves J (close s) := by
  refine Leaves.bind leaves_server fun h => ?_
  cases h.runtime.sessions[s]? with
  | none => exact Leaves.pure _
  | some session =>
    dsimp only
    split
    · exact Leaves.pure _
    · split
      · refine Leaves.bind hJ.leaves_signalChild fun _ => ?_
        exact Leaves.bind (hJ.leaves_modifySession fun session => .closing session) fun _ =>
          Leaves.pure _
      · exact Leaves.pure _

theorem Closed.leaves_kill : Leaves J (kill s) := by
  refine Leaves.bind leaves_server fun h => ?_
  cases h.runtime.sessions[s]? with
  | none => exact Leaves.pure _
  | some session =>
    dsimp only
    split
    · refine Leaves.bind hJ.leaves_signalChild fun sent => ?_
      split
      · exact Leaves.pure _
      · exact Leaves.pure _
    · exact Leaves.pure _

end terminals

section server

variable {h : HolderServer}

theorem Closed.at_call : Within (At J h) call (fun _ => At J h) J :=
  within_called fun _ _ hcalled hw =>
    ⟨hJ.move (.called hcalled) (.of_eq hcalled.server) hw.1, hcalled.server.trans hw.2⟩

theorem Closed.at_nowMs : Within (At J h) nowMs (fun _ => At J h) J :=
  Within.bind hJ.at_call fun _ => Within.pure fun _ => id

theorem Closed.leaves_retireExited : Leaves J (retireExited s) := by
  intro w hw
  refine Within.leaves (Q := fun _ => J) ?_ (fun _ _ => id) hw
  apply Within.bind at_server
  intro h
  cases hsession : h.runtime.sessions[s]? with
  | none => exact at_done
  | some session =>
    dsimp only
    split
    · exact at_done
    · rename_i hexit
      have hexit : session.exitCode.isSome = true := by
        simpa [Option.isSome_iff_ne_none] using hexit
      apply Within.bind hJ.at_call
      intro turn
      split
      · exact at_done
      · rintro w ⟨hw, rfl⟩
        let attached := w.server.connections.keys.filter fun fd =>
          w.server.connections[fd]?.any fun c => c.attachedSession = some s
        have hnoted := hJ.move (.noted w (.retired s attached)) (.refl _) hw
        exact hJ.move (.runtime (.retired hsession hexit)) (.runtime rfl) hnoted

theorem Closed.at_pollExit (pty : PtySession) :
    Within (At J h) (pollExit pty) (fun _ => At J h) J := by
  unfold pollExit
  cases pty.exitStatus with
  | some status => exact Within.pure fun _ => id
  | none =>
    apply Within.bind hJ.at_call
    intro turn
    cases turn.fault with
    | some source => exact Within.fail fun _ hw => hw.1
    | none =>
      apply Within.bind (Within.read (Q := fun _ => At J h) fun _ => id)
      intro terminal
      rcases terminal.bind Terminal.status with _ | code | signal | raw
      · exact Within.pure fun _ => id
      · exact Within.pure fun _ => id
      · exact Within.pure fun _ => id
      · exact Within.fail fun _ hw => hw.1

theorem Closed.leaves_pollSession : Leaves J (pollSession s) := by
  intro w hw
  refine Within.leaves (Q := fun _ => J) ?_ (fun _ _ => id) hw
  apply Within.bind at_server
  intro h
  cases hsession : h.runtime.sessions[s]? with
  | none => exact at_done
  | some session =>
    dsimp only
    cases hpty : session.pty with
    | none => exact at_done
    | some pty =>
      apply Within.bind (hJ.at_pollExit pty)
      intro code
      cases code with
      | none => exact at_done
      | some code =>
        have hcapture : Within (At J h) (capture session.lastStateSequence)
            (fun state w => At J h w ∧ ∀ found, state = some found →
              found.valid session.lastStateSequence = true) J := by
          refine Within.bind hJ.at_call fun turn => Within.pure fun w hw => ⟨hw, ?_⟩
          intro found hfound
          exact (Option.filter_eq_some_iff.mp hfound).2
        apply Within.bind hcapture
        intro state
        have hnow : Within (fun w => At J h w ∧ ∀ found, state = some found →
            found.valid session.lastStateSequence = true) nowMs
            (fun _ w => At J h w ∧ ∀ found, state = some found →
              found.valid session.lastStateSequence = true) J :=
          fun w hw => (hJ.at_nowMs.post fun _ _ hat => ⟨hat, hw.2⟩) w hw.1
        apply Within.bind hnow
        rintro now w ⟨⟨hw, rfl⟩, hstate⟩
        refine hJ.move (.runtime (.session fun found hfound => ?_)) (.runtime rfl) hw
        rw [hsession] at hfound
        cases hfound
        exact .exited code now hpty hstate

theorem Closed.leaves_pollSessions (ids : List SessionId) : Leaves J (pollSessions ids) := by
  induction ids with
  | nil => exact Leaves.pure _
  | cons s ids ih =>
    exact Leaves.bind hJ.leaves_pollSession fun _ => Leaves.bind ih fun _ => Leaves.pure _

end server

end closed

section moved

variable {h : HolderServer}

/-- Every move leads on. -/
theorem closed_moved : Closed (fun _ => True) (Moved w₀) where
  move hmove _ hw := hw.tail hmove
  lose _ hw := hw.tail (.disconnected _ _)
  serves _ _ := trivial
  writer _ _ := trivial
  controller _ _ := trivial

theorem at_openSession :
    Within (At (Moved w₀) h) (openSession s) (fun _ => At (Moved w₀) h) (Moved w₀) := by
  apply Within.bind closed_moved.at_call
  intro turn
  cases turn.fault with
  | some source =>
    intro w hw
    exact closed_moved.leaves_failIo (α := PtySession) _ _ w hw.1
  | none =>
    intro w hw
    exact ⟨hw.1.tail (.terminals w _), hw.2⟩

theorem moves_create {request : CreateSessionRequest} (hvalid : validateCreate request = .ok ()) :
    Leaves (Moved w₀) (create request) := by
  intro w hw
  refine Within.leaves (Q := fun _ => Moved w₀) ?_ (fun _ _ => id) hw
  apply Within.bind at_server
  intro h
  dsimp only
  split
  · exact at_done
  · rename_i hnew
    split
    · exact at_done
    · apply Within.bind at_openSession
      intro pty
      apply Within.bind closed_moved.at_nowMs
      intro now
      have hring : Within (At (Moved w₀) h) (ringBuffer request.ringBufferSize)
          (fun ring w => At (Moved w₀) h w ∧ RingBuffer.new request.ringBufferSize = some ring)
          (Moved w₀) := by
        unfold ringBuffer
        cases hring : RingBuffer.new request.ringBufferSize with
        | none => exact Within.abort fun _ hw => hw.1
        | some ring => exact Within.pure fun _ hw => ⟨hw, rfl⟩
      apply Within.bind hring
      intro ring
      have hfree : h.runtime.sessions[request.sessionId]? = none := by
        cases hsome : h.runtime.sessions[request.sessionId]? with
        | none => rfl
        | some session => exact absurd ((NatMap.contains_iff _ _).mpr ⟨session, hsome⟩) hnew
      intro w hw
      obtain ⟨⟨hmoved, rfl⟩, hsize⟩ := hw
      exact (hmoved.tail (.runtime (.created pty ring now hvalid hsize hfree))).tail (.noted _ _)

theorem moves_dropPty (exited : ExitedSession) : Leaves (Moved w₀) (dropPty exited) := by
  refine Leaves.bind (Leaves.read _) fun terminal => ?_
  refine Leaves.bind (closed_moved.leaves_note _) fun _ => Leaves.bind ?_ fun _ => ?_
  · exact Leaves.update fun w hw => hw.tail (.runtime (.dropped _ _ _))
  · exact Leaves.update fun w hw => hw.tail (.terminals w _)

theorem moves_reapExited : Leaves (Moved w₀) reapExited := by
  refine Leaves.bind leaves_server fun h => ?_
  refine Leaves.bind (closed_moved.leaves_pollSessions _) fun exited => ?_
  exact Leaves.bind (Leaves.forEach moves_dropPty _) fun _ => Leaves.pure _

end moved

end Holder

end PersistShell

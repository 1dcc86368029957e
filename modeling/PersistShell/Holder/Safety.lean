import PersistShell.Holder.Arrivals
import PersistShell.Holder.Exits

/-! Every run of the holder keeps the invariant between any two steps, whatever the answers
of the system, and no run aborts. -/

namespace PersistShell

theorem Inv.openTerminal {ph : Phase} {w : World} {fd : Fd} {t : Terminal} (h : Inv ph w)
    (hfd : w.terminals[fd]? = none) :
    Inv ph { w with terminals := w.terminals.insert fd t } := by
  have hne : ∀ (fd' : Fd) s, w.server.runtime.ptyToSession[fd']? = some s → fd ≠ fd' := by
    rintro fd' s hs rfl
    obtain ⟨t', ht', -⟩ := h.terminal fd s hs
    rw [hfd] at ht'
    cases ht'
  refine { h with terminal := ?_, dry := ?_ }
  · intro fd' s hs
    obtain ⟨t', ht', hrest⟩ := h.terminal fd' s hs
    refine ⟨t', ?_, hrest⟩
    rw [NatMap.get_insert, if_neg (hne fd' s hs), ht']
  · intro fd' s n hs hd hl t' ht'
    rw [NatMap.get_insert, if_neg (hne fd' s hs)] at ht'
    exact h.dry fd' s n hs hd hl t' ht'

namespace Holder
open Program

section requests
variable {E : PersistError → World → Prop} {fd : Fd} {s : SessionId} {frame : HolderFrame}
  {minor : Nat}

theorem served_quiet : QuietClosed (Served fd) := by
  intro w w' hq hw
  refine ⟨hw.1.quiet hq, ?_⟩
  rw [hq.role]
  exact hw.2

theorem served_registered : Registered (Served fd) fd := fun _ hw => hw.2

theorem openSession_triple :
    Triple (fun w => Served fd w ∧ w.core s = none) (openSession s)
      (fun pty w => Served fd w ∧ Fresh s pty.masterFd w) (fun _ => Served fd) := by
  have hquiet : QuietClosed fun w => Served fd w ∧ w.core s = none := by
    intro w w' hq hw
    rw [hq.core]
    exact ⟨served_quiet w w' hq hw.1, hw.2⟩
  refine .bind (call_triple hquiet.call) fun turn => ?_
  cases turn.fault with
  | some source =>
    exact (failIo_triple hquiet _ _).conseq (fun _ => id) (fun _ _ => id) fun _ _ hw => hw.1
  | none =>
    rintro w ⟨⟨hinv, hrole⟩, hcore⟩
    have hfree := terminal_of_not_open (w.isOpen_freshFd turn.fd)
    refine ⟨⟨hinv.openTerminal hfree, hrole⟩, hcore, ?_, ?_⟩
    · cases hpty : w.server.runtime.ptyToSession[w.freshFd turn.fd]? with
      | none => rfl
      | some s' =>
        obtain ⟨t, ht, -⟩ := hinv.terminal _ s' hpty
        rw [hfree] at ht
        cases ht
    · refine ⟨{ pid := turn.pid }, ?_, rfl⟩
      dsimp only
      rw [NatMap.get_insert, if_pos rfl]

theorem ringBuffer_triple {J : World → Prop} {capacity : Nat} (h : 0 < capacity) :
    Triple J (ringBuffer capacity) (fun ring w => J w ∧ RingBuffer.new capacity = some ring) E := by
  refine .unwrap fun w hw => ?_
  rw [RingBuffer.new, dif_pos h]
  exact ⟨_, rfl, hw, rfl⟩

theorem create_triple (request : CreateSessionRequest) (hsize : 0 < request.ringBufferSize) :
    Keeps (Served fd) (create request) := by
  refine Triple.bind server_triple fun h => ?_
  dsimp only
  split
  · exact .pure fun _ hw => hw.1
  · rename_i hnew
    split
    · exact .pure fun _ hw => hw.1
    · refine Triple.bind (openSession_triple (s := request.sessionId) |>.pre ?_) fun pty => ?_
      · rintro w ⟨hw, rfl⟩
        refine ⟨hw, ?_⟩
        cases hcore : w.core request.sessionId with
        | none => rfl
        | some core =>
          obtain ⟨session, hsession, -⟩ := Option.map_eq_some_iff.mp hcore
          exact absurd ((NatMap.contains_iff _ _).mpr ⟨session, hsession⟩) hnew
      have hquiet : QuietClosed fun w => Served fd w ∧ Fresh request.sessionId pty.masterFd w :=
        fun w w' hq hw => ⟨served_quiet w w' hq hw.1, hw.2.quiet hq⟩
      refine Triple.bind (nowMs_triple hquiet.call) fun now => ?_
      refine Triple.bind (ringBuffer_triple hsize) fun ring => ?_
      let session : Session :=
        { pty := some pty
          shellPid := pty.childPid
          ring
          logPath := request.logPath
          logState := if request.logPath.isSome then .healthy else .disabled
          createdAtMs := now
          lastActiveAtMs := now }
      intro w hw
      exact ⟨Inv.create hw.1.1.1 hw.1.2 rfl rfl hw.2 rfl, hw.1.1.2⟩

theorem retireExited_keeps (s : SessionId) : Keeps (Served fd) (retireExited s) := by
  refine Triple.bind server_triple fun h => ?_
  cases hsession : h.runtime.sessions[s]? with
  | none => exact .pure fun _ hw => hw.1
  | some session =>
    dsimp only
    split
    · exact .pure fun _ hw => hw.1
    · rename_i hexit
      have hcall : CallClosed fun w => Served fd w ∧ w.server = h := fun w w' hc hw =>
        ⟨served_quiet w w' hc.quiet hw.1, hc.server.trans hw.2⟩
      refine Triple.bind (call_triple hcall) fun turn => ?_
      split
      · exact .pure fun _ hw => hw.1
      · rintro w ⟨⟨hinv, hrole⟩, rfl⟩
        refine ⟨hinv.retire (core_of_get hsession) ?_ fun fd' hs' => ?_, hrole⟩
        · simpa [Session.core, Option.isSome_iff_ne_none] using hexit
        · have hplace : w.place fd' = some s := (hinv.place fd').trans hs'
          obtain ⟨c, hc, hattached⟩ := Option.bind_eq_some_iff.mp hplace
          refine List.mem_filter.mpr ⟨(NatMap.mem_keys_iff _ _).mpr ⟨c, hc⟩, ?_⟩
          rw [hc]
          simpa using hattached

theorem handleCreate_keeps : Keeps (Served fd) (handleCreate fd minor frame) := by
  refine Triple.bind (Q := fun request w => Served fd w ∧ 0 < request.ringBufferSize)
    (.lift ?_ fun _ _ _ hw => hw) fun request => ?_
  · intro request hrequest w hw
    refine ⟨hw, ?_⟩
    have hdecoded : ∀ structured, Reader.decode (readCreate structured) frame.payload = .ok request →
        0 < request.ringBufferSize := fun structured h =>
      ringBufferSize_pos_of_validateCreate ((readCreate_yields structured).decode h)
    split at hrequest
    · refine hdecoded true ?_
      cases hd : decodeCreateRequestV2 frame.payload with
      | error e => rw [hd] at hrequest; cases hrequest
      | ok r => rw [hd] at hrequest; cases hrequest; exact hd
    · refine hdecoded false ?_
      cases hd : decodeCreateRequest frame.payload with
      | error e => rw [hd] at hrequest; cases hrequest
      | ok r => rw [hd] at hrequest; cases hrequest; exact hd
  · by_cases hsize : 0 < request.ringBufferSize
    · refine Triple.bind ((create_triple request hsize).pre fun w hw => hw.1) fun r => ?_
      rcases r with ⟨response, ptyFd⟩
      cases ptyFd with
      | none => exact operationResponse_keeps served_quiet _ _ _ _
      | some ptyFd =>
        exact Keeps.bind (reactorAdd_keeps served_quiet _ _) fun _ =>
          operationResponse_keeps served_quiet _ _ _ _
    · exact .of_false fun w hw => hsize hw.2

theorem handleRetireExited_keeps : Keeps (Served fd) (handleRetireExited fd frame) :=
  Keeps.bind (protocol_keeps _ _) fun _ => Keeps.bind (retireExited_keeps _) fun _ =>
    operationResponse_keeps served_quiet _ _ _ _

variable [SerdeJson]

theorem handleControl_keeps : Keeps (Served fd) (handleControl fd minor frame) := by
  unfold handleControl
  split
  · exact handleCapability_keeps served_quiet served_registered _
  · refine Keeps.bind (connection_keeps served_registered) fun c =>
      Keeps.bind (Keeps.reject _ _) fun _ => ?_
    split
    · exact handleInventory_keeps served_quiet
    · exact handleCreate_keeps
    · exact handleClose_keeps served_quiet
    · exact handleKill_keeps served_quiet
    · exact handleGetExitContext_keeps served_quiet _
    · exact handleRetireExited_keeps
    · split
      · exact handleShutdownAll_keeps served_quiet
      · exact Keeps.fail _
    · exact Keeps.fail _

theorem processFrame_triple :
    Triple (Served fd) (processFrame fd minor frame) (fun _ => Served fd) (fun _ => Inv {}) := by
  refine .bind (connection_triple served_registered) fun c => ?_
  have hrole : ∀ w, Served fd w ∧ w.server.connections[fd]? = some c → w.role fd = some c.role := by
    rintro w ⟨-, hc⟩
    rw [World.role, hc]
    rfl
  cases hc : c.role with
  | pending =>
    refine handleHello_keeps.pre fun w hw => { hw.1.1 with guest := ?_ }
    rintro fd' ⟨⟩
    rw [hrole w hw, hc]
  | control =>
    exact handleControl_keeps.conseq (fun _ hw => hw.1) (fun _ _ => id) fun _ _ hw => hw.1
  | data =>
    have hguarded : ∀ w, Served fd w ∧ w.server.connections[fd]? = some c → Guarded fd w :=
      fun w hw => ⟨hw.1.1, (hrole w hw).trans (congrArg some hc)⟩
    refine Triple.pre (P := Guarded fd) ?_ hguarded
    refine .bind ((Keeps.reject _ _).conseq (fun _ => id) (fun _ _ => id) fun _ _ hw => hw.1)
      fun _ => handleData_keeps.post fun _ w hw => ⟨hw.1, ?_⟩
    rw [hw.2]
    exact Option.some_ne_none _

end requests

section events
variable {E : PersistError → World → Prop} {fd : Fd}

theorem inv_quiet : QuietClosed (Inv {}) := fun _ _ hq h => h.quiet hq

theorem inv_sound {w : World} (h : Inv {} w) : Sound w := h.sound rfl

/-- Input that waits is written, while no terminal comes or goes. -/
theorem flushPty_triple {p : Fd → Option SessionId} (hp : (p fd).isSome = true) :
    Triple (Inv { ptys := some p }) (do
        let s ← unwrap ((← server).runtime.sessionForPty fd)
        let pending ← flushInput s
        reactorModify fd pending) (fun _ => Inv { ptys := some p }) (fun _ => Sound) := by
  obtain ⟨s, hs⟩ := Option.isSome_iff_exists.mp hp
  refine .bind server_triple fun h => .bind (Q := fun s w => Inv { ptys := some p } w ∧ p fd = some s)
    (.unwrap ?_) fun s => ?_
  · rintro w ⟨hw, rfl⟩
    exact ⟨s, (hw.ptys p rfl fd).trans hs, hw, hs⟩
  · have hquiet : QuietClosed fun w => Inv { ptys := some p } w ∧ p fd = some s := fun _ _ hq h =>
      ⟨h.1.quiet hq, h.2⟩
    have hkeeps : Keeps (fun w => Inv { ptys := some p } w ∧ p fd = some s) (do
        let pending ← flushInput s
        reactorModify fd pending) :=
      Keeps.bind (flushInput_keeps hquiet fun w hw =>
        hw.1.core_of_pty ((hw.1.ptys p rfl fd).trans hw.2)) fun _ => reactorModify_keeps hquiet _ _
    exact hkeeps.conseq (fun _ => id) (fun _ _ hw => hw.1) fun _ _ hw => hw.1.sound rfl

theorem handlePty_triple (events : Nat) :
    Triple (fun w => Inv {} w ∧ (w.server.runtime.sessionForPty fd).isSome = true)
      (handlePty fd events) (fun _ => Inv {}) (fun _ => Sound) := by
  rintro w ⟨hw, hfd⟩
  let p : Fd → Option SessionId := fun fd => w.server.runtime.ptyToSession[fd]?
  have hend : ∀ w, Inv { ptys := some p } w → Inv {} w := fun w h => { h with ptys := nofun }
  have hwrite := (flushPty_triple (p := p) hfd).post fun _ w h => hend w h
  have hall : Triple (Inv { ptys := some p }) (handlePty fd events) (fun _ => Inv {})
      (fun _ => Sound) := by
    have hlast : Triple (Inv { ptys := some p }) (if hasAny events epollOut then do
          let s ← unwrap ((← server).runtime.sessionForPty fd)
          let pending ← flushInput s
          reactorModify fd pending
        else pure ()) (fun _ => Inv {}) (fun _ => Sound) := by
      split
      · exact hwrite
      · exact .pure hend
    by_cases hread : hasAny events (epollIn ||| epollHup ||| epollErr) = true
    · simp only [handlePty, hread, if_true]
      refine .bind (drainOutput_triple fd [] (some p) []) fun batch => ?_
      exact .bind ((publishOutput_triple batch).post fun _ w h => { h with dried := nofun })
        fun _ => hlast
    · simp only [handlePty, hread]
      exact hlast
  exact hall w { hw with ptys := fun q hq fd => by cases hq; rfl }

theorem handleLogFailures_keeps : Keeps (Inv {}) handleLogFailures := by
  refine Keeps.bind (call_triple inv_quiet.call) fun turn => Keeps.forEach (fun failure => ?_) _
  refine Keeps.bind (degradeLog_keeps inv_quiet) fun _ => ?_
  exact Keeps.bind (eventFrame_triple _ _) fun frame => sendControl_inv rfl rfl rfl frame

theorem disconnect_keeps (fd : Fd) : Triple (Inv {}) (disconnect fd) (fun _ => Inv {}) E :=
  disconnect_inv rfl nofun rfl

theorem receiveFrames_keeps (events : Nat) : Keeps (Served fd) (receiveFrames fd events) := by
  unfold receiveFrames
  split
  · exact readFrames_keeps served_quiet served_registered
  · exact Keeps.pure _

theorem flushConnection_keeps (events : Nat) :
    Triple (Served fd) (flushConnection fd events) (fun _ => Inv {}) (fun _ => Inv {}) := by
  have hweak : ∀ {α : Type} {m : Holder α}, Keeps (Served fd) m →
      Triple (Served fd) m (fun _ => Served fd) (fun _ => Inv {}) := fun h =>
    h.conseq (fun _ => id) (fun _ _ => id) fun _ _ hw => hw.1
  unfold flushConnection
  split
  · refine .bind (hweak (flush_keeps served_quiet served_registered)) fun open_ => ?_
    cases open_ with
    | false => exact .bind ((disconnect_keeps fd).pre fun _ hw => hw.1) fun _ => .pure fun _ => id
    | true =>
      refine .bind (.read (Q := fun _ => Served fd) fun _ => id) fun h => ?_
      split
      · exact .pure fun _ hw => hw.1
      · exact (hweak (reactorModify_keeps served_quiet _ _)).post fun _ _ hw => hw.1
  · refine .bind (.read (Q := fun _ => Served fd) fun _ => id) fun h => ?_
    split
    · exact .pure fun _ hw => hw.1
    · exact (hweak (reactorModify_keeps served_quiet _ _)).post fun _ _ hw => hw.1

variable [SerdeJson]

theorem handleConnection_triple (events : Nat) :
    Triple (Served fd) (handleConnection fd events) (fun _ => Inv {}) (fun _ => Inv {}) := by
  refine .bind (.attempt (receiveFrames_keeps events)) fun r => ?_
  rcases r with error | ⟨frames, peerClosed⟩
  · exact (disconnect_keeps fd).pre fun _ hw => hw.1
  · refine .bind (.attempt (Q := fun _ => Served fd) (E := fun _ => Inv {})
      (Triple.forEach (I := fun _ => Served fd) (fun _ _ => processFrame_triple) _)) fun r => ?_
    cases r with
    | error e => exact disconnect_keeps fd
    | ok _ =>
      dsimp only
      split
      · exact (disconnect_keeps fd).pre fun _ hw => hw.1
      · exact flushConnection_keeps events

theorem handleSignal_triple : Triple (Inv {}) handleSignal (fun _ => Inv {}) (fun _ => Sound) := by
  refine .bind (Q := fun _ => Inv {}) (.bind (call_triple inv_quiet.call) fun turn => ?_)
    fun signal => ?_
  · split
    · exact .fail fun _ hw => inv_sound hw
    · exact .pure fun _ => id
  · split
    · exact .pure fun _ => id
    · split
      · exact .bind handleChild_triple fun _ => .pure fun _ => id
      · exact .pure fun _ => id

theorem handleEvent_triple (events : Nat) :
    Triple (Inv {}) (handleEvent fd events) (fun _ => Inv {}) (fun _ => Sound) := by
  refine .bind server_triple fun h => ?_
  have hfalse : ∀ {m : Holder Unit} {P : World → Prop},
      Triple P m (fun _ => Inv {}) (fun _ => Sound) →
      Triple P (do
        m
        return false) (fun _ => Inv {}) (fun _ => Sound) := fun hm =>
    .bind hm fun _ => .pure fun _ => id
  split
  · exact .pure fun _ hw => hw.1
  · split
    · exact handleSignal_triple.pre fun _ hw => hw.1
    · split
      · exact hfalse (handleLogFailures_keeps.conseq (fun _ hw => hw.1) (fun _ _ => id)
          fun _ _ => inv_sound)
      · split
        · rename_i hpty
          refine hfalse ((handlePty_triple events).pre ?_)
          rintro w ⟨hw, rfl⟩
          exact ⟨hw, hpty⟩
        · split
          · rename_i hcontains
            refine hfalse ((handleConnection_triple events).conseq ?_ (fun _ _ => id)
              fun _ _ => inv_sound)
            rintro w ⟨hw, rfl⟩
            obtain ⟨c, hc⟩ := (NatMap.contains_iff _ _).mp hcontains
            refine ⟨hw, ?_⟩
            rw [World.role, hc]
            exact Option.some_ne_none _
          · exact .pure fun _ hw => hw.1

theorem handleToken_triple (token events : Nat) :
    Triple (Inv {}) (handleToken token events) (fun _ => Inv {}) (fun _ => Sound) := by
  refine .bind (.read (Q := fun _ => Inv {}) fun _ => id) fun h => ?_
  split
  · exact .pure fun _ => id
  · exact handleEvent_triple events

omit [SerdeJson] in
theorem finishBatch_triple (acceptReady : Bool) :
    Triple (Inv {}) (finishBatch acceptReady) (fun _ => Inv {}) (fun _ => Sound) := by
  have hdone : Triple (Inv {}) (do return shutdownDone (← server)) (fun _ => Inv {})
      (fun _ => Sound) := .bind (.read (Q := fun _ => Inv {}) fun _ => id) fun _ => .pure fun _ => id
  unfold finishBatch
  split
  · exact .bind (acceptConnections_keeps.conseq (fun _ => id) (fun _ _ => id) fun _ _ => inv_sound)
      fun _ => hdone
  · exact hdone

omit [SerdeJson] in
/-- Waiting takes a turn of the script in every pass but the last. -/
theorem reactorWait_keeps : Keeps (Inv {}) reactorWait := by
  have hloop : ∀ n, Triple (fun w => Inv {} w ∧ w.script.length < n) (waitLoop n)
      (fun _ => Inv {}) (fun _ => Inv {}) := by
    intro n
    induction n with
    | zero => exact .of_false fun w hw => Nat.not_lt_zero _ hw.2
    | succ n ih =>
      refine .bind (call_script_triple inv_quiet.call n) fun turn => ?_
      split
      · exact .pure fun _ hw => hw.1
      · rename_i hfault
        refine ih.pre ?_
        rintro w ⟨hw, hn | rfl⟩
        · exact ⟨hw, hn⟩
        · cases hfault
      · exact .fail fun _ hw => hw.1
  refine Triple.bind (Q := fun script w => Inv {} w ∧ w.script = script)
    (.read fun w hw => ⟨hw, rfl⟩) fun script => (hloop _).pre ?_
  rintro w ⟨hw, rfl⟩
  exact ⟨hw, Nat.lt_succ_self _⟩

end events

end Holder

namespace HolderRun
open Program

/-- What holds of a run: the invariant between steps while it goes on, and at the place where
it ended otherwise. It never aborts. -/
structure Safe (r : HolderRun) : Prop where
  running : r.status matches .running → Inv {} r.world
  sound : Sound r.world
  alive : ¬ r.status matches .panicked

theorem safe_proceed {m : Holder Bool} {w : World} {batch : Option (List (Nat × Nat) × Bool)}
    (hm : Triple (Inv {}) m (fun _ => Inv {}) (fun _ => Sound)) (hw : Inv {} w) :
    (proceed batch (m w)).Safe := by
  have h := hm w hw
  revert h
  rcases m w with ⟨⟨_ | _⟩ | error | _, w'⟩
  · exact fun h => ⟨fun _ => h, h.sound rfl, nofun⟩
  · exact fun h => ⟨nofun, h.sound rfl, nofun⟩
  · exact fun h => ⟨nofun, h, nofun⟩
  · exact fun h => h.elim

theorem safe_wait {w : World} (hw : Inv {} w) : (wait w).Safe := by
  have h := Holder.reactorWait_keeps w hw
  unfold wait
  revert h
  rcases Holder.reactorWait w with ⟨ready | error | _, w'⟩
  · exact fun h => ⟨fun _ => h, h.sound rfl, nofun⟩
  · exact fun h => ⟨nofun, h.sound rfl, nofun⟩
  · exact fun h => h.elim

variable [SerdeJson]

theorem safe_step {r r' : HolderRun} {script : List Turn} (h : r.Safe)
    (hstep : r.step script = some r') : r'.Safe := by
  obtain ⟨world, batch, status⟩ := r
  cases status with
  | running =>
    have hw : Inv {} { world with script, failures := [] } := { h.running rfl with }
    rcases batch with _ | ⟨_ | ⟨⟨token, events⟩, rest⟩, acceptReady⟩
    · cases hstep
      exact safe_wait hw
    · cases hstep
      exact safe_proceed (Holder.finishBatch_triple acceptReady) hw
    · cases hstep
      exact safe_proceed (Holder.handleToken_triple token events) hw
  | returned result => cases hstep
  | panicked => cases hstep

end HolderRun

namespace HolderConfig

theorem safe_start (config : HolderConfig) : config.start.Safe := by
  have hinv : Inv {} config.start.world := by
    have hcore : ∀ s, config.start.world.core s = none := fun s => by
      simp [World.core, start, server]
    have hnone : ∀ {α : Type} {a : α}, none ≠ some a := fun h => Option.some_ne_none _ h.symm
    refine ⟨⟨fun fd => ?_, fun _ _ h => absurd h hnone, fun s => ?_, fun _ h => absurd h hnone,
      fun _ h => absurd h hnone, fun _ _ h => absurd h hnone⟩, fun fd s => ?_, fun s core hs => ?_,
      fun fd s hs => ?_, fun fd s n hs => ?_, fun _ h => absurd h List.not_mem_nil,
      fun _ h => absurd h hnone, fun _ h => absurd h List.not_mem_nil, fun s core hs => ?_,
      fun _ _ h => absurd h hnone, fun _ _ _ h => absurd h hnone, trivial⟩
    · simp [World.place, start, server, table, Arbiter.replay, Arbiter.Table.empty]
    · simp [start, server, table, Arbiter.replay, Arbiter.Table.empty]
    · simp only [hcore]
      simp [start, server]
    · rw [hcore] at hs
      cases hs
    · simp [start, server] at hs
    · simp [start, server] at hs
    · rw [hcore] at hs
      cases hs
  exact ⟨fun _ => hinv, hinv.sound rfl, fun hpanic => by cases hpanic⟩

end HolderConfig

variable [SerdeJson]

/-- The states of the holder that runs from its start reach. -/
abbrev HolderReachable (config : HolderConfig) : HolderRun → Prop :=
  Run.Reachable HolderRun.step (· = config.start)

theorem HolderReachable.safe {config : HolderConfig} {r : HolderRun}
    (h : HolderReachable config r) : r.Safe :=
  Run.Along.invariant (fun _ heq => heq ▸ config.safe_start) (fun _ _ _ hs _ => HolderRun.safe_step hs) h

section running

variable {r r' : HolderRun} {script : List Turn}

theorem running_of_step (h : r.step script = some r') : r.status matches .running := by
  obtain ⟨world, batch, status⟩ := r
  cases status with
  | running => rfl
  | returned result => cases h
  | panicked => cases h

/-- Only a run that goes on comes to a state that goes on. -/
theorem running_of_reachable (h : Run.Reachable HolderRun.step (· = r) r')
    (hrunning : r'.status matches .running) : r.status matches .running := by
  revert hrunning
  refine h.invariant (I := fun r' => r'.status matches .running → r.status matches .running)
    (fun _ heq => heq ▸ id) fun s script s' hs _ hstep _ => hs (running_of_step hstep)

end running

end PersistShell

import PersistShell.Holder.Reports
import PersistShell.Holder.Safety
import PersistShell.Holder.Script

/-! Failing system calls. A connection whose read fails is dropped and nothing else changes,
but a failing write to a peer or a failing call on a terminal ends the holder, and a shell that
cannot be started costs the connection that asked for it. -/

namespace PersistShell

/-- Everything but the connection `fd` is as it was. -/
structure OthersKept (fd : Fd) (w w' : World) : Prop where
  runtime : w'.server.runtime = w.server.runtime
  connections : ∀ fd', fd' ≠ fd → w'.server.connections[fd']? = w.server.connections[fd']?
  writers : ∀ s : SessionId, w.server.writers[s]? ≠ some fd →
    w'.server.writers[s]? = w.server.writers[s]?
  controller : w.controllerFd ≠ some fd → w'.server.controller = w.server.controller

/-- Everything but the session `s` is as it was; connections may have more or less to send. -/
structure OtherSessionsKept (s : SessionId) (w w' : World) : Prop where
  sessions : ∀ s', s' ≠ s → w'.server.runtime.sessions[s']? = w.server.runtime.sessions[s']?
  connections : ∀ fd, w'.role fd = w.role fd ∧ w'.place fd = w.place fd
  writers : ∀ s' : SessionId, s' ≠ s → w'.server.writers[s']? = w.server.writers[s']?
  controller : w'.controllerFd = w.controllerFd

/-- A `CreateResp` with an error status is on its way to some connection. -/
def RefusedCreate (w : World) : Prop :=
  ∃ (fd : Fd) (c : Connection) (frame : HolderFrame) (bytes : Bytes) (response : OperationResponse),
    w.server.connections[fd]? = some c ∧ bytes ∈ c.output.chunks ∧
    encodeFrameWithMinor frame c.protocolMinor = .ok bytes ∧ frame.messageType = .createResp ∧
    decodeOperationResponse frame.payload = .ok response ∧ response.status ≠ .ok

/-- A failing call leaves everything else as it was. -/
def Failure.Isolated (f : Failure) (w w' : World) : Prop :=
  match f.call with
  | .readPeer fd | .writePeer fd => OthersKept fd w w'
  | .readPty s | .writePty s => OtherSessionsKept s w w'
  | .openPty s => RefusedCreate w' ∧ OtherSessionsKept s w w'

/-- The calls that failed while one event was handled neither ended the run nor reached
beyond what they were made on. -/
def FaultsIsolated (w : World) (r : HolderRun) : Prop :=
  ∀ f ∈ r.world.failures, r.status matches .running ∧ f.Isolated w r.world

/-- A read from a peer failed, and not from a controller with data connections. -/
def Failure.Harmless (f : Failure) (w : World) : Prop :=
  match f.call with
  | .readPeer fd => w.controllerFd = some fd → ∀ d, w.role d ≠ some .data
  | _ => False

/-- What reading from the peer of `fd` may change. -/
structure Received (fd : Fd) (w w' : World) : Prop where
  runtime : w'.server.runtime = w.server.runtime
  connections : ∀ fd', fd' ≠ fd → w'.server.connections[fd']? = w.server.connections[fd']?
  writers : w'.server.writers = w.server.writers
  controller : w'.server.controller = w.server.controller

section relations
variable {fd : Fd} {a b c : World}

theorem Received.refl (fd : Fd) (w : World) : Received fd w w := ⟨rfl, fun _ _ => rfl, rfl, rfl⟩

theorem Received.trans (h : Received fd a b) (h' : Received fd b c) : Received fd a c :=
  ⟨h'.runtime.trans h.runtime,
    fun fd' hne => (h'.connections fd' hne).trans (h.connections fd' hne),
    h'.writers.trans h.writers, h'.controller.trans h.controller⟩

theorem Received.of_server (h : b.server = a.server) : Received fd a b := by
  refine ⟨?_, fun _ _ => ?_, ?_, ?_⟩ <;> rw [h]

theorem OthersKept.of_received (h : Received fd a b) (h' : OthersKept fd b c) :
    OthersKept fd a c where
  runtime := h'.runtime.trans h.runtime
  connections fd' hne := (h'.connections fd' hne).trans (h.connections fd' hne)
  writers s hs := by
    rw [← h.writers] at hs ⊢
    exact h'.writers s hs
  controller hc := by
    rw [← h.controller]
    refine h'.controller ?_
    rw [World.controllerFd, h.controller]
    exact hc

end relations

namespace Holder
open Program

/-- Wherever `m` ends, it ends in a state that `R` relates to the one it started in. -/
def Leads {α : Type} (R : World → World → Prop) (m : Holder α) : Prop := ∀ w, R w (m w).2

section leads
variable {α β : Type} {fd : Fd}

theorem Leads.bind {m : Holder α} {f : α → Holder β} (hm : Leads (Received fd) m)
    (hf : ∀ a, Leads (Received fd) (f a)) : Leads (Received fd) (m >>= f) := by
  intro w
  have := hm w
  rw [bind_apply]
  revert this
  rcases m w with ⟨a | e | _, w'⟩
  · exact fun h => h.trans (hf a w')
  · exact id
  · exact id

theorem Leads.pure (a : α) : Leads (Received fd) (Pure.pure a : Holder α) :=
  fun w => .refl fd w

theorem Leads.abort : Leads (Received fd) (Program.abort : Holder α) := fun w => .refl fd w

theorem Leads.read (f : World → α) : Leads (Received fd) (Program.read f : Holder α) :=
  fun w => .refl fd w

theorem Leads.unwrap (o : Option α) : Leads (Received fd) (Program.unwrap o : Holder α) := by
  cases o <;> exact fun w => .refl fd w

theorem Leads.lift (r : Except PersistError α) :
    Leads (Received fd) (Program.lift r : Holder α) := by
  cases r <;> exact fun w => .refl fd w

theorem connection_leads : Leads (Received fd) (connection fd) :=
  .bind (.read _) fun _ => .unwrap _

theorem readLoop_leads (fuel : Nat) : Leads (Received fd) (readLoop fd fuel) := by
  induction fuel with
  | zero => exact .abort
  | succ fuel ih =>
    refine .bind (fun w => .of_server ?_) fun turn => ?_
    · obtain ⟨turn, -, hcalled⟩ := called_call w
      exact hcalled.server
    · split
      · exact .pure _
      · exact fun w => .of_server rfl
      · split
        · exact .pure _
        · exact .pure _
        · refine .bind connection_leads fun c => .bind (.lift _) fun r => .bind (fun w => ?_)
            fun _ => .bind ih fun _ => .pure _
          · refine ⟨rfl, fun fd' hne => ?_, rfl, rfl⟩
            simp only [modifyConnection, modifyServer, update_apply]
            rw [NatMap.get_alter, if_neg (Ne.symm hne)]

theorem receiveFrames_leads (events : Nat) : Leads (Received fd) (receiveFrames fd events) := by
  unfold receiveFrames
  split
  · exact .bind connection_leads fun _ => .bind (.read _) fun _ => readLoop_leads _
  · exact .pure _

end leads

section remove
variable {fd : Fd} {w : World}

theorem writers_remove (s : SessionId) (hs : w.server.writers[s]? ≠ some fd) :
    (w.remove fd).server.writers[s]? = w.server.writers[s]? := by
  simp only [World.remove, World.erase, World.detach]
  split
  · rfl
  · split
    · rename_i s' _ hs'
      rw [NatMap.get_erase, if_neg]
      rintro rfl
      exact hs hs'
    · rfl

/-- Removing one connection concerns nobody else. -/
theorem removeConnection_others (w : World) (fd : Fd) :
    OthersKept fd w (removeConnection fd w).2 := by
  obtain ⟨w', hrun, hserver⟩ := removeConnection_run w fd
  rw [hrun]
  refine ⟨?_, fun fd' hne => ?_, fun s hs => ?_, fun _ => ?_⟩
  · change w'.server.runtime = _
    rw [hserver]
  · simp only [World.remove, World.erase, World.detach]
    rw [NatMap.get_erase, if_neg (Ne.symm hne), NatMap.get_alter, if_neg (Ne.symm hne), hserver]
  · have hs' : w'.server.writers[s]? ≠ some fd := by rw [hserver]; exact hs
    rw [writers_remove s hs', hserver]
  · change w'.server.controller = _
    rw [hserver]

theorem forEach_removeConnection (fds : List Fd) (w : World) :
    ∃ w' : World, forEach fds removeConnection w = (.ok (), w') ∧
      ∀ fd, w'.role fd = if fd ∈ fds then none else w.role fd := by
  induction fds generalizing w with
  | nil => exact ⟨w, rfl, fun fd => (if_neg List.not_mem_nil).symm⟩
  | cons fd fds ih =>
    obtain ⟨w₁, hrun, -⟩ := removeConnection_run w fd
    obtain ⟨w', hrest, hrole⟩ := ih (removeConnection fd w).2
    refine ⟨w', ?_, fun fd' => ?_⟩
    · rw [forEach_cons, bind_apply, hrun]
      rw [hrun] at hrest
      exact hrest
    · rw [hrole, role_removeConnection]
      by_cases hmem : fd' ∈ fds
      · rw [if_pos hmem, if_pos (List.mem_cons_of_mem _ hmem)]
      · by_cases heq : fd' = fd
        · subst heq
          rw [if_neg hmem, if_pos rfl, if_pos List.mem_cons_self]
        · rw [if_neg hmem, if_neg heq, if_neg]
          simp [heq, hmem]

/-- What `disconnect` does: the connection goes, and with the controller every data
connection. -/
theorem disconnect_run (w : World) (fd : Fd) :
    ∃ w' : World, disconnect fd w = (.ok (), w') ∧ w'.role fd = none ∧
      (w.controllerFd = some fd → ∀ d, w.role d = some .data → w'.role d = none) ∧
      ((w.controllerFd = some fd → ∀ d, d ≠ fd → w.role d ≠ some .data) → OthersKept fd w w') := by
  have hothers := removeConnection_others w fd
  have hroles := role_removeConnection w fd
  obtain ⟨w₁, hrun, hserver⟩ := removeConnection_run w fd
  rw [hrun] at hothers hroles
  have hcontroller : (w₁.remove fd).server.controller = w.server.controller := by
    change w₁.server.controller = _
    rw [hserver]
  have hself : (w₁.remove fd).role fd = none := by rw [hroles, if_pos rfl]
  unfold disconnect
  rw [bind_apply, hrun]
  dsimp only
  rw [bind_apply]
  simp only [server, read_apply]
  by_cases hc : w.controllerFd = some fd
  · rw [hcontroller, if_pos ((isController_iff w fd).mpr hc), bind_apply]
    simp only [modifyServer, update_apply]
    obtain ⟨w', hrest, hrole⟩ := forEach_removeConnection
      ((w₁.remove fd).server.connections.keys.filter fun fd' =>
        (w₁.remove fd).server.connections[fd']?.any fun c => c.role = .data)
      { w₁.remove fd with server := { (w₁.remove fd).server with controller := none } }
    have hmem : ∀ d, d ∈ ((w₁.remove fd).server.connections.keys.filter fun fd' =>
        (w₁.remove fd).server.connections[fd']?.any fun c => c.role = .data) ↔
        (w₁.remove fd).role d = some .data := by
      intro d
      refine ⟨role_of_mem_data, fun hd => ?_⟩
      obtain ⟨c, hcd, hdata⟩ := Option.map_eq_some_iff.mp hd
      refine List.mem_filter.mpr ⟨(NatMap.mem_keys_iff _ _).mpr ⟨c, hcd⟩, ?_⟩
      rw [hcd]
      simpa using hdata
    refine ⟨w', hrest, ?_, fun _ d hd => ?_, fun hnone => ?_⟩
    · rw [hrole]
      split
      · rfl
      · exact hself
    · rw [hrole]
      by_cases hdfd : d = fd
      · subst hdfd
        split
        · rfl
        · exact hself
      · rw [if_pos]
        rw [hmem, hroles, if_neg hdfd, hd]
    · have hempty : ((w₁.remove fd).server.connections.keys.filter fun fd' =>
          (w₁.remove fd).server.connections[fd']?.any fun c => c.role = .data) = [] := by
        refine List.eq_nil_iff_forall_not_mem.mpr fun d hd => ?_
        rw [hmem, hroles] at hd
        split at hd
        · cases hd
        · exact hnone hc d ‹_› hd
      rw [hempty] at hrest
      cases hrest
      exact ⟨hothers.runtime, hothers.connections, hothers.writers, fun hne => absurd hc hne⟩
  · rw [hcontroller, if_neg (fun h => hc ((isController_iff w fd).mp h))]
    exact ⟨_, rfl, hself, fun h => absurd h hc, fun _ => hothers⟩

end remove

section events
variable {fd : Fd} {w : World}

/-- A failed call that a connection event survived: its connection is gone, and what else is
gone depends on the call. -/
def Survived (fd : Fd) (f : Failure) (w w' : World) : Prop :=
  w'.role fd = none ∧
    ((f.call = .readPeer fd ∧
      (w.controllerFd = some fd → ∀ d, w.role d = some .data → w'.role d = none) ∧
      ((w.controllerFd = some fd → ∀ d, w.role d ≠ some .data) → OthersKept fd w w')) ∨
    ∃ s, f.call = .openPty s ∨ f.call = .writePty s)

theorem Survived.of_server {f : Failure} {v w' : World} (h : Survived fd f v w')
    (hv : v.server = w.server) : Survived fd f w w' := by
  have hrole : ∀ d, v.role d = w.role d := fun d => by rw [World.role, World.role, hv]
  have hcontroller : v.controllerFd = w.controllerFd := by
    rw [World.controllerFd, World.controllerFd, hv]
  obtain ⟨hgone, ⟨hcall, hdata, hothers⟩ | hcall⟩ := h
  · simp only [hrole, hcontroller] at hdata hothers
    exact ⟨hgone, .inl ⟨hcall, hdata, fun h => .of_received (.of_server hv) (hothers h)⟩⟩
  · exact ⟨hgone, .inr hcall⟩

theorem failures_disconnect (w : World) (fd : Fd) :
    (disconnect fd w).2.failures = w.failures := by
  have hreports : Reports (fun _ => False) (disconnect fd) := disconnect_reports
  have h := hreports w
  obtain ⟨w', hrun, -⟩ := disconnect_run w fd
  rw [hrun] at h ⊢
  exact h

theorem Reports.failures {α : Type} {A : IoCall → Prop} {m : Holder α} (h : Reports A m)
    (hw : w.failures = []) : ∀ f ∈ (m w).2.failures, (∃ e, (m w).1 = .err e ∧ A f.call) ∨
      (m w).1 = .panic := by
  intro f hf
  have := h w
  revert this hf
  rcases m w with ⟨a | e | _, w'⟩
  · intro hf h
    rw [h, hw] at hf
    exact absurd hf List.not_mem_nil
  · rintro hf (h | ⟨g, hg, h⟩)
    · rw [h, hw] at hf
      exact absurd hf List.not_mem_nil
    · rw [h, hw] at hf
      cases List.mem_singleton.mp hf
      exact .inl ⟨e, rfl, hg⟩
  · exact fun _ _ => .inr rfl

theorem Reports.ok {α : Type} {A : IoCall → Prop} {m : Holder α} {a : α} {w' : World}
    (h : Reports A m) (hrun : m w = (.ok a, w')) : w'.failures = w.failures := by
  have := h w
  rw [hrun] at this
  exact this

/-- What an event leaves behind of the calls that failed while it was handled. -/
def Aftermath (w : World) : Program.Outcome PersistError Bool × World → Prop
  | (.ok again, w') => ∀ f ∈ w'.failures, again = false ∧
      ∃ fd, w.role fd ≠ none ∧ Survived fd f w w'
  | (.err _, w') => ∀ f ∈ w'.failures, ∀ fd, f.call ≠ .readPeer fd
  | (.panic, _) => True

theorem Reports.aftermath {A : IoCall → Prop} {m : Holder Bool} (h : Reports A m)
    (hA : ∀ c, A c → ∀ fd, c ≠ .readPeer fd) (hw : w.failures = []) : Aftermath w (m w) := by
  have := h.failures hw
  revert this
  rcases m w with ⟨again | e | _, w'⟩
  · intro h f hf
    rcases h f hf with ⟨e, he, -⟩ | he <;> cases he
  · intro h f hf
    rcases h f hf with ⟨_, -, hcall⟩ | he
    · exact hA _ hcall
    · cases he
  · exact fun _ => trivial

variable [SerdeJson]

theorem processFrames_reports (fd : Fd) (frames : List (Nat × HolderFrame)) :
    ∃ process : Holder Unit,
      (forEach frames fun (minor, frame) => processFrame fd minor frame) = process ∧
        Reports (fun c => ∃ s, c = .openPty s ∨ c = .writePty s) process :=
  ⟨_, rfl, .forEach
    (fun _ => processFrame_reports (fun s => ⟨s, .inl rfl⟩) fun s => ⟨s, .inr rfl⟩) _⟩

/-- An event on a connection. -/
theorem handleConnection_failures (fd : Fd) (events : Nat) (hw : w.failures = []) :
    match handleConnection fd events w with
    | (.ok _, w') => ∀ f ∈ w'.failures, Survived fd f w w'
    | (.err _, w') => ∀ f ∈ w'.failures, f.call = .writePeer fd
    | (.panic, _) => True := by
  have hreceive := receiveFrames_reports (A := (· = .readPeer fd)) rfl events
  have hreceived : Received fd w (receiveFrames fd events w).2 := receiveFrames_leads events w
  have hfailures := hreceive.failures hw
  unfold handleConnection
  rw [bind_apply, attempt_apply]
  rcases hrun : receiveFrames fd events w with ⟨⟨frames, peerClosed⟩ | e | _, w₁⟩
  · -- the frames are there: nothing failed so far
    have hw₁ : w₁.failures = [] := (hreceive.ok hrun).trans hw
    obtain ⟨process, hsame, hprocess⟩ := processFrames_reports fd frames
    have hprocessed := hprocess.failures hw₁
    dsimp only
    rw [bind_apply, attempt_apply, hsame]
    rcases hrun₂ : process w₁ with ⟨_ | e | _, w₂⟩
    · have hw₂ : w₂.failures = [] := (hprocess.ok hrun₂).trans hw₁
      dsimp only
      by_cases hclosed : (hasAny events (epollErr ||| epollHup ||| epollRdHup) || peerClosed) = true
      · rw [if_pos hclosed]
        obtain ⟨w₃, hdisconnect, -⟩ := disconnect_run w₂ fd
        have hnone := failures_disconnect w₂ fd
        rw [hdisconnect] at hnone ⊢
        intro f hf
        rw [hnone, hw₂] at hf
        exact absurd hf List.not_mem_nil
      · rw [if_neg hclosed]
        have hflush := (flushConnection_reports (A := (· = .writePeer fd)) rfl events).failures hw₂
        revert hflush
        rcases flushConnection fd events w₂ with ⟨_ | e | _, w₃⟩
        · intro hflush f hf
          rcases hflush f hf with ⟨e, he, -⟩ | he <;> cases he
        · intro hflush f hf
          rcases hflush f hf with ⟨e, -, hcall⟩ | he
          · exact hcall
          · cases he
        · exact fun _ => trivial
    · obtain ⟨w₃, hdisconnect, hrole, -⟩ := disconnect_run w₂ fd
      have hsame := failures_disconnect w₂ fd
      dsimp only
      rw [hdisconnect] at hsame ⊢
      rw [hrun₂] at hprocessed
      intro f hf
      rw [hsame] at hf
      rcases hprocessed f hf with ⟨-, -, hcall⟩ | he
      · exact ⟨hrole, .inr hcall⟩
      · cases he
    · trivial
  · -- the read failed, or gave bytes that are no frames
    obtain ⟨w₂, hdisconnect, hrole, hdata, hothers⟩ := disconnect_run w₁ fd
    have hsame := failures_disconnect w₁ fd
    rw [hrun] at hreceived hfailures
    dsimp only
    rw [hdisconnect] at hsame ⊢
    have hcontroller : w₁.controllerFd = w.controllerFd := by
      rw [World.controllerFd, World.controllerFd, hreceived.controller]
    have hroles : ∀ d, d ≠ fd → w₁.role d = w.role d := fun d hne => by
      rw [World.role, World.role, hreceived.connections d hne]
    intro f hf
    rw [hsame] at hf
    rcases hfailures f hf with ⟨-, -, hcall⟩ | he
    · refine ⟨hrole, .inl ⟨hcall, fun hc d hd => ?_, fun hnone => ?_⟩⟩
      · by_cases hne : d = fd
        · exact hne ▸ hrole
        · exact hdata (hcontroller.trans hc) d ((hroles d hne).trans hd)
      · refine .of_received hreceived (hothers fun hc d hne hd => ?_)
        exact hnone (hcontroller.symm.trans hc) d ((hroles d hne).symm.trans hd)
    · cases he
  · trivial

theorem handleEvent_aftermath (fd : Fd) (events : Nat) (hw : w.failures = []) :
    Aftermath w (handleEvent fd events w) := by
  unfold handleEvent
  rw [bind_apply]
  simp only [server, read_apply]
  by_cases hsocket : fd = w.server.socket
  · rw [if_pos hsocket]
    exact (Reports.pure (A := fun _ => False) false).aftermath (fun _ => False.elim) hw
  rw [if_neg hsocket]
  by_cases hsignals : fd = w.server.signals
  · rw [if_pos hsignals]
    refine (handleSignal_reports (A := fun c => ∃ s, c = .readPty s) fun s => ⟨s, rfl⟩).aftermath ?_ hw
    rintro c ⟨s, rfl⟩ fd' he
    cases he
  rw [if_neg hsignals]
  by_cases hlogs : fd = w.server.logs
  · rw [if_pos hlogs]
    exact (Reports.bind (A := fun _ => False) handleLogFailures_reports fun _ => .pure false).aftermath
      (fun _ => False.elim) hw
  rw [if_neg hlogs]
  by_cases hpty : (w.server.runtime.sessionForPty fd).isSome = true
  · rw [if_pos hpty]
    refine (Reports.bind (handlePty_reports (A := fun c => ∃ s, c = .readPty s ∨ c = .writePty s)
      (fun s => ⟨s, .inl rfl⟩) (fun s => ⟨s, .inr rfl⟩) events) fun _ => .pure false).aftermath ?_ hw
    rintro c ⟨s, rfl | rfl⟩ fd' he <;> cases he
  rw [if_neg hpty]
  by_cases hconnection : w.server.connections.contains fd = true
  · rw [if_pos hconnection]
    obtain ⟨c, hc⟩ := (NatMap.contains_iff _ _).mp hconnection
    have hfd : w.role fd ≠ none := by
      rw [World.role, hc]
      exact Option.some_ne_none _
    have h := handleConnection_failures fd events hw
    rw [bind_apply]
    revert h
    rcases handleConnection fd events w with ⟨_ | e | _, w'⟩
    · exact fun h f hf => ⟨rfl, fd, hfd, h f hf⟩
    · intro h f hf fd' he
      cases (h f hf).symm.trans he
    · exact fun _ => trivial
  · rw [if_neg hconnection]
    exact (Reports.pure (A := fun _ => False) false).aftermath (fun _ => False.elim) hw

theorem handleToken_aftermath (token events : Nat) (hw : w.failures = []) :
    Aftermath w (handleToken token events w) := by
  unfold handleToken
  rw [bind_apply]
  simp only [server, read_apply]
  cases w.server.reactor.fds[token]? with
  | none => exact (Reports.pure (A := fun _ => False) false).aftermath (fun _ => False.elim) hw
  | some fd => exact handleEvent_aftermath fd events hw

end events

end Holder

open Program in
/-- EIO is how a terminal says that its shell is gone; it ends a drain as an empty read
does. -/
theorem Holder.drainLoop_eio (s : SessionId) (fd : Fd) (fuel : Nat) (w : World) (turn : Turn)
    (script : List Turn) :
    drainLoop s fd (fuel + 1) { w with script := { turn with fault := some .io } :: script } =
      drainLoop s fd (fuel + 1) { w with script := { turn with fault := none } :: script } := by
  unfold drainLoop readOutput
  simp only [bind_apply, call, read_apply]
  rcases (List.foldl World.act { w with script } turn.activity).terminals[fd]? with _ | terminal
  · rfl
  · by_cases hempty : terminal.unread = []
    · simp only [if_pos hempty, pure_apply]
    · simp only [if_neg hempty]

/-- The data connections of a controller do not outlive it. -/
theorem harmless_of_othersKept {fd : Fd} {w w' : World} (h : OthersKept fd w w')
    (hfd : w.controllerFd = some fd → w.role fd ≠ some .data)
    (hdata : w.controllerFd = some fd → ∀ d, w.role d = some .data → w'.role d = none) :
    w.controllerFd = some fd → ∀ d, w.role d ≠ some .data := by
  intro hc d hd
  have hne : d ≠ fd := by
    rintro rfl
    exact hfd hc hd
  have hrole : w'.role d = w.role d := by
    rw [World.role, World.role, h.connections d hne]
  rw [hdata hc d hd, hd] at hrole
  cases hrole

/-- What became of a failed call that the run survived. -/
theorem isolated_iff {fd : Fd} {f : Failure} {w w' : World} (hw : Inv {} w)
    (hfd : w.role fd ≠ none) (h : Holder.Survived fd f w w') :
    f.Isolated w w' ↔ f.Harmless w := by
  obtain ⟨hgone, ⟨hcall, hdata, hothers⟩ | ⟨s, hcall | hcall⟩⟩ := h
  · simp only [Failure.Isolated, Failure.Harmless, hcall]
    refine ⟨fun hkept => harmless_of_othersKept hkept (fun hc => ?_) hdata, hothers⟩
    rw [hw.controller fd hc nofun]
    nofun
  · simp only [Failure.Isolated, Failure.Harmless, hcall, iff_false]
    rintro ⟨-, hkept⟩
    exact hfd ((hkept.connections fd).1.symm.trans hgone)
  · simp only [Failure.Isolated, Failure.Harmless, hcall, iff_false]
    intro hkept
    exact hfd ((hkept.connections fd).1.symm.trans hgone)

section step
variable [SerdeJson] {config : HolderConfig} {r r' : HolderRun} {script : List Turn}

/-- Of the calls on connections and terminals that fail in a step, reads from peers do no
harm, unless the peer is a controller with data connections; all others do. -/
theorem faults_isolated_iff {token events : Nat} {rest : List (Nat × Nat)} {acceptReady : Bool}
    (h : HolderReachable config r) (hrunning : r.status matches .running)
    (hbatch : r.batch = some ((token, events) :: rest, acceptReady))
    (hstep : r.step script = some r') :
    FaultsIsolated r.world r' ↔ ∀ f ∈ r'.world.failures, f.Harmless r.world := by
  have hinv := h.safe.running hrunning
  obtain ⟨world, batch, status⟩ := r
  cases status with
  | returned result => cases hrunning
  | panicked => cases hrunning
  | running =>
    cases hbatch
    cases hstep
    have haftermath := Holder.handleToken_aftermath (w := { world with script, failures := [] })
      token events rfl
    have hsafe := Holder.handleToken_triple token events { world with script, failures := [] }
      { hinv with }
    revert haftermath hsafe
    unfold FaultsIsolated
    rcases Holder.handleToken token events { world with script, failures := [] } with
      ⟨again | e | _, w'⟩
    · intro haftermath _
      have hfailed : ∀ f ∈ w'.failures, again = false ∧ (f.Isolated world w' ↔ f.Harmless world) := by
        intro f hf
        obtain ⟨hagain, fd, hfd, hsurvived⟩ := haftermath f hf
        exact ⟨hagain, isolated_iff hinv hfd (hsurvived.of_server rfl)⟩
      cases again with
      | false =>
        refine forall₂_congr fun f hf => ?_
        have hiff := (hfailed f hf).2
        exact ⟨fun hboth => hiff.mp hboth.2, fun hharmless => ⟨rfl, hiff.mpr hharmless⟩⟩
      | true => exact forall₂_congr fun f hf => nomatch (hfailed f hf).1
    · -- the run ends
      intro haftermath _
      refine forall₂_congr fun f hf => ⟨nofun, fun hharmless => ?_⟩
      have hcall := haftermath f hf
      unfold Failure.Harmless at hharmless
      split at hharmless
      · exact absurd ‹_› (hcall _)
      · exact hharmless.elim
    · exact fun _ hsafe => hsafe.elim

end step

/-- The controller is gone when the holder has an answer for it. -/
def Script.brokenPipe : List (List Turn) := opening ++ [[{ ready := [(4, epollOut)] }]]

theorem run_brokenPipe : (Script.run Script.brokenPipe).any (fun r =>
    r.status matches .running && r.batch = some ([(4, epollOut)], false) &&
      (@HolderRun.step Script.json r [{ fault := some .pipe }]).any fun r' =>
        r'.world.failures = [⟨.writePeer 6, .pipe⟩] && !r'.status matches .running) = true := by
  decide +kernel

/-- The holder, and with it every shell, ends because one peer is gone. -/
theorem broken_pipe_ends_run : ¬ ∀ (r r' : HolderRun) (script : List Turn) (token events : Nat)
    (rest : List (Nat × Nat)) (acceptReady : Bool),
    @HolderReachable Script.json sampleConfig r → r.status matches .running →
    r.batch = some ((token, events) :: rest, acceptReady) →
    @HolderRun.step Script.json r script = some r' → FaultsIsolated r.world r' := by
  intro h
  obtain ⟨r, hrun, hcheck⟩ := (Option.any_eq_true _ _).mp run_brokenPipe
  rw [Bool.and_eq_true, Bool.and_eq_true] at hcheck
  obtain ⟨⟨hrunning, hbatch⟩, hnext⟩ := hcheck
  obtain ⟨r', hstep, hends⟩ := (Option.any_eq_true _ _).mp hnext
  rw [Bool.and_eq_true] at hends
  obtain ⟨hfailures, hreturned⟩ := hends
  have hisolated := h r r' _ _ _ _ _ (Script.reachable hrun) hrunning (of_decide_eq_true hbatch) hstep
    ⟨.writePeer 6, .pipe⟩ (by rw [of_decide_eq_true hfailures]; exact List.mem_singleton_self _)
  rw [Bool.not_eq_true', hisolated.1] at hreturned
  cases hreturned

/-- The peer of the data connection resets it. -/
def Script.reset : List (List Turn) := opening ++ [[{ ready := [(6, epollIn)] }]]

theorem run_reset : (Script.run Script.reset).any (fun r =>
    r.status matches .running && r.batch = some ([(6, epollIn)], false) &&
      (@HolderRun.step Script.json r [{ fault := some .connectionReset }]).any fun r' =>
        r'.world.failures = [⟨.readPeer 8, .connectionReset⟩] &&
          r.world.controllerFd ≠ some 8) = true := by
  decide +kernel

theorem faults_isolated_reset : ∃ r r' : HolderRun, r'.world.failures ≠ [] ∧
    FaultsIsolated r.world r' := by
  obtain ⟨r, hrun, hcheck⟩ := (Option.any_eq_true _ _).mp run_reset
  rw [Bool.and_eq_true, Bool.and_eq_true] at hcheck
  obtain ⟨⟨hrunning, hbatch⟩, hnext⟩ := hcheck
  obtain ⟨r', hstep, hend⟩ := (Option.any_eq_true _ _).mp hnext
  rw [Bool.and_eq_true] at hend
  obtain ⟨hfailures, hcontroller⟩ := hend
  have hfailures := of_decide_eq_true hfailures
  refine ⟨r, r', by rw [hfailures]; nofun, ?_⟩
  refine (@faults_isolated_iff Script.json sampleConfig r r' _ _ _ _ _ (Script.reachable hrun)
    hrunning (of_decide_eq_true hbatch) hstep).mpr fun f hf => ?_
  rw [hfailures] at hf
  cases List.mem_singleton.mp hf
  exact fun hc => absurd hc (of_decide_eq_true hcontroller)

end PersistShell

import PersistShell.Holder.Moved
import PersistShell.Holder.Registrations
import PersistShell.Holder.Safety

/-! Descriptors are opened for sessions and connections and get their tokens, and those of
sessions that exit lose them. Every step of the holder keeps the tokens in order. -/

namespace PersistShell
namespace Holder
open Program

variable {seats stale : Fd → Prop} {base : HolderServer} {fd : Fd} {frame : HolderFrame}
  {minor : Nat}

section handshakes

/-- The seat of the controller is given to a connection. -/
theorem Steady.seat {c : Controller} (h : HolderServer) (hfd : seats c.fd) :
    Steady seats h { h with controller := some c } where
  own _ := Iff.rfl
  reactor := rfl
  serves _ := Iff.rfl
  hosts _ := Iff.rfl
  writers _ _ := .inl
  controller c' hc' := by
    cases hc'
    exact .inr hfd

theorem inWeb_updateConnection (f : Connection → Connection) :
    Leaves (InWeb seats stale base) (updateConnection fd f) :=
  Leaves.bind leaves_connection fun _ => Leaves.update fun w hw =>
    Web.steady hw (Steady.connection w.server fd f)

theorem inWeb_seat {c : Controller} (hfd : seats c.fd) :
    Leaves (InWeb seats stale base) (modifyServer fun h => { h with controller := some c }) :=
  Leaves.update fun w hw => Web.steady hw (Steady.seat w.server hfd)

theorem leaves_generation {J : World → Prop} : Leaves J generation :=
  Leaves.bind leaves_server fun _ => Leaves.pure _

variable [SerdeJson]

theorem inWeb_handleControlHello (hfd : seats fd) :
    Leaves (InWeb seats stale base) (handleControlHello fd minor frame) := by
  have hJ := closed_inWeb seats stale base
  refine Leaves.bind (Leaves.reject _ _) fun _ => Leaves.bind hJ.leaves_dropClosedController fun _ => ?_
  refine Leaves.bind (leaves_protocol _ _) fun hello => Leaves.bind leaves_connection fun c => ?_
  refine Leaves.bind leaves_server fun h => Leaves.bind leaves_generation fun generation => ?_
  refine Leaves.bind hJ.leaves_queueFrame fun _ => ?_
  split
  · exact Leaves.bind (inWeb_updateConnection _) fun _ => inWeb_seat hfd
  · exact inWeb_updateConnection _

theorem inWeb_handleDataHello : Leaves (InWeb seats stale base) (handleDataHello fd minor frame) := by
  have hJ := closed_inWeb seats stale base
  refine Leaves.bind (leaves_protocol _ _) fun hello => Leaves.bind leaves_connection fun c => ?_
  refine Leaves.bind leaves_server fun h => ?_
  -- the reply is queued in both cases, and the connection changes its role or closes
  have hreply : ∀ accepted : Bool, ∀ reply : Nat → HolderFrame, Leaves (InWeb seats stale base) (do
      let generation ← generation
      queueFrame fd (reply generation)
      if accepted then updateConnection fd fun c => { c with role := .data }
      else updateConnection fd fun c => { c with closeAfterFlush := true }) := by
    intro accepted reply
    refine Leaves.bind leaves_generation fun _ => Leaves.bind hJ.leaves_queueFrame fun _ => ?_
    split <;> exact inWeb_updateConnection _
  dsimp only
  cases dataHelloAccepted h c.peer hello minor with
  | true => exact Leaves.bind (inWeb_updateConnection _) fun _ => hreply true _
  | false => exact hreply false _

theorem inWeb_handleHello (hfd : seats fd) :
    Leaves (InWeb seats stale base) (handleHello fd minor frame) := by
  unfold handleHello
  split
  · exact inWeb_handleControlHello hfd
  · exact inWeb_handleDataHello
  · exact Leaves.fail _

theorem inWeb_handleCapability :
    Leaves (InWeb seats stale base) (handleCapability fd minor frame) := by
  have hJ := closed_inWeb seats stale base
  refine Leaves.bind leaves_connection fun c => Leaves.bind (Leaves.reject _ _) fun _ => ?_
  refine Leaves.bind (leaves_protocol _ _) fun request => Leaves.bind (Leaves.reject _ _) fun _ => ?_
  refine Leaves.read_bind fun w hw => ?_
  cases hcontroller : w.server.controller.filter fun controller => controller.fd = fd with
  | none => exact Leaves.fail _
  | some controller =>
    have hseat := hJ.controller hw (Option.filter_eq_some_iff.mp hcontroller).1
    refine Leaves.bind (Leaves.reject _ _) fun _ => Leaves.bind (inWeb_seat hseat) fun _ => ?_
    refine Leaves.bind (inWeb_updateConnection _) fun _ => ?_
    exact Leaves.bind leaves_generation fun _ => hJ.leaves_queueFrame

end handshakes

end Holder

/-- Where the web is drawn tight: nothing can be disconnected but what is connected. -/
structure Tight (base : HolderServer) (w : World) : Prop where
  inv : Inv {} w
  web : InWeb w.server.Serves (fun _ => False) base w

/-- What a handler that starts in `w` keeps of the web. -/
abbrev Around (base : HolderServer) (w : World) : World → Prop :=
  InWeb w.server.Serves (fun _ => False) base

section tight
variable {seats : Fd → Prop} {base : HolderServer} {w : World}

/-- Between two events the writers and the controller are connected. -/
theorem Inv.tight (hinv : Inv {} w) (hweb : InWeb seats (fun _ => False) base w) :
    Tight base w := by
  have hserves : ∀ {fd role}, w.role fd = some role → w.server.Serves fd := fun h => by
    rw [Holder.serves_iff, h]
    exact Option.some_ne_none _
  refine ⟨hinv, { hweb with
    seated := fun _ => id
    writers := fun s fd hs => ?_
    controller := fun c hc => ?_
    apart := fun fd hfd => hweb.apart fd (hweb.seated fd hfd)
    aside := nofun }⟩
  · rw [hinv.holder] at hs
    exact hserves (hinv.data fd s (coherent_table _ s fd hs))
  · refine hserves (hinv.controller c.fd ?_ nofun)
    rw [World.controllerFd, hc]
    rfl

end tight

/-- A descriptor that is not the holder's. -/
def HolderServer.Free (h : HolderServer) (fd : Fd) : Prop :=
  ¬ h.Owns fd ∧ ¬ h.Serves fd ∧ ¬ h.Hosts fd

/-- A session was put into the runtime, with a terminal that has no token yet. -/
structure Opened (h : HolderServer) (fd : Fd) (h' : HolderServer) : Prop where
  free : h.Free fd
  runtime : h' = { h with runtime := h'.runtime }
  hosts : ∀ fd', h'.Hosts fd' ↔ fd' = fd ∨ h.Hosts fd'

section tokens
variable {seats : Fd → Prop} {base h h' : HolderServer} {fd : Fd}

/-- A free descriptor has no token. -/
theorem Wired.token_of_free (hw : Wired (fun _ => False) h) (hfree : h.Free fd) :
    h.reactor.tokens[fd]? = none := by
  by_contra htoken
  rcases hw.known fd htoken with hown | hserves | hhosts | hstale
  · exact hfree.1 hown
  · exact hfree.2.1 hserves
  · exact hfree.2.2 hhosts
  · exact hstale

theorem Web.later_enrolled (hw : Web seats (fun _ => False) base h)
    (hlt : h.reactor.registrations.length + 1 < 2 ^ 64) :
    base.reactor.handles.Later (h.reactor.enrolled fd).handles := by
  have hbefore := Nat.lt_of_succ_lt hlt
  rw [Reactor.handles_enrolled ((hw.wired hbefore).nextToken_eq hlt)]
  exact (hw.later hbefore).trans (Handles.later_bind _ _)

/-- A new terminal is apart from the connections and from what the holder owns. -/
theorem Web.apart_of_opened (hw : Web seats (fun _ => False) base h) (hfree : h.Free fd)
    (hhosts : ∀ fd', h'.Hosts fd' ↔ fd' = fd ∨ h.Hosts fd') (hfd : ¬ seats fd) :
    (∀ fd', seats fd' → ¬ h.Owns fd' ∧ ¬ h'.Hosts fd') ∧ ∀ fd', h'.Hosts fd' → ¬ h.Owns fd' := by
  refine ⟨fun fd' hfd' => ⟨(hw.apart fd' hfd').1, fun hhost => ?_⟩, fun fd' hhost => ?_⟩
  · rcases (hhosts fd').mp hhost with rfl | hhost
    · exact hfd hfd'
    · exact (hw.apart fd' hfd').2 hhost
  · rcases (hhosts fd').mp hhost with rfl | hhost
    · exact hfree.1
    · exact hw.hosts fd' hhost

/-- The terminal of a new session gets its token. -/
theorem Web.host (hw : Web seats (fun _ => False) base h) (ho : Opened h fd h') (hfd : ¬ seats fd) :
    Web seats (fun _ => False) base { h' with reactor := h'.reactor.enrolled fd } := by
  obtain ⟨hfree, hruntime, hhosts⟩ := ho
  rw [hruntime]
  obtain ⟨hapart, hsides⟩ := hw.apart_of_opened hfree hhosts hfd
  refine ⟨hw.own, hw.seated, hw.writers, hw.controller, hapart, hsides, nofun,
    Nat.le_succ_of_le hw.grown, fun hlt => ?_, fun hlt => ?_⟩
  · have hwired := hw.wired (Nat.lt_of_succ_lt hlt)
    refine hwired.enroll hlt rfl (fun _ => Iff.rfl) (fun _ _ => Iff.rfl) (fun fd' hne => ?_)
      (.inr ((hhosts fd).mpr (.inl rfl))) (hwired.token_of_free hfree)
    exact (hhosts fd').trans (or_iff_right hne)
  · exact hw.later_enrolled hlt

/-- The terminal of a new session gets no token, when epoll refuses it. -/
theorem Web.refuse (hw : Web seats (fun _ => False) base h) (ho : Opened h fd h')
    (hfd : ¬ seats fd) :
    Web seats (fun _ => False) base { h' with reactor := h'.reactor.asked fd } := by
  obtain ⟨hfree, hruntime, hhosts⟩ := ho
  rw [hruntime]
  obtain ⟨hapart, hsides⟩ := hw.apart_of_opened hfree hhosts hfd
  refine ⟨hw.own, hw.seated, hw.writers, hw.controller, hapart, hsides, nofun,
    Nat.le_succ_of_le hw.grown, fun hlt => ?_, fun hlt => ?_⟩
  · exact (hw.wired (Nat.lt_of_succ_lt hlt)).ask hlt rfl (fun _ => Iff.rfl) (fun _ => Iff.rfl)
      fun fd' hhost => (hhosts fd').mpr (.inr hhost)
  · exact (hw.later (Nat.lt_of_succ_lt hlt)).trans (Handles.later_issue _)

/-- A new connection gets its token. -/
theorem Web.serve {c : Connection} (hw : Web seats (fun _ => False) base h) (hfree : h.Free fd) :
    Web (fun fd' => seats fd' ∨ fd' = fd) (fun _ => False) base { h with
      reactor := h.reactor.enrolled fd
      connections := h.connections.insert fd c } := by
  have hserves : ∀ fd', ((h.connections.insert fd c)[fd']? ≠ none) ↔ fd' = fd ∨ h.Serves fd' := by
    intro fd'
    rw [NatMap.get_insert]
    split
    · simp [*]
    · rename_i hne
      exact (or_iff_right (Ne.symm hne)).symm
  refine ⟨hw.own, fun fd' hfd' => ?_, fun s fd' hs => .inl (hw.writers s fd' hs),
    fun c hc => .inl (hw.controller c hc), ?_, hw.hosts, nofun, Nat.le_succ_of_le hw.grown,
    fun hlt => ?_, fun hlt => hw.later_enrolled hlt⟩
  · rcases (hserves fd').mp hfd' with heq | hserve
    · exact .inr heq
    · exact .inl (hw.seated fd' hserve)
  · rintro fd' (hfd' | rfl)
    · exact hw.apart fd' hfd'
    · exact ⟨hfree.1, hfree.2.2⟩
  · have hwired := hw.wired (Nat.lt_of_succ_lt hlt)
    refine hwired.enroll hlt rfl (fun _ => Iff.rfl) (fun fd' hne => ?_) (fun _ _ => Iff.rfl)
      (.inl ((hserves fd).mpr (.inl rfl))) (hwired.token_of_free hfree)
    exact (hserves fd').trans (or_iff_right hne)

end tokens

namespace Holder
open Program

section openings
variable {base : HolderServer} {fd : Fd} {w : World} {frame : HolderFrame} {minor : Nat}

theorem epollControl_run (fd : Fd) (writable : Bool) (w : World) : ∃ w' : World,
    w'.server = w.server ∧ (epollControl fd writable w = (.ok (), w') ∨
      ∃ e, epollControl fd writable w = (.err e, w')) := by
  obtain ⟨turn, hturn, hcalled⟩ := called_call w
  rcases hrun : call w with ⟨r, w'⟩
  rw [hrun] at hturn hcalled
  cases hturn
  unfold epollControl control
  rw [bind_apply, bind_apply, hrun]
  dsimp only
  cases turn.fault with
  | none =>
    exact ⟨{ w' with interest := w'.interest.insert fd writable }, hcalled.server, .inl rfl⟩
  | some source => exact ⟨w', hcalled.server, .inr ⟨_, rfl⟩⟩

/-- A registration is asked for; epoll takes it or the call fails. -/
theorem reactorAdd_run (fd : Fd) (writable : Bool) (w : World) : ∃ w' : World,
    (reactorAdd fd writable w = (.ok (), w') ∧
      w'.server = { w.server with reactor := w.server.reactor.enrolled fd }) ∨
    ∃ e, reactorAdd fd writable w = (.err e, w') ∧
      w'.server = { w.server with reactor := w.server.reactor.asked fd } := by
  obtain ⟨w', hserver, hrun | ⟨e, hrun⟩⟩ := epollControl_run fd writable
    { w with server := { w.server with reactor := w.server.reactor.asked fd } }
  · refine ⟨{ w' with server := { w.server with reactor := w.server.reactor.enrolled fd } },
      .inl ⟨?_, rfl⟩⟩
    change (epollControl fd writable >>= _)
      { w with server := { w.server with reactor := w.server.reactor.asked fd } } = _
    rw [bind_apply, hrun]
    simp only [modifyReactor, modifyServer, update_apply, hserver]
    rfl
  · refine ⟨w', .inr ⟨e, ?_, hserver⟩⟩
    change (epollControl fd writable >>= _)
      { w with server := { w.server with reactor := w.server.reactor.asked fd } } = _
    rw [bind_apply, hrun]

/-- What the invariant knows of the state of the server that the handler started with. -/
def Started (w w' : World) : Prop := Inv {} w' ∧ w'.server = w.server

theorem started_called : CallClosed (Started w) := fun _ _ hcalled hw' =>
  ⟨hw'.1.quiet hcalled.quiet, hcalled.server.trans hw'.2⟩

/-- A descriptor that is not open is free. -/
theorem free_freshFd {w' : World} (hw' : Started w w') (suggested : Fd) :
    w.server.Free (w'.freshFd suggested) := by
  have hopen := w'.isOpen_freshFd suggested
  obtain ⟨hinv, hserver⟩ := hw'
  rw [← hserver]
  refine ⟨fun hown => ?_, fun hserves => ?_, fun hhosts => ?_⟩
  · simp only [World.isOpen, Bool.or_eq_false_iff, decide_eq_false_iff_not] at hopen
    rcases hown with h | h | h
    · exact hopen.1.1.1.1 h
    · exact hopen.1.1.1.2 h
    · exact hopen.1.1.2 h
  · exact (serves_iff w' _).mp hserves (role_of_not_open hopen)
  · obtain ⟨s, hs⟩ := Option.ne_none_iff_exists'.mp hhosts
    obtain ⟨t, ht, -⟩ := hinv.terminal _ s hs
    rw [terminal_of_not_open hopen] at ht
    cases ht

theorem within_openSession {J : World → Prop} (s : SessionId) (hJ : ∀ w', w'.server = w.server → J w') :
    Within (Started w) (openSession s)
      (fun pty w' => w'.server = w.server ∧ w.server.Free pty.masterFd) J := by
  refine Within.bind (within_called started_called) fun turn => ?_
  cases turn.fault with
  | some source => exact fun w' hw' => hJ _ hw'.2
  | none => exact fun w' hw' => ⟨hw'.2, free_freshFd hw' _⟩

/-- A session that is created has a terminal under a free descriptor. -/
theorem within_create {J : World → Prop} (request : CreateSessionRequest)
    (hJ : ∀ w', w'.server = w.server → J w') :
    Within (Started w) (create request)
      (fun r w' => match r.2 with
        | none => w'.server = w.server
        | some fd => Opened w.server fd w'.server) J := by
  refine Within.bind (Within.read (Q := fun _ => Started w) fun _ => id) fun h => ?_
  dsimp only
  split
  · exact Within.pure fun _ hw' => hw'.2
  · split
    · exact Within.pure fun _ hw' => hw'.2
    · refine Within.bind (within_openSession _ hJ) fun pty => ?_
      have hcalled : CallClosed fun w' => w'.server = w.server ∧ w.server.Free pty.masterFd :=
        fun _ _ hcalled hw' => ⟨hcalled.server.trans hw'.1, hw'.2⟩
      refine Within.bind (Q := fun _ w' => w'.server = w.server ∧ w.server.Free pty.masterFd)
        (Within.bind (within_called hcalled) fun _ => Within.pure fun _ => id) fun now => ?_
      refine Within.bind (Within.unwrap (Q := fun _ w' => w'.server = w.server ∧
        w.server.Free pty.masterFd) (fun _ _ _ => id) fun w' hw' => hJ w' hw'.1) fun ring => ?_
      rintro w' ⟨hserver, hfree⟩
      refine ⟨hfree, by rw [← hserver], fun fd' => ?_⟩
      rw [← hserver]
      change (w'.server.runtime.ptyToSession.insert _ _)[fd']? ≠ none ↔ _
      rw [NatMap.get_insert]
      split
      · simp [*]
      · rename_i hne
        exact (or_iff_right (Ne.symm hne)).symm

variable [SerdeJson]

theorem within_handleCreate (hw : Tight base w) :
    Within (Started w) (handleCreate fd minor frame) (fun _ => Around base w) (Around base w) := by
  have hsame : ∀ w' : World, w'.server = w.server → Around base w w' := fun w' h => by
    rw [Around, InWeb, h]
    exact hw.web
  have hJ := closed_inWeb w.server.Serves (fun _ => False) base
  refine Within.bind (Within.lift (Q := fun _ => Started w) (fun _ _ _ => id) fun w' hw' =>
    hsame w' hw'.2) fun request => Within.bind (within_create request hsame) fun r => ?_
  rcases r with ⟨response, _ | ptyFd⟩
  · exact Within.of_leaves hJ.leaves_operationResponse hsame
  · refine Within.bind (Q := fun _ => Around base w) (fun w' ho => ?_) fun _ =>
      Within.of_leaves hJ.leaves_operationResponse fun _ => id
    have ho : Opened w.server ptyFd w'.server := ho
    obtain ⟨w'', ⟨hrun, hserver⟩ | ⟨e, hrun, hserver⟩⟩ := reactorAdd_run ptyFd false w'
    · rw [hrun]
      change InWeb _ _ _ w''
      rw [InWeb, hserver]
      exact hw.web.host ho ho.free.2.1
    · rw [hrun]
      change InWeb _ _ _ w''
      rw [InWeb, hserver]
      exact hw.web.refuse ho ho.free.2.1

theorem within_handleControl (hw : Tight base w) :
    Within (Started w) (handleControl fd minor frame) (fun _ => Around base w) (Around base w) := by
  have hsame : ∀ w', Started w w' → Around base w w' := fun w' h => by
    rw [Around, InWeb, h.2]
    exact hw.web
  have hJ := closed_inWeb w.server.Serves (fun _ => False) base
  unfold handleControl
  split
  · exact Within.of_leaves inWeb_handleCapability hsame
  · refine Within.bind (Q := fun _ => Started w) (Within.bind (Within.read (Q := fun _ => Started w)
      fun _ => id) fun h => Within.unwrap (fun _ _ _ => id) hsame) fun c => ?_
    refine Within.bind ((Within.reject hsame _ _).post fun _ _ hw' => hw'.1) fun _ => ?_
    split
    · exact Within.of_leaves hJ.leaves_handleInventory hsame
    · exact within_handleCreate hw
    · exact Within.of_leaves hJ.leaves_handleClose hsame
    · exact Within.of_leaves hJ.leaves_handleKill hsame
    · exact Within.of_leaves hJ.leaves_handleGetExitContext hsame
    · exact Within.of_leaves hJ.leaves_handleRetireExited hsame
    · split
      · exact Within.of_leaves hJ.leaves_handleShutdownAll hsame
      · exact Within.fail hsame
    · exact Within.fail hsame

theorem around_processFrame (hw : Tight base w) (hfd : w.role fd ≠ none) :
    Around base w (processFrame fd minor frame w).2 := by
  have hserves := (serves_iff w fd).mpr hfd
  obtain ⟨c, hc⟩ := exists_of_role hfd
  rw [processFrame_run hc]
  cases c.role with
  | pending => exact inWeb_handleHello hserves w hw.web
  | control => exact (within_handleControl hw).leaves (fun _ _ => id) ⟨hw.inv, rfl⟩
  | data =>
    have hJ := closed_inWeb w.server.Serves (fun _ => False) base
    exact Leaves.bind (Leaves.reject _ _) (fun _ => hJ.leaves_handleData hserves) w hw.web

end openings

section exits
variable {seats stale : Fd → Prop} {base : HolderServer} {w : World} [SerdeJson]

omit [SerdeJson] in
theorem inWeb_dropPty {w' : World} {exited : ExitedSession} (hw' : InWeb seats stale base w')
    (hfd : ¬ seats exited.ptyFd ∧ ¬ base.Owns exited.ptyFd) :
    InWeb seats (fun fd => fd = exited.ptyFd ∨ stale fd) base (dropPty exited w').2 := by
  rw [dropPty_run]
  refine Web.drop (h := w'.server) hw' rfl (fun fd => ?_) ⟨hfd.1, fun h => hfd.2 ((hw'.own _).mp h)⟩
  change (w'.server.runtime.ptyToSession.erase _)[fd]? ≠ none ↔ _
  rw [NatMap.get_erase]
  split
  · simp [*]
  · rename_i hne
    exact (and_iff_right (Ne.symm hne)).symm

/-- All terminals of the shells that are gone are dropped, and their tokens are still there. -/
theorem within_reapExited (hw : Tight base w) :
    Within (fun w' => Inv { ptys := some fun fd => w.server.runtime.ptyToSession[fd]? } w' ∧
        Around base w w') reapExited
      (fun exited => InWeb w.server.Serves (· ∈ exited.map (·.ptyFd)) base) (fun _ => True) := by
  refine Within.bind (Within.read (Q := fun _ w' =>
    Inv { ptys := some fun fd => w.server.runtime.ptyToSession[fd]? } w' ∧ Around base w w')
    fun _ => id) fun h => ?_
  have hJ := closed_inWeb w.server.Serves (fun _ => False) base
  refine Within.bind ((pollSessions_triple _).within_leaves (hJ.leaves_pollSessions _)
    fun _ _ => trivial) fun exited => ?_
  have hapart : ∀ e : ExitedSession, w.server.runtime.ptyToSession[e.ptyFd]? = some e.sessionId →
      ¬ w.server.Serves e.ptyFd ∧ ¬ base.Owns e.ptyFd := by
    intro e he
    have hhost : w.server.Hosts e.ptyFd := by
      rw [HolderServer.Hosts, he]
      exact Option.some_ne_none _
    exact ⟨fun hserve => (hw.web.apart _ hserve).2 hhost,
      fun hown => hw.web.hosts _ hhost ((hw.web.own _).mpr hown)⟩
  refine Within.bind (Q := fun _ => InWeb w.server.Serves (· ∈ exited.map (·.ptyFd)) base) ?_
    fun _ => Within.pure fun _ => id
  -- the sessions before the current one are dropped
  refine ((Within.forEach (I := fun left w' => (∀ e ∈ exited,
      w.server.runtime.ptyToSession[e.ptyFd]? = some e.sessionId) ∧ ∃ dropped,
      exited = dropped ++ left ∧ InWeb w.server.Serves (· ∈ dropped.map (·.ptyFd)) base w')
      (fun e left w' hw' => ?_) exited).conseq ?_ ?_)
  · obtain ⟨hptys, dropped, rfl, hweb⟩ := hw'
    have hdrop := inWeb_dropPty hweb (hapart e (hptys e (by simp)))
    rw [dropPty_run] at hdrop ⊢
    refine ⟨hptys, dropped ++ [e], by simp, ?_⟩
    convert hdrop using 2
    simp [or_comm]
  · rintro w' ⟨⟨-, hptys, -⟩, hweb⟩
    refine ⟨hptys, [], rfl, ?_⟩
    convert hweb using 2
    simp
  · rintro - w' ⟨-, dropped, hall, hweb⟩
    rw [List.append_nil] at hall
    rw [hall]
    exact hweb

/-- The tokens of terminals that were dropped are taken back one after another. -/
theorem within_announceExit (e : ExitedSession) (left : List ExitedSession) :
    Within (InWeb seats (· ∈ (e :: left).map (·.ptyFd)) base) (announceExit e)
      (fun _ => InWeb seats (· ∈ left.map (·.ptyFd)) base) (fun _ => True) := by
  refine ((closed_inWeb seats _ base).within_announceExit ?_).weaken fun _ _ => trivial
  intro w hw
  obtain ⟨w', hrun, hserver⟩ := reactorRemove_run e.ptyFd w
  rw [hrun]
  change InWeb _ _ _ w'
  rw [InWeb, hserver]
  refine Web.collect hw (by simp) (fun fd' hfd' => ?_) fun fd' hne hfd' => ?_
  · exact List.mem_cons_of_mem _ hfd'
  · exact (List.mem_cons.mp hfd').resolve_left hne

/-- After one SIGCHLD no token is left of a terminal that was dropped. -/
theorem within_handleChild (hw : Tight base w) :
    Within (· = w) handleChild (fun _ => Around base w) (fun _ => True) := by
  have hJ := closed_inWeb w.server.Serves (fun _ => False) base
  let p : Fd → Option SessionId := fun fd => w.server.runtime.ptyToSession[fd]?
  have hstart : Within (fun w' => Inv { ptys := some p } w' ∧ Around base w w')
      (forEach w.server.runtime.ptyFds drainAndPublish)
      (fun _ w' => Inv { ptys := some p } w' ∧ Around base w w') (fun _ => True) := by
    refine Within.forEach (I := fun _ w' => Inv { ptys := some p } w' ∧ Around base w w')
      (fun fd _ => ?_) _
    refine ((drainAndPublish_triple fd).within_leaves hJ.leaves_drainAndPublish
      fun _ _ => trivial).post fun _ w' hw' => ⟨{ hw'.1 with dried := nofun }, hw'.2⟩
  refine Within.read_bind fun w' hw' => ?_
  cases hw'
  refine Within.bind (hstart.pre ?_) fun _ => Within.bind (within_reapExited hw) fun exited => ?_
  · rintro w' rfl
    refine ⟨{ hw.inv with ptys := fun q hq fd => ?_ }, hw.web⟩
    cases hq
    rfl
  · refine (Within.forEach (I := fun left => InWeb w.server.Serves (· ∈ left.map (·.ptyFd)) base)
      within_announceExit exited).post fun _ w' hw' => ?_
    rw [Around]
    convert hw' using 2
    simp

end exits

section steps
variable {base : HolderServer} {fd : Fd} {frame : HolderFrame} {minor : Nat} [SerdeJson]

/-- A connection is at work, and it is there. -/
def TightServed (base : HolderServer) (fd : Fd) (w : World) : Prop := Tight base w ∧ w.role fd ≠ none

/-- A connection may be gone, but nothing else has taken its place. -/
def Loose (base : HolderServer) (fd : Fd) (w : World) : Prop :=
  Inv {} w ∧ ∃ seats, seats fd ∧ InWeb seats (fun _ => False) base w

omit [SerdeJson] in
theorem TightServed.loose {w : World} (hw : TightServed base fd w) : Loose base fd w :=
  ⟨hw.1.inv, _, (serves_iff w fd).mpr hw.2, hw.1.web⟩

omit [SerdeJson] in
/-- A part of a connection event. -/
theorem tightServed_triple {α : Type} {m : Holder α}
    (h : Triple (Served fd) m (fun _ => Served fd) (fun _ => Inv {}))
    (hweb : ∀ w, TightServed base fd w → Around base w (m w).2) :
    Triple (TightServed base fd) m (fun _ => TightServed base fd) (fun _ => Loose base fd) := by
  intro w hw
  have hinv := h w ⟨hw.1.inv, hw.2⟩
  have hweb := hweb w hw
  revert hinv hweb
  rcases m w with ⟨a | e | _, w'⟩
  · exact fun hinv hweb => ⟨hinv.1.tight hweb, hinv.2⟩
  · exact fun hinv hweb => ⟨hinv, _, (serves_iff w fd).mpr hw.2, hweb⟩
  · exact fun hinv _ => hinv

omit [SerdeJson] in
/-- The end of an event. -/
theorem tight_triple {P P' : World → Prop} {E : PersistError → World → Prop} {α : Type}
    {m : Holder α} (h : Triple P m (fun _ => Inv {}) E) (hP : ∀ w, P' w → P w)
    (hweb : ∀ w, P' w → ∃ seats, Within (· = w) m
      (fun _ => InWeb seats (fun _ => False) base) (fun _ => True)) :
    Triple P' m (fun _ => Tight base) (fun _ _ => True) := by
  intro w hw
  have hinv := h w (hP w hw)
  obtain ⟨seats, hweb⟩ := hweb w hw
  have hweb := hweb w rfl
  revert hinv hweb
  rcases m w with ⟨a | e | _, w'⟩
  · exact fun hinv hweb => hinv.tight hweb
  · exact fun _ _ => trivial
  · exact fun hinv _ => hinv

/-- What a part of an event that opens nothing leaves of the web. -/
theorem around_of_closed {α : Type} {m : Holder α} {w : World} (hw : Tight base w)
    (hm : ∀ {J}, Closed w.server.Serves J → Leaves J m) :
    ∃ seats, Within (· = w) m (fun _ => InWeb seats (fun _ => False) base) (fun _ => True) := by
  have hleaves := hm (closed_inWeb w.server.Serves (fun _ => False) base)
  have hend := (Within.of_leaves hleaves fun _ => id).weaken fun _ _ => trivial
  exact ⟨_, hend.pre fun _ h => h ▸ hw.web⟩

omit [SerdeJson] in
theorem disconnect_tight :
    Triple (Loose base fd) (disconnect fd) (fun _ => Tight base) (fun _ _ => True) := by
  rintro w ⟨hinv, seats, hfd, hweb⟩
  have hinv := disconnect_keeps (E := fun _ _ => True) fd w hinv
  have hweb := inWeb_disconnect hfd hweb
  revert hinv hweb
  rcases disconnect fd w with ⟨a | e | _, w'⟩
  · exact fun hinv hweb => hinv.tight hweb
  · exact fun _ _ => trivial
  · exact fun hinv _ => hinv

theorem handleConnection_tight (events : Nat) :
    Triple (TightServed base fd) (handleConnection fd events) (fun _ => Tight base)
      (fun _ _ => True) := by
  have hreceive : Triple (TightServed base fd) (receiveFrames fd events)
      (fun _ => TightServed base fd) (fun _ => Loose base fd) := by
    refine tightServed_triple ((receiveFrames_keeps events).conseq (fun _ => id) (fun _ _ => id)
      fun _ _ hw => hw.1) fun w hw => ?_
    exact (closed_inWeb w.server.Serves _ base).leaves_receiveFrames events w hw.1.web
  have hprocess : ∀ minor frame, Triple (TightServed base fd) (processFrame fd minor frame)
      (fun _ => TightServed base fd) (fun _ => Loose base fd) := fun minor frame =>
    tightServed_triple processFrame_triple fun w hw => around_processFrame hw.1 hw.2
  have hflush : Triple (TightServed base fd) (flushConnection fd events) (fun _ => Tight base)
      (fun _ _ => True) := by
    refine tight_triple (flushConnection_keeps events) (fun w hw => ⟨hw.1.inv, hw.2⟩) fun w hw =>
      around_of_closed hw.1 fun hJ => ?_
    exact hJ.leaves_flushConnection ((serves_iff w fd).mpr hw.2) events
  refine .bind (.attempt hreceive) fun r => ?_
  rcases r with error | ⟨frames, peerClosed⟩
  · exact disconnect_tight
  · refine .bind (.attempt (Q := fun _ => TightServed base fd) (E := fun _ => Loose base fd)
      (Triple.forEach (I := fun _ => TightServed base fd) (fun _ _ => hprocess _ _) _)) fun r => ?_
    cases r with
    | error e => exact disconnect_tight
    | ok _ =>
      dsimp only
      split
      · exact disconnect_tight.pre fun _ => TightServed.loose
      · exact hflush

omit [SerdeJson] in
theorem tight_called : CallClosed (Tight base) := fun _ _ hcalled hw =>
  ⟨hw.inv.quiet hcalled.quiet, by rw [InWeb, hcalled.server]; exact hw.web⟩

theorem handleChild_tight :
    Triple (Tight base) handleChild (fun _ => Tight base) (fun _ _ => True) :=
  tight_triple handleChild_triple (fun _ hw => hw.inv) fun _ hw => ⟨_, within_handleChild hw⟩

theorem handleSignal_tight :
    Triple (Tight base) handleSignal (fun _ => Tight base) (fun _ _ => True) := by
  refine .bind (Q := fun _ => Tight base) (.bind (call_triple tight_called) fun turn => ?_)
    fun signal => ?_
  · split
    · exact .fail fun _ _ => trivial
    · exact .pure fun _ => id
  · split
    · exact .pure fun _ => id
    · split
      · exact .bind handleChild_tight fun _ => .pure fun _ => id
      · exact .pure fun _ => id

theorem handleEvent_tight (events : Nat) :
    Triple (Tight base) (handleEvent fd events) (fun _ => Tight base) (fun _ _ => True) := by
  refine .bind server_triple fun h => ?_
  have hfalse : ∀ {m : Holder Unit} {P : World → Prop},
      Triple P m (fun _ => Tight base) (fun _ _ => True) →
      Triple P (do
        m
        return false) (fun _ => Tight base) (fun _ _ => True) := fun hm =>
    .bind hm fun _ => .pure fun _ => id
  split
  · exact .pure fun _ hw => hw.1
  · split
    · exact handleSignal_tight.pre fun _ hw => hw.1
    · split
      · refine hfalse ((tight_triple handleLogFailures_keeps
          (fun w (hw : Tight base w) => hw.inv) fun w hw => ?_).pre fun _ hw => hw.1)
        exact around_of_closed hw fun hJ => hJ.leaves_handleLogFailures
      · split
        · rename_i hpty
          refine hfalse (tight_triple (handlePty_triple events) ?_ fun w hw => ?_)
          · rintro w ⟨hw, rfl⟩
            exact ⟨hw.inv, hpty⟩
          · exact around_of_closed hw.1 fun hJ => hJ.leaves_handlePty events
        · split
          · rename_i hcontains
            refine hfalse ((handleConnection_tight events).pre ?_)
            rintro w ⟨hw, rfl⟩
            obtain ⟨c, hc⟩ := (NatMap.contains_iff _ _).mp hcontains
            refine ⟨hw, ?_⟩
            rw [World.role, hc]
            exact Option.some_ne_none _
          · exact .pure fun _ hw => hw.1

theorem handleToken_tight (token events : Nat) :
    Triple (Tight base) (handleToken token events) (fun _ => Tight base) (fun _ _ => True) := by
  refine .bind (.read (Q := fun _ => Tight base) fun _ => id) fun h => ?_
  split
  · exact .pure fun _ => id
  · exact handleEvent_tight events

omit [SerdeJson] in
theorem within_acceptPeer {w : World} (hw : Tight base w) :
    Within (Started w) acceptPeer (fun _ w' => ∃ seats, InWeb seats (fun _ => False) base w')
      (fun _ => True) := by
  have hsame : ∀ w', Started w w' → ∃ seats, InWeb seats (fun _ => False) base w' :=
    fun w' h => ⟨w.server.Serves, by rw [InWeb, h.2]; exact hw.web⟩
  refine Within.bind (within_called started_called) fun turn => ?_
  split
  · exact Within.pure hsame
  · exact Within.pure hsame
  · exact Within.fail fun _ _ => trivial
  · refine Within.bind (Within.read (Q := fun _ => Started w) fun _ => id) fun h => ?_
    refine Within.bind ((Within.reject (fun _ _ => trivial) _ _).post fun _ _ hw' => hw'.1) fun _ => ?_
    refine Within.bind (Q := fun _ => Started w) (Within.bind (within_called started_called)
      fun turn => ?_) fun _ => ?_
    · cases turn.fault with
      | none => exact Within.pure fun _ => id
      | some source => exact Within.fail fun _ _ => trivial
    · refine Within.bind (Within.read (Q := fun fd w' => Started w w' ∧ w.server.Free fd)
        fun w' hw' => ⟨hw', free_freshFd hw' _⟩) fun fd => ?_
      rintro w' ⟨⟨-, hserver⟩, hfree⟩
      rw [bind_apply]
      obtain ⟨w'', ⟨hrun, hserver'⟩ | ⟨e, hrun, -⟩⟩ := reactorAdd_run fd false w'
      · rw [hrun]
        refine ⟨fun fd' => w.server.Serves fd' ∨ fd' = fd, ?_⟩
        rw [InWeb]
        change Web _ _ _ { w''.server with connections := w''.server.connections.insert fd _ }
        rw [hserver', hserver]
        exact hw.web.serve hfree
      · rw [hrun]
        trivial

omit [SerdeJson] in
theorem acceptPeer_tight (n : Nat) :
    Triple (fun w => Tight base w ∧ w.script.length < n + 1) acceptPeer
      (fun r w => Tight base w ∧ (r = none ∨ w.script.length < n)) (fun _ _ => True) := by
  rintro w ⟨hw, hn⟩
  have hinv := acceptPeer_keeps n w ⟨hw.inv, hn⟩
  have hweb := within_acceptPeer hw w ⟨hw.inv, rfl⟩
  revert hinv hweb
  rcases acceptPeer w with ⟨a | e | _, w'⟩
  · rintro hinv ⟨seats, hweb⟩
    exact ⟨hinv.1.tight hweb, hinv.2⟩
  · exact fun _ _ => trivial
  · exact fun hinv _ => hinv

omit [SerdeJson] in
theorem finishBatch_tight (acceptReady : Bool) :
    Triple (Tight base) (finishBatch acceptReady) (fun _ => Tight base) (fun _ _ => True) := by
  have hloop : ∀ n, Triple (fun w => Tight base w ∧ w.script.length < n) (acceptLoop n)
      (fun _ => Tight base) (fun _ _ => True) := by
    intro n
    induction n with
    | zero => exact .of_false fun w hw => Nat.not_lt_zero _ hw.2
    | succ n ih =>
      refine .bind (acceptPeer_tight n) fun r => ?_
      cases r with
      | none => exact .pure fun _ hw => hw.1
      | some fd =>
        refine ih.pre ?_
        rintro w ⟨hw, hnone | hn⟩
        · cases hnone
        · exact ⟨hw, hn⟩
  have hdone : Triple (Tight base) (do return shutdownDone (← server)) (fun _ => Tight base)
      (fun _ _ => True) :=
    .bind (.read (Q := fun _ => Tight base) fun _ => id) fun _ => .pure fun _ => id
  unfold finishBatch
  split
  · refine .bind (Triple.bind (Q := fun script w => Tight base w ∧ w.script = script)
      (.read fun w hw => ⟨hw, rfl⟩) fun script => (hloop _).pre ?_) fun _ => hdone
    rintro w ⟨hw, rfl⟩
    exact ⟨hw, Nat.lt_succ_self _⟩
  · exact hdone

theorem reactorWait_tight : Triple (Tight base) reactorWait (fun _ => Tight base)
    (fun _ _ => True) := by
  refine tight_triple reactorWait_keeps (fun _ hw => hw.inv) fun w hw => ?_
  exact around_of_closed hw fun hJ => hJ.leaves_reactorWait

end steps

end Holder

end PersistShell

import PersistShell.Holder.Invariant

/-! The parts of the holder that only make changes the invariant does not see: system calls,
queues, epoll registrations, and answers. -/

namespace PersistShell

/-- What the shells do on their own, writing at most `bytes` bytes. -/
structure Acted (bytes : Nat) (w w' : World) : Prop where
  server : w'.server = w.server
  terminals : ∀ fd : Fd, Grown w.terminals[fd]? w'.terminals[fd]?
  log : w'.log = w.log
  script : w'.script = w.script
  unread : ∀ fd, w'.unread fd ≤ w.unread fd + bytes

theorem Acted.refl (w : World) : Acted 0 w w := ⟨rfl, fun _ => .refl _, rfl, rfl, fun _ => le_rfl⟩

theorem Acted.trans {m n : Nat} {a b c : World} (h : Acted m a b) (h' : Acted n b c) :
    Acted (m + n) a c where
  server := h'.server.trans h.server
  terminals fd := (h.terminals fd).trans (h'.terminals fd)
  log := h'.log.trans h.log
  script := h'.script.trans h.script
  unread fd := by
    have := h.unread fd
    have := h'.unread fd
    omega

theorem Terminal.grown_act (t : Terminal) (a : Activity) : Grown (some t) (some (t.act a)) := by
  cases hs : t.status with
  | none =>
    cases a with
    | wrote fd bytes =>
      refine .some ?_ ⟨bytes, ?_⟩ <;> simp [Terminal.act, hs]
    | exited fd status =>
      refine .some ?_ ⟨[], ?_⟩ <;> simp [Terminal.act, hs]
  | some status =>
    have : t.act a = t := by simp [Terminal.act, hs]
    rw [this]
    exact .refl _

theorem Terminal.unread_act (t : Terminal) (a : Activity) :
    (t.act a).unread.length ≤ t.unread.length + a.bytes := by
  unfold Terminal.act Terminal.unread
  split
  · simp only [List.length_drop, List.length_append, Activity.bytes]
    omega
  · exact Nat.le_add_right _ _
  · exact Nat.le_add_right _ _

theorem World.acted_act (w : World) (a : Activity) : Acted a.bytes w (w.act a) := by
  unfold World.act
  split
  · exact ⟨rfl, fun _ => .refl _, rfl, rfl, fun _ => Nat.le_add_right _ _⟩
  · rename_i t ht
    refine ⟨rfl, fun fd => ?_, rfl, rfl, fun fd => ?_⟩
    · rw [NatMap.get_insert]
      split
      · rename_i heq
        rw [← heq, ht]
        exact t.grown_act a
      · exact .refl _
    · simp only [World.unread]
      rw [NatMap.get_insert]
      split
      · rename_i heq
        rw [← heq, ht]
        exact t.unread_act a
      · exact Nat.le_add_right _ _

theorem World.acted_foldl (w : World) (as : List Activity) :
    Acted (as.map Activity.bytes).sum w (as.foldl World.act w) := by
  induction as generalizing w with
  | nil => exact .refl _
  | cons a as ih =>
    rw [List.map_cons, List.sum_cons]
    exact (w.acted_act a).trans (ih _)

/-- The effect of a system call: the shells may have acted. -/
structure Called (w w' : World) : Prop where
  server : w'.server = w.server
  terminals : ∀ fd : Fd, Grown w.terminals[fd]? w'.terminals[fd]?
  log : w'.log = w.log
  script : w'.script.length ≤ w.script.length
  fuel : ∀ fd, Holder.drainFuel w' fd ≤ Holder.drainFuel w fd

theorem Called.quiet {w w' : World} (h : Called w w') : Quiet w w' where
  role fd := by rw [World.role, World.role, h.server]
  place fd := by rw [World.place, World.place, h.server]
  writers s := by rw [h.server]
  controller := by rw [World.controllerFd, World.controllerFd, h.server]
  pty fd := by rw [h.server]
  core s := by rw [World.core, World.core, h.server]
  terminals := h.terminals
  log := h.log
  script := h.script
  fuel := h.fuel

theorem Called.refl (w : World) : Called w w :=
  ⟨rfl, fun _ => .refl _, rfl, le_rfl, fun _ => le_rfl⟩

theorem Called.of_turn {w : World} {turn : Turn} {script : List Turn}
    (h : w.script = turn :: script) :
    Called w (turn.activity.foldl World.act { w with script := script }) := by
  have hacted := World.acted_foldl { w with script := script } turn.activity
  refine ⟨hacted.server, hacted.terminals, hacted.log, ?_, fun fd => ?_⟩
  · rw [hacted.script, h]
    exact Nat.le_succ _
  · have := hacted.unread fd
    rw [Holder.drainFuel, Holder.drainFuel, hacted.script, h, List.map_cons, List.sum_cons,
      Turn.bytes]
    simp only [World.unread] at this ⊢
    omega

namespace Holder
open Program

theorem called_call (w : World) : ∃ turn, (call w).1 = .ok turn ∧ Called w (call w).2 := by
  unfold call
  split
  · exact ⟨_, rfl, .refl _⟩
  · exact ⟨_, rfl, .of_turn ‹_›⟩

section
variable {J : World → Prop} {α : Type} {E : PersistError → World → Prop}

/-- A predicate that system calls do not change. -/
def CallClosed (J : World → Prop) : Prop := ∀ w w', Called w w' → J w → J w'

/-- A predicate that no quiet change changes. -/
def QuietClosed (J : World → Prop) : Prop := ∀ w w', Quiet w w' → J w → J w'

theorem QuietClosed.call (hJ : QuietClosed J) : CallClosed J := fun w w' h => hJ w w' h.quiet

theorem call_triple (hJ : CallClosed J) : Triple J call (fun _ => J) E := by
  intro w hw
  obtain ⟨turn, hturn, hcalled⟩ := called_call w
  rcases h : call w with ⟨r, w'⟩
  rw [h] at hturn hcalled
  subst hturn
  exact hJ w w' hcalled hw

/-- A call takes a turn of the script, or is answered with the default one. -/
theorem call_script_triple (hJ : CallClosed J) (n : Nat) :
    Triple (fun w => J w ∧ w.script.length < n + 1) call
      (fun turn w => J w ∧ (w.script.length < n ∨ turn = {})) E := by
  rintro w ⟨hw, hn⟩
  have hcalled := (called_call w).choose_spec.2
  have hJ' := hJ w _ hcalled hw
  unfold call at hJ' ⊢
  split at hJ' <;> rename_i hscript
  · exact ⟨hJ', .inr rfl⟩
  · refine ⟨hJ', .inl ?_⟩
    rw [(World.acted_foldl _ _).script]
    rw [hscript, List.length_cons] at hn
    exact Nat.lt_of_succ_lt_succ hn

theorem nowMs_triple (hJ : CallClosed J) : Triple J nowMs (fun _ => J) E :=
  .bind (call_triple hJ) fun _ => .pure fun _ => id

theorem control_keeps (hJ : CallClosed J) (operation : String) : Keeps J (control operation) := by
  refine .bind (call_triple hJ) fun turn => ?_
  cases turn.fault with
  | none => exact Keeps.pure _
  | some source => exact Keeps.fail _

theorem server_triple : Triple J server (fun h w => J w ∧ w.server = h) E :=
  .read fun _ hw => ⟨hw, rfl⟩

end

end Holder

section changes
variable {w w' : World}

theorem quiet_of_eq (hc : w'.server.connections = w.server.connections)
    (hw : w'.server.writers = w.server.writers) (hk : w'.controllerFd = w.controllerFd)
    (hp : w'.server.runtime.ptyToSession = w.server.runtime.ptyToSession)
    (hs : w'.server.runtime.sessions = w.server.runtime.sessions)
    (ht : w'.terminals = w.terminals) (hl : w'.log = w.log) (hscript : w'.script = w.script) :
    Quiet w w' where
  role fd := by rw [World.role, World.role, hc]
  place fd := by rw [World.place, World.place, hc]
  writers s := by rw [hw]
  controller := hk
  pty fd := by rw [hp]
  core s := by rw [World.core, World.core, hs]
  terminals fd := by rw [ht]; exact .refl _
  log := hl
  script := by rw [hscript]
  fuel fd := by rw [Holder.drainFuel, Holder.drainFuel, World.unread, World.unread, hscript, ht]

/-- A change to one connection that keeps its role and its attachment. -/
theorem quiet_connection {fd : Fd} {f : Connection → Connection}
    (hf : ∀ c, w.server.connections[fd]? = some c →
      (f c).role = c.role ∧ (f c).attachedSession = c.attachedSession) :
    Quiet w { w with server := { w.server with
      connections := w.server.connections.alter fd (·.map f) } } := by
  have hsame : ∀ {β : Type} (g : Connection → β) (fd' : Fd),
      (∀ c, w.server.connections[fd]? = some c → g (f c) = g c) →
      (w.server.connections.alter fd (·.map f))[fd']?.map g =
        w.server.connections[fd']?.map g := by
    intro β g fd' hg
    rw [NatMap.get_alter]
    split
    · rename_i heq
      subst heq
      cases hc : w.server.connections[fd]? with
      | none => rfl
      | some c => exact congrArg some (hg c hc)
    · rfl
  refine { quiet_of_eq rfl rfl rfl rfl rfl rfl rfl rfl with role := ?_, place := ?_ }
  · exact fun fd' => hsame Connection.role fd' fun c hc => (hf c hc).1
  · intro fd'
    have hjoin : ∀ o : Option Connection,
        o.bind (·.attachedSession) = (o.map (·.attachedSession)).join := by
      intro o
      cases o <;> rfl
    exact (hjoin _).trans ((congrArg Option.join
      (hsame Connection.attachedSession fd' fun c hc => (hf c hc).2)).trans (hjoin _).symm)

/-- A change to one session that keeps its terminal, its ring buffer and its exit code. -/
theorem quiet_session {s : SessionId} {f : Session → Session}
    (hf : ∀ session, w.server.runtime.sessions[s]? = some session →
      (f session).core = session.core) :
    Quiet w { w with server := { w.server with runtime := { w.server.runtime with
      sessions := w.server.runtime.sessions.alter s (·.map f) } } } := by
  refine { quiet_of_eq rfl rfl rfl rfl rfl rfl rfl rfl with core := ?_ }
  intro s'
  simp only [World.core]
  rw [NatMap.get_alter]
  split
  · rename_i heq
    subst heq
    cases hs : w.server.runtime.sessions[s]? with
    | none => rfl
    | some session => exact congrArg some (hf session hs)
  · rfl

end changes

namespace Holder
open Program

section
variable {J : World → Prop} {α : Type} {E : PersistError → World → Prop}

theorem update_keeps (hJ : QuietClosed J) {f : World → World} (hf : ∀ w, Quiet w (f w)) :
    Keeps J (update f : Holder Unit) :=
  .update fun w hw => hJ w _ (hf w) hw

theorem failIo_triple {Q : α → World → Prop} (hJ : QuietClosed J) (call : IoCall)
    (source : Errno) : Triple J (failIo call source : Holder α) Q (fun _ => J) :=
  .bind (Q := fun _ => J) (update_keeps hJ fun _ => quiet_of_eq rfl rfl rfl rfl rfl rfl rfl rfl)
    fun _ => .fail fun _ => id

theorem modifyServer_keeps (hJ : QuietClosed J) {f : HolderServer → HolderServer}
    (hf : ∀ w : World, Quiet w { w with server := f w.server }) : Keeps J (modifyServer f) :=
  update_keeps hJ hf

theorem protocol_keeps (context : String) (r : Except HolderProtocolError α) :
    Keeps J (protocol context r) :=
  Keeps.lift _

theorem reactorModify_keeps (hJ : QuietClosed J) (fd : Fd) (writable : Bool) :
    Keeps J (reactorModify fd writable) := by
  refine Keeps.bind (Keeps.read _) fun h => Keeps.bind (Keeps.reject _ _) fun _ => ?_
  exact Keeps.bind (control_keeps hJ.call _) fun _ =>
    update_keeps hJ fun w => quiet_of_eq rfl rfl rfl rfl rfl rfl rfl rfl

theorem reactorAdd_keeps (hJ : QuietClosed J) (fd : Fd) (writable : Bool) :
    Keeps J (reactorAdd fd writable) := by
  have hupdate : ∀ f, Keeps J (modifyReactor f) := fun f =>
    modifyServer_keeps hJ fun w => quiet_of_eq rfl rfl rfl rfl rfl rfl rfl rfl
  refine Keeps.bind (Keeps.read _) fun h => Keeps.bind (hupdate _) fun _ => ?_
  refine Keeps.bind (Keeps.bind (control_keeps hJ.call _) fun _ => ?_) fun _ => hupdate _
  exact update_keeps hJ fun w => quiet_of_eq rfl rfl rfl rfl rfl rfl rfl rfl

theorem reactorRemove_triple (hJ : QuietClosed J) (fd : Fd) :
    Triple J (reactorRemove fd) (fun _ => J) E := by
  refine .bind (Q := fun _ => J) (.update fun w hw => ?_) fun _ =>
    .bind (call_triple hJ.call) fun _ => .update fun w hw => ?_
  · exact hJ w _ (quiet_of_eq rfl rfl rfl rfl rfl rfl rfl rfl) hw
  · exact hJ w _ (quiet_of_eq rfl rfl rfl rfl rfl rfl rfl rfl) hw

theorem queue_eq_ok {c c' : Connection} {frame : HolderFrame}
    (h : c.queue frame = .ok c') : c'.role = c.role ∧ c'.attachedSession = c.attachedSession := by
  obtain ⟨bytes, -, h⟩ := bind_eq_ok.mp h
  obtain ⟨-, -, h⟩ := bind_eq_ok.mp h
  cases h
  exact ⟨rfl, rfl⟩

/-- A frame is queued to a registered connection only. -/
theorem queueFrame_triple (hJ : QuietClosed J) (fd : Fd) (frame : HolderFrame) :
    Triple J (queueFrame fd frame) (fun _ w => J w ∧ w.role fd ≠ none) (fun _ => J) := by
  refine Triple.bind server_triple fun h => ?_
  cases hc : h.connections[fd]? with
  | none => exact Triple.fail fun _ hw => hw.1
  | some c =>
    refine Triple.bind (Triple.lift (Q := fun c' w => J w ∧ w.server.connections[fd]? = some c ∧
      c'.role = c.role ∧ c'.attachedSession = c.attachedSession) ?_ fun _ _ _ hw => hw.1) fun c' => ?_
    · rintro c' hq w ⟨hw, rfl⟩
      exact ⟨hw, hc, queue_eq_ok hq⟩
    · have hJ' : QuietClosed fun w => J w ∧ w.role fd ≠ none := fun w w' hq hw =>
        ⟨hJ w w' hq hw.1, by rw [hq.role]; exact hw.2⟩
      refine Triple.bind (Q := fun _ w => J w ∧ w.role fd ≠ none) (.update ?_) fun _ =>
        (reactorModify_keeps hJ' fd true).conseq (fun _ => id) (fun _ _ => id) fun _ _ hw => hw.1
      rintro w ⟨hw, hcw, hface⟩
      refine hJ' w _ (quiet_connection fun c₀ hc₀ => ?_) ⟨hw, ?_⟩
      · rw [hcw] at hc₀
        cases hc₀
        exact hface
      · rw [World.role, hcw]
        exact Option.some_ne_none _

theorem queueFrame_keeps (hJ : QuietClosed J) (fd : Fd) (frame : HolderFrame) :
    Keeps J (queueFrame fd frame) :=
  (queueFrame_triple hJ fd frame).post fun _ _ hw => hw.1

theorem generation_keeps : Keeps J generation := Keeps.bind (Keeps.read _) fun _ => Keeps.pure _

theorem generation_triple : Triple J generation (fun _ => J) E :=
  .bind (.read fun _ => id) fun _ => .pure fun _ => id

theorem eventFrame_triple (messageType : HolderMessageType) (payload : Bytes) :
    Triple J (eventFrame messageType payload) (fun _ => J) E :=
  .bind generation_triple fun _ => .pure fun _ => id

theorem respond_keeps (hJ : QuietClosed J) (fd : Fd) (request : HolderFrame)
    (kind : HolderMessageType) (payload : Bytes) : Keeps J (respond fd request kind payload) :=
  Keeps.bind generation_keeps fun _ => queueFrame_keeps hJ fd _

theorem operationResponse_keeps (hJ : QuietClosed J) (fd : Fd) (request : HolderFrame)
    (kind : HolderMessageType) (response : OperationResponse) :
    Keeps J (operationResponse fd request kind response) :=
  Keeps.bind (protocol_keeps _ _) fun _ => respond_keeps hJ fd request kind _

/-- Under `J` the connection is registered, so that the code may take it for granted. -/
def Registered (J : World → Prop) (fd : Fd) : Prop := ∀ w, J w → w.role fd ≠ none

theorem exists_of_role {w : World} {fd : Fd} (h : w.role fd ≠ none) :
    ∃ c, w.server.connections[fd]? = some c := by
  rw [World.role] at h
  cases hc : w.server.connections[fd]? with
  | none => rw [hc] at h; exact absurd rfl h
  | some c => exact ⟨c, rfl⟩

theorem connection_triple {fd : Fd} (hfd : Registered J fd) :
    Triple J (connection fd) (fun c w => J w ∧ w.server.connections[fd]? = some c) E := by
  refine .bind server_triple fun h => .unwrap ?_
  rintro w ⟨hw, rfl⟩
  obtain ⟨c, hc⟩ := exists_of_role (hfd w hw)
  exact ⟨c, hc, hw, hc⟩

theorem connection_keeps {fd : Fd} (hfd : Registered J fd) : Keeps J (connection fd) :=
  (connection_triple hfd).post fun _ _ h => h.1

theorem updateConnection_keeps (hJ : QuietClosed J) {fd : Fd} (hfd : Registered J fd)
    {f : Connection → Connection}
    (hf : ∀ c, (f c).role = c.role ∧ (f c).attachedSession = c.attachedSession) :
    Keeps J (updateConnection fd f) :=
  Keeps.bind (connection_keeps hfd) fun _ =>
    modifyServer_keeps hJ fun _ => quiet_connection fun c _ => hf c

theorem feed_eq_ok {c : Connection} {bytes : Bytes} {r : Connection × List (Nat × HolderFrame)}
    (h : c.feed bytes = .ok r) : r.1.role = c.role ∧ r.1.attachedSession = c.attachedSession := by
  obtain ⟨a, -, h⟩ := bind_eq_ok.mp h
  obtain ⟨p, -, h⟩ := bind_eq_ok.mp h
  cases h
  exact ⟨rfl, rfl⟩

/-- Reading from a peer changes its accumulator only. The loop takes a turn of the script in
every pass but the last, and that bounds it. -/
theorem readLoop_keeps (hJ : QuietClosed J) {fd : Fd} (hfd : Registered J fd) (fuel : Nat) :
    Triple (fun w => J w ∧ w.script.length < fuel) (readLoop fd fuel) (fun _ => J)
      (fun _ => J) := by
  induction fuel with
  | zero => exact .of_false fun w hw => by omega
  | succ fuel ih =>
    refine .bind (call_script_triple hJ.call fuel) fun turn => ?_
    have hquit : ∀ (r : List (Nat × HolderFrame) × Bool), Triple
        (fun w => J w ∧ (w.script.length < fuel ∨ turn = {})) (pure r : Holder _) (fun _ => J)
        (fun _ => J) := fun r => .pure fun _ h => h.1
    rcases hfault : turn.fault with _ | source
    · rcases hdata : turn.data with _ | _ | ⟨b, bytes⟩
      · exact hquit _
      · exact hquit _
      · have hleft : ∀ w : World, J w ∧ (w.script.length < fuel ∨ turn = {}) →
            J w ∧ w.script.length < fuel := by
          rintro w ⟨hw, hn | rfl⟩
          · exact ⟨hw, hn⟩
          · cases hdata
        refine .bind ((connection_triple fun w hw => hfd w hw.1).pre hleft) fun c => ?_
        refine .bind (.lift (Q := fun r w => (J w ∧ w.script.length < fuel) ∧
          w.server.connections[fd]? = some c ∧ r.1.role = c.role ∧
            r.1.attachedSession = c.attachedSession)
          (fun r hr w hw => ⟨hw.1, hw.2, feed_eq_ok hr⟩) fun _ _ _ hw => hw.1.1) fun r => ?_
        refine .bind (Q := fun _ w => J w ∧ w.script.length < fuel) (.update ?_) fun _ =>
          .bind ih fun _ => .pure fun _ => id
        rintro w ⟨hw, hc, hface⟩
        refine ⟨hJ w _ (quiet_connection fun c₀ hc₀ => ?_) hw.1, hw.2⟩
        rw [hc] at hc₀
        cases hc₀
        exact hface
    · have hfail : Triple (fun w => J w ∧ (w.script.length < fuel ∨ turn = {}))
          (failIo (.readPeer fd) source : Holder (List (Nat × HolderFrame) × Bool))
          (fun _ => J) (fun _ => J) := (failIo_triple hJ _ _).pre fun _ h => h.1
      cases source with
      | wouldBlock => exact hquit _
      | _ => exact hfail

theorem readFrames_keeps (hJ : QuietClosed J) {fd : Fd} (hfd : Registered J fd) :
    Keeps J (readFrames fd) := by
  refine Keeps.bind (connection_keeps hfd) fun _ => ?_
  refine Triple.bind (Q := fun script w => J w ∧ w.script = script) (.read fun w hw => ⟨hw, rfl⟩)
    fun script => (readLoop_keeps hJ hfd _).pre ?_
  rintro w ⟨hw, rfl⟩
  exact ⟨hw, Nat.lt_succ_self _⟩

/-- Flushing changes the output queue only, and every pass but the last writes a byte. -/
theorem flushLoop_keeps (hJ : QuietClosed J) {fd : Fd} (hfd : Registered J fd) (fuel : Nat) :
    Triple (fun w => J w ∧ ∀ c, w.server.connections[fd]? = some c → c.output.left < fuel)
      (flushLoop fd fuel) (fun _ => J) (fun _ => J) := by
  induction fuel with
  | zero =>
    refine .of_false fun w hw => ?_
    obtain ⟨c, hc⟩ := exists_of_role (hfd w hw.1)
    exact absurd (hw.2 c hc) (Nat.not_lt_zero _)
  | succ fuel ih =>
    refine .bind (connection_triple fun w hw => hfd w hw.1) fun c => ?_
    cases hfront : c.output.front with
    | none => exact .pure fun _ h => h.1.1
    | some front =>
      have hclosed : CallClosed fun w => (J w ∧ ∀ c, w.server.connections[fd]? = some c →
          c.output.left < fuel + 1) ∧ w.server.connections[fd]? = some c := by
        intro w w' hcalled hw
        rw [hcalled.server]
        exact ⟨⟨hJ.call w w' hcalled hw.1.1, hw.1.2⟩, hw.2⟩
      refine .bind (call_triple hclosed) fun turn => ?_
      rcases turn.fault with _ | source
      · have hle : min (turn.count.getD front.length) front.length ≤ front.length :=
          Nat.min_le_right _ _
        generalize min (turn.count.getD front.length) front.length = count at hle
        cases count with
        | zero => exact .pure fun _ h => h.1.1
        | succ count =>
          refine .bind (.update (Q := fun _ w => J w ∧ ∀ c, w.server.connections[fd]? = some c →
            c.output.left < fuel) ?_) fun _ => ih
          rintro w ⟨⟨hw, hleft⟩, hc⟩
          refine ⟨hJ w _ (quiet_connection fun _ _ => ⟨rfl, rfl⟩) hw, fun c' hc' => ?_⟩
          simp only [NatMap.get_alter, if_true, hc, Option.map_some, Option.some.injEq] at hc'
          subst hc'
          have hlt : (c.output.advance (count + 1)).left < c.output.left :=
            ByteQueue.left_advance_lt hfront (Nat.succ_pos count) hle
          have := hleft c hc
          dsimp only
          omega
      · cases source with
        | wouldBlock => exact .pure fun _ h => h.1.1
        | _ => exact (failIo_triple hJ _ _).pre fun _ h => h.1.1

theorem flush_keeps (hJ : QuietClosed J) {fd : Fd} (hfd : Registered J fd) :
    Keeps J (flush fd) := by
  refine Triple.bind (connection_triple hfd) fun c => Triple.bind
    ((flushLoop_keeps hJ hfd _).pre ?_) fun open_ => ?_
  · rintro w ⟨hw, hc⟩
    refine ⟨hw, fun c' hc' => ?_⟩
    rw [hc] at hc'
    cases hc'
    exact Nat.lt_succ_of_le c.output.left_le
  · cases open_ with
    | false => exact Triple.pure fun _ => id
    | true => exact Keeps.bind (connection_keeps hfd) fun _ => Keeps.pure _

end

section runtime
variable {J : World → Prop} {E : PersistError → World → Prop} {s : SessionId}

theorem modifyRuntime_keeps (hJ : QuietClosed J) {f : Runtime → Runtime}
    (hf : ∀ w : World, Quiet w { w with server := { w.server with
      runtime := f w.server.runtime } }) : Keeps J (modifyRuntime f) :=
  modifyServer_keeps hJ hf

theorem modifySession_keeps (hJ : QuietClosed J) {f : Session → Session}
    (hf : ∀ session, (f session).core = session.core) : Keeps J (modifySession s f) :=
  modifyRuntime_keeps hJ fun _ => quiet_session fun session _ => hf session

theorem writeInput_triple (hJ : CallClosed J) (bytes : Bytes) :
    Triple J (writeInput bytes)
      (fun r w => J w ∧ ∀ count, r = .ok count → count ≤ bytes.length) E := by
  refine .bind (call_triple hJ) fun turn => ?_
  cases turn.fault with
  | some source => exact .pure fun _ hw => ⟨hw, fun _ h => (nomatch h)⟩
  | none =>
    refine .pure fun _ hw => ⟨hw, fun count h => ?_⟩
    cases h
    exact Nat.min_le_right _ _

theorem exists_of_core {w : World} (h : w.core s ≠ none) :
    ∃ session, w.server.runtime.sessions[s]? = some session := by
  rw [World.core] at h
  cases hs : w.server.runtime.sessions[s]? with
  | none => rw [hs] at h; exact absurd rfl h
  | some session => exact ⟨session, rfl⟩

/-- Every pass of the loop but the last takes bytes off the input queue. -/
theorem flushInputLoop_triple (hcall : CallClosed J)
    (hfail : ∀ w f, J w → J { w with failures := f :: w.failures })
    (hs : ∀ w, J w → ∃ session, w.server.runtime.sessions[s]? = some session)
    (hsent : ∀ w session front count, J w → w.server.runtime.sessions[s]? = some session →
      session.input.front = some front → count ≤ front.length →
      J { w with server := { w.server with runtime := { w.server.runtime with
        sessions := w.server.runtime.sessions.alter s (·.map fun session =>
          { session with input := session.input.advance count }) } } })
    (fuel : Nat) :
    Triple (fun w => J w ∧ ∀ session, w.server.runtime.sessions[s]? = some session →
      session.input.left < fuel) (flushInputLoop s fuel) (fun _ => J) (fun _ => J) := by
  induction fuel with
  | zero =>
    refine .of_false fun w hw => ?_
    obtain ⟨session, hsession⟩ := hs w hw.1
    exact absurd (hw.2 session hsession) (Nat.not_lt_zero _)
  | succ fuel ih =>
    refine .bind server_triple fun h => ?_
    cases hsession : h.runtime.sessions[s]? with
    | none =>
      refine .of_false ?_
      rintro w ⟨hw, rfl⟩
      obtain ⟨session, hsome⟩ := hs w hw.1
      rw [hsession] at hsome
      cases hsome
    | some session =>
      have hstop : Triple (fun w => (J w ∧ ∀ session, w.server.runtime.sessions[s]? = some session →
          session.input.left < fuel + 1) ∧ w.server = h) (pure () : Holder Unit) (fun _ => J)
          (fun _ => J) := .pure fun _ hw => hw.1.1
      dsimp only
      cases hfront : session.input.front with
      | none => exact hstop
      | some front =>
        cases hpty : session.pty with
        | none => exact hstop
        | some pty =>
          have hclosed : CallClosed fun w => (J w ∧ ∀ session,
              w.server.runtime.sessions[s]? = some session → session.input.left < fuel + 1) ∧
              w.server = h := by
            intro w w' hcalled hw
            rw [hcalled.server]
            exact ⟨⟨hcall w w' hcalled hw.1.1, hw.1.2⟩, hw.2⟩
          refine .bind (writeInput_triple hclosed front) fun r => ?_
          rcases r with source | count
          · have hfailed : Triple (fun w => J w) (failIo (.writePty s) source : Holder Unit)
                (fun _ => J) (fun _ => J) :=
              .bind (.update fun w hw => hfail w _ hw) fun _ => .fail fun _ => id
            cases source with
            | wouldBlock => exact .pure fun _ hw => hw.1.1.1
            | _ => exact hfailed.pre fun _ hw => hw.1.1.1
          · cases count with
            | zero => exact .pure fun _ hw => hw.1.1.1
            | succ count =>
              refine .bind (.update (Q := fun _ w => J w ∧ ∀ session,
                w.server.runtime.sessions[s]? = some session → session.input.left < fuel) ?_)
                fun _ => ih
              rintro w ⟨⟨⟨hw, hleft⟩, rfl⟩, hle⟩
              refine ⟨hsent w session front _ hw hsession hfront (hle _ rfl), fun session' hs' => ?_⟩
              simp only [NatMap.get_alter, if_true, hsession, Option.map_some,
                Option.some.injEq] at hs'
              subst hs'
              have hlt : (session.input.advance (count + 1)).left < session.input.left :=
                ByteQueue.left_advance_lt hfront (Nat.succ_pos count) (hle _ rfl)
              have := hleft session hsession
              dsimp only
              omega

theorem flushInput_triple (hcall : CallClosed J)
    (hfail : ∀ w f, J w → J { w with failures := f :: w.failures })
    (hs : ∀ w, J w → ∃ session, w.server.runtime.sessions[s]? = some session)
    (hsent : ∀ w session front count, J w → w.server.runtime.sessions[s]? = some session →
      session.input.front = some front → count ≤ front.length →
      J { w with server := { w.server with runtime := { w.server.runtime with
        sessions := w.server.runtime.sessions.alter s (·.map fun session =>
          { session with input := session.input.advance count }) } } }) :
    Keeps J (flushInput s) := by
  refine Triple.bind server_triple fun h => Triple.bind (Q := fun session w => J w ∧
    w.server.runtime.sessions[s]? = some session) (.unwrap ?_) fun session => ?_
  · rintro w ⟨hw, rfl⟩
    obtain ⟨session, hsession⟩ := hs w hw
    exact ⟨session, hsession, hw, hsession⟩
  · refine Triple.bind ((flushInputLoop_triple hcall hfail hs hsent _).pre ?_) fun _ =>
      Keeps.bind (Keeps.read _) fun _ => Keeps.pure _
    rintro w ⟨hw, hsession⟩
    refine ⟨hw, fun session' hs' => ?_⟩
    rw [hsession] at hs'
    cases hs'
    exact Nat.lt_succ_of_le session.input.left_le

/-- Flushing input changes the input queue only. -/
theorem flushInput_keeps (hJ : QuietClosed J) (hs : ∀ w, J w → w.core s ≠ none) :
    Keeps J (flushInput s) :=
  flushInput_triple hJ.call (fun w _ hw => hJ w _ (quiet_of_eq rfl rfl rfl rfl rfl rfl rfl rfl) hw)
    (fun w hw => exists_of_core (hs w hw))
    fun w _ _ _ hw _ _ _ => hJ w _ (quiet_session fun _ _ => rfl) hw

end runtime

end Holder

end PersistShell

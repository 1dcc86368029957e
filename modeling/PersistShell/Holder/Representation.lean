import PersistShell.Holder.Listing
import PersistShell.Holder.Safety
import PersistShell.Holder.Script

/-! The maps, the terminals, the exit codes and the input queues of the runtime fit together after
every operation on it, and none of its look-ups can fail. -/

namespace PersistShell

/-- What the tables of the runtime and its sessions say of each other. The exits of the sessions in
`reaped` are recorded and their terminals still to be closed. -/
structure Runtime.Represented (reaped : List SessionId) (r : Runtime) : Prop where
  ptyOf : ∀ (fd : Fd) s, r.ptyToSession[fd]? = some s ↔ r.ptyFd s = some fd
  exit : ∀ (s : SessionId) session, r.sessions[s]? = some session →
    (session.exitCode.isSome ↔ session.pty = none ∨ s ∈ reaped)
  input : ∀ (s : SessionId) session, r.sessions[s]? = some session →
    session.input.Sound ∧ session.input.bytes ≤ maxPendingInput

namespace Runtime

variable {r r' : Runtime} {reaped reaped' : List SessionId} {s : SessionId} {fd : Fd}

theorem ptyFd_eq (r : Runtime) (s : SessionId) :
    r.ptyFd s = (r.sessions[s]?.bind Session.pty).map PtySession.masterFd := by
  unfold ptyFd
  cases r.sessions[s]? with
  | none => rfl
  | some session => cases hpty : session.pty <;> simp [hpty]

namespace Represented

theorem empty (hsessions : r.sessions = ∅) (hptys : r.ptyToSession = ∅) :
    r.Represented reaped := by
  refine ⟨fun fd s => ?_, fun s session hs => ?_, fun s session hs => ?_⟩
  · rw [ptyFd_eq, hsessions, hptys]
    simp
  · rw [hsessions] at hs
    simp at hs
  · rw [hsessions] at hs
    simp at hs

theorem congr (h : r.Represented reaped) (hmem : ∀ s, s ∈ reaped ↔ s ∈ reaped') :
    r.Represented reaped' where
  ptyOf := h.ptyOf
  exit s session hs := by rw [h.exit s session hs, hmem]
  input := h.input

/-- Two terminals of one session are the same. -/
theorem unique (h : r.Represented reaped) {fd' : Fd} (hfd : r.ptyToSession[fd]? = some s)
    (hfd' : r.ptyToSession[fd']? = some s) : fd = fd' :=
  Option.some.inj (((h.ptyOf fd s).mp hfd).symm.trans ((h.ptyOf fd' s).mp hfd'))

theorem session (h : r.Represented reaped) (hfd : r.ptyToSession[fd]? = some s) :
    ∃ session pty, r.sessions[s]? = some session ∧ session.pty = some pty ∧ pty.masterFd = fd := by
  have hpty := (h.ptyOf fd s).mp hfd
  rw [ptyFd_eq] at hpty
  obtain ⟨pty, hbind, rfl⟩ := Option.map_eq_some_iff.mp hpty
  obtain ⟨session, hsession, hpty⟩ := Option.bind_eq_some_iff.mp hbind
  exact ⟨session, pty, hsession, hpty, rfl⟩

/-- A change that leaves the terminals where they are. -/
theorem sessions (h : r.Represented reaped) (hptys : r'.ptyToSession = r.ptyToSession)
    (hfd : ∀ s, r'.ptyFd s = r.ptyFd s)
    (hsessions : ∀ (s : SessionId) session, r'.sessions[s]? = some session →
      (session.exitCode.isSome ↔ session.pty = none ∨ s ∈ reaped') ∧ session.input.Sound ∧
        session.input.bytes ≤ maxPendingInput) : r'.Represented reaped' where
  ptyOf fd s := by rw [hptys, hfd, h.ptyOf]
  exit s session hs := (hsessions s session hs).1
  input s session hs := (hsessions s session hs).2

/-- A change to one session that keeps its terminal. -/
theorem alter (h : r.Represented reaped) {f : Session → Session}
    (hmem : ∀ s', s' ≠ s → (s' ∈ reaped ↔ s' ∈ reaped'))
    (hf : ∀ session, r.sessions[s]? = some session →
      (f session).pty.map PtySession.masterFd = session.pty.map PtySession.masterFd ∧
      ((f session).exitCode.isSome ↔ (f session).pty = none ∨ s ∈ reaped') ∧
      (f session).input.Sound ∧ (f session).input.bytes ≤ maxPendingInput) :
    Represented reaped' { r with sessions := r.sessions.alter s (·.map f) } := by
  refine h.sessions rfl (fun s' => ?_) fun s' session' hs' => ?_
  · rw [ptyFd_eq, ptyFd_eq]
    dsimp only
    rw [NatMap.get_alter]
    split
    · rename_i heq
      subst heq
      cases hs : r.sessions[s]? with
      | none => rfl
      | some session => exact (hf session hs).1
    · rfl
  · dsimp only at hs'
    rw [NatMap.get_alter] at hs'
    split at hs'
    · rename_i heq
      subst heq
      obtain ⟨session, hs, rfl⟩ := Option.map_eq_some_iff.mp hs'
      exact (hf session hs).2
    · rename_i hne
      refine ⟨?_, h.input s' session' hs'⟩
      rw [h.exit s' session' hs', hmem s' (Ne.symm hne)]

/-- A change to one session that touches neither its terminal nor its exit code. -/
theorem modify (h : r.Represented reaped) {f : Session → Session}
    (hpty : ∀ session, (f session).pty = session.pty)
    (hexit : ∀ session, (f session).exitCode = session.exitCode)
    (hinput : ∀ session, r.sessions[s]? = some session → (f session).input.Sound ∧
      (f session).input.bytes ≤ maxPendingInput) :
    Represented reaped { r with sessions := r.sessions.alter s (·.map f) } := by
  refine h.alter (fun _ _ => Iff.rfl) fun session hs => ⟨by rw [hpty], ?_, hinput session hs⟩
  rw [hpty, hexit]
  exact h.exit s session hs

theorem degradeLog (h : r.Represented reaped) (s : SessionId) :
    (r.degradeLog s).Represented reaped := by
  unfold Runtime.degradeLog
  cases hs : r.sessions[s]? with
  | none => exact h
  | some session =>
    have hdegraded : Represented reaped
        { r with sessions := r.sessions.insert s { session with logState := .degraded } } := by
      refine h.sessions rfl (fun s' => ?_) fun s' session' hs' => ?_
      · rw [ptyFd_eq, ptyFd_eq]
        dsimp only
        rw [NatMap.get_insert]
        split
        · rename_i heq
          rw [← heq, hs]
          rfl
        · rfl
      · dsimp only at hs'
        rw [NatMap.get_insert] at hs'
        split at hs'
        · rename_i heq
          subst heq
          cases hs'
          exact ⟨h.exit s session hs, h.input s session hs⟩
        · exact ⟨h.exit s' session' hs', h.input s' session' hs'⟩
    dsimp only
    split
    · exact hdegraded
    · exact ⟨hdegraded.ptyOf, hdegraded.exit, hdegraded.input⟩

/-- A session with a new terminal. -/
theorem create (h : r.Represented []) {session : Session} {pty : PtySession}
    (hnew : r.sessions[s]? = none) (hfree : r.ptyToSession[pty.masterFd]? = none)
    (hpty : session.pty = some pty) (hexit : session.exitCode = none)
    (hinput : session.input = {}) :
    Represented [] ({ r with
      sessions := r.sessions.insert s session
      ptyToSession := r.ptyToSession.insert pty.masterFd s }).bumpGeneration := by
  have hget : ∀ s' : SessionId, (r.sessions.insert s session)[s']? =
      if s = s' then some session else r.sessions[s']? := fun s' => NatMap.get_insert _ _ s' _
  have hold : ∀ {s' : SessionId} {session' : Session},
      (r.sessions.insert s session)[s']? = some session' →
      (s = s' ∧ session = session') ∨ r.sessions[s']? = some session' := by
    intro s' session' hs'
    rw [hget] at hs'
    split at hs'
    · exact .inl ⟨‹_›, Option.some.inj hs'⟩
    · exact .inr hs'
  refine ⟨fun fd s' => ?_, fun s' session' hs' => ?_, fun s' session' hs' => ?_⟩
  · have hnone : r.ptyFd s = none := by rw [ptyFd_eq, hnew]; rfl
    have hfd : ptyFd ({ r with
        sessions := r.sessions.insert s session
        ptyToSession := r.ptyToSession.insert pty.masterFd s }).bumpGeneration s' =
        if s = s' then some pty.masterFd else r.ptyFd s' := by
      rw [ptyFd_eq, ptyFd_eq]
      change ((r.sessions.insert s session)[s']?.bind _).map _ = _
      rw [hget]
      split
      · rw [Option.bind_some, hpty]
        rfl
      · rfl
    rw [hfd]
    change (r.ptyToSession.insert pty.masterFd s)[fd]? = some s' ↔ _
    rw [NatMap.get_insert]
    by_cases hs : s = s'
    · subst hs
      rw [if_pos rfl]
      split
      · rename_i heq
        rw [heq]
        exact iff_of_true rfl rfl
      · rename_i hne
        rw [h.ptyOf, hnone]
        exact iff_of_false (Option.some_ne_none _ ·.symm) fun heq => hne (Option.some.inj heq)
    · rw [if_neg hs, ← h.ptyOf]
      split
      · rename_i heq
        rw [← heq, hfree]
        exact iff_of_false (fun heq => hs (Option.some.inj heq)) (Option.some_ne_none _ ·.symm)
      · rfl
  · rcases hold hs' with ⟨rfl, rfl⟩ | hs'
    · rw [hexit, hpty]
      simp
    · exact h.exit s' session' hs'
  · rcases hold hs' with ⟨rfl, rfl⟩ | hs'
    · rw [hinput]
      exact ⟨.empty, Nat.zero_le _⟩
    · exact h.input s' session' hs'

/-- A session that has no terminal goes. -/
theorem retire (h : r.Represented []) {session : Session} (hs : r.sessions[s]? = some session)
    (hexit : session.exitCode.isSome) :
    Represented [] ({ r with sessions := r.sessions.erase s }).bumpGeneration := by
  have hpty : session.pty = none := by simpa using (h.exit s session hs).mp hexit
  have hold : ∀ {s' : SessionId} {session' : Session},
      (r.sessions.erase s)[s']? = some session' → r.sessions[s']? = some session' := by
    intro s' session' hs'
    rw [NatMap.get_erase] at hs'
    split at hs'
    · cases hs'
    · exact hs'
  refine ⟨fun fd s' => ?_, fun s' session' hs' => h.exit s' session' (hold hs'),
    fun s' session' hs' => h.input s' session' (hold hs')⟩
  have hfd : ptyFd ({ r with sessions := r.sessions.erase s }).bumpGeneration s' = r.ptyFd s' := by
    rw [ptyFd_eq, ptyFd_eq]
    change ((r.sessions.erase s)[s']?.bind _).map _ = _
    rw [NatMap.get_erase]
    split
    · rename_i heq
      rw [← heq, hs, Option.bind_some, hpty]
      rfl
    · rfl
  rw [hfd]
  exact h.ptyOf fd s'

/-- The terminal of a session whose exit is recorded is closed. -/
theorem drop (h : r.Represented (s :: reaped)) (hfd : r.ptyToSession[fd]? = some s) :
    Represented reaped ({ r with
      ptyToSession := r.ptyToSession.erase fd
      sessions := r.sessions.alter s
        (Option.map fun session : Session => { session with pty := none }) }).bumpGeneration := by
  obtain ⟨session, pty, hsession, hpty, hmaster⟩ := h.session hfd
  have hget : ∀ s' : SessionId, (r.sessions.alter s (Option.map fun session : Session =>
      { session with pty := none }))[s']? =
      if s = s' then some { session with pty := none } else r.sessions[s']? := by
    intro s'
    rw [NatMap.get_alter, hsession]
    rfl
  refine ⟨fun fd' s' => ?_, fun s' session' hs' => ?_, fun s' session' hs' => ?_⟩
  · have hfd' : ptyFd ({ r with
        ptyToSession := r.ptyToSession.erase fd
        sessions := r.sessions.alter s
          (Option.map fun session : Session => { session with pty := none }) }).bumpGeneration s' =
        if s = s' then none else r.ptyFd s' := by
      rw [ptyFd_eq, ptyFd_eq]
      change ((r.sessions.alter s (Option.map fun session : Session =>
        { session with pty := none }))[s']?.bind _).map _ = _
      rw [hget]
      split <;> rfl
    rw [hfd']
    change (r.ptyToSession.erase fd)[fd']? = some s' ↔ _
    rw [NatMap.get_erase]
    by_cases hs : s = s'
    · subst hs
      rw [if_pos rfl]
      have hnone : ∀ {o : Fd}, none ≠ some o := (Option.some_ne_none _ ·.symm)
      split
      · exact iff_of_false hnone hnone
      · rename_i hne
        exact iff_of_false (fun hother => hne (h.unique hfd hother)) hnone
    · rw [if_neg hs, ← h.ptyOf]
      split
      · rename_i heq
        rw [← heq, hfd]
        exact iff_of_false (Option.some_ne_none _ ·.symm) fun heq => hs (Option.some.inj heq)
      · rfl
  · change (r.sessions.alter s _)[s']? = _ at hs'
    rw [hget] at hs'
    split at hs'
    · rename_i heq
      subst heq
      cases hs'
      exact iff_of_true ((h.exit s session hsession).mpr (.inr List.mem_cons_self)) (.inl rfl)
    · rename_i hne
      rw [h.exit s' session' hs', List.mem_cons, or_iff_right (Ne.symm hne)]
  · change (r.sessions.alter s _)[s']? = _ at hs'
    rw [hget] at hs'
    split at hs'
    · cases hs'
      exact h.input s session hsession
    · exact h.input s' session' hs'

end Represented

end Runtime

/-- The runtime is represented, and the kernel has its terminals open. -/
structure World.Represented (reaped : List SessionId) (w : World) : Prop where
  runtime : w.server.runtime.Represented reaped
  terminal : ∀ (fd : Fd) s, w.server.runtime.ptyToSession[fd]? = some s →
    ∃ t, w.terminals[fd]? = some t

namespace Holder
open Program

section operations

variable {E : PersistError → World → Prop} {reaped : List SessionId} {fd : Fd} {s : SessionId}

theorem represented_call : CallClosed (World.Represented reaped) := by
  intro w w' hcalled h
  refine ⟨by rw [hcalled.server]; exact h.runtime, fun fd s hs => ?_⟩
  rw [hcalled.server] at hs
  obtain ⟨t, ht⟩ := h.terminal fd s hs
  have hgrown := hcalled.terminals fd
  rw [ht] at hgrown
  generalize hw : w'.terminals[fd]? = o at hgrown
  cases hgrown with
  | some _ _ => exact ⟨_, rfl⟩

theorem represented_failed (w : World) (f : Failure) (h : w.Represented reaped) :
    World.Represented reaped { w with failures := f :: w.failures } := ⟨h.runtime, h.terminal⟩

theorem represented_sessions {w : World} {sessions : Std.ExtTreeMap SessionId Session}
    (h : w.Represented reaped)
    (hr : Runtime.Represented reaped { w.server.runtime with sessions }) :
    World.Represented reaped { w with server := { w.server with
      runtime := { w.server.runtime with sessions } } } := ⟨hr, h.terminal⟩

/-- A change to one session that touches neither its terminal, its exit code nor its input. -/
theorem modifySession_represented {f : Session → Session}
    (hpty : ∀ session, (f session).pty = session.pty)
    (hexit : ∀ session, (f session).exitCode = session.exitCode)
    (hinput : ∀ session, (f session).input = session.input) (w : World)
    (h : w.Represented reaped) :
    World.Represented reaped { w with server := { w.server with
      runtime := { w.server.runtime with
        sessions := w.server.runtime.sessions.alter s (·.map f) } } } :=
  represented_sessions h (h.runtime.modify hpty hexit fun session hs => by
    rw [hinput]
    exact h.runtime.input s session hs)

theorem degradeLog_ptyToSession (r : Runtime) (s : SessionId) :
    (r.degradeLog s).ptyToSession = r.ptyToSession := by
  unfold Runtime.degradeLog
  cases r.sessions[s]? with
  | none => rfl
  | some session =>
    dsimp only
    split <;> rfl

theorem degradeLog_represented (w : World) (h : w.Represented reaped) :
    World.Represented reaped { w with server := { w.server with
      runtime := w.server.runtime.degradeLog s } } := by
  refine ⟨h.runtime.degradeLog s, fun fd s' hs => h.terminal fd s' ?_⟩
  rw [← degradeLog_ptyToSession]
  exact hs

section input

/-- The session is there. -/
def Stands (s : SessionId) (w : World) : Prop :=
  w.Represented [] ∧ ∃ session, w.server.runtime.sessions[s]? = some session

theorem stands_call : CallClosed (Stands s) := fun w w' hcalled h =>
  ⟨represented_call w w' hcalled h.1, by rw [hcalled.server]; exact h.2⟩

theorem stands_alter {f : Session → Session} {w : World} (h : Stands s w)
    (hr : Runtime.Represented [] { w.server.runtime with
      sessions := w.server.runtime.sessions.alter s (·.map f) }) :
    Stands s { w with server := { w.server with runtime := { w.server.runtime with
      sessions := w.server.runtime.sessions.alter s (·.map f) } } } := by
  obtain ⟨hw, session, hsession⟩ := h
  refine ⟨represented_sessions hw hr, f session, ?_⟩
  dsimp only
  rw [NatMap.get_alter, if_pos rfl, hsession]
  rfl

theorem flushInput_stands : Keeps (Stands s) (flushInput s) := by
  refine flushInput_triple stands_call (fun w f h => ⟨represented_failed w f h.1, h.2⟩)
    (fun w h => h.2) fun w session front count h hs hfront hcount => ?_
  refine stands_alter h (h.1.runtime.modify (fun _ => rfl) (fun _ => rfl) fun session' hs' => ?_)
  cases hs.symm.trans hs'
  obtain ⟨hsound, hbytes⟩ := h.1.runtime.input s session hs
  exact ⟨hsound.advance hfront hcount, (ByteQueue.bytes_advance_le _ _).trans hbytes⟩

theorem queueInput_represented (data : Bytes) :
    Keeps (World.Represented []) (queueInput s data) := by
  refine Triple.bind server_triple fun h => ?_
  cases hsession : h.runtime.sessions[s]? with
  | none => exact .fail fun _ hw => hw.1
  | some session =>
    refine .bind (Q := fun _ w => (w.Represented [] ∧ w.server = h) ∧ data ≠ []) ?_ fun _ =>
      .bind (Q := fun _ w => ((w.Represented [] ∧ w.server = h) ∧ data ≠ []) ∧
        session.input.bytes + data.length ≤ maxPendingInput) ?_ fun _ => ?_
    · unfold rejectIf
      split
      · exact .fail fun _ hw => hw.1
      · rename_i hwritable
        exact .pure fun _ hw => ⟨hw, (not_or.mp hwritable).2⟩
    · unfold rejectIf
      split
      · exact .fail fun _ hw => hw.1.1
      · rename_i hsize
        exact .pure fun _ hw => ⟨hw, Nat.le_of_not_lt hsize⟩
    have hclosed : CallClosed fun w => ((w.Represented [] ∧ w.server = h) ∧ data ≠ []) ∧
        session.input.bytes + data.length ≤ maxPendingInput := fun w w' hcalled hw =>
      ⟨⟨⟨represented_call w w' hcalled hw.1.1.1, hcalled.server.trans hw.1.1.2⟩, hw.1.2⟩, hw.2⟩
    refine .bind (nowMs_triple hclosed) fun now => ?_
    refine .bind (Q := fun _ => Stands s) (.update ?_)
      fun _ => (flushInput_stands (s := s)).conseq (fun _ => id) (fun _ _ => And.left)
        fun _ _ => And.left
    rintro w ⟨⟨⟨hw, rfl⟩, hne⟩, hsize⟩
    refine stands_alter ⟨hw, session, hsession⟩ (hw.runtime.modify (fun _ => rfl) (fun _ => rfl)
      fun session' hs' => ?_)
    cases hsession.symm.trans hs'
    exact ⟨(hw.runtime.input s session hsession).1.push hne, hsize⟩

end input

section control

theorem signalChild_represented {J : World → Prop} (hJ : CallClosed J) :
    Triple J signalChild (fun _ => J) E :=
  .bind (call_triple hJ) fun _ => .pure fun _ => id

theorem close_represented : Keeps (World.Represented []) (close s) := by
  refine Triple.bind server_triple fun h => ?_
  cases hsession : h.runtime.sessions[s]? with
  | none => exact .pure fun _ hw => hw.1
  | some session =>
    dsimp only
    split
    · exact .pure fun _ hw => hw.1
    · split
      · refine .bind ((signalChild_represented represented_call).pre fun _ hw => hw.1) fun _ => ?_
        let f (session : Session) : Session := { session with closing := true }
        exact .bind (.update (modifySession_represented (f := f) (fun _ => rfl) (fun _ => rfl)
          fun _ => rfl)) fun _ => .pure fun _ => id
      · exact .pure fun _ hw => hw.1

theorem kill_represented : Keeps (World.Represented []) (kill s) := by
  refine Triple.bind server_triple fun h => ?_
  cases hsession : h.runtime.sessions[s]? with
  | none => exact .pure fun _ hw => hw.1
  | some session =>
    dsimp only
    split
    · refine .bind ((signalChild_represented represented_call).pre fun _ hw => hw.1) fun sent => ?_
      split
      · exact .pure fun _ => id
      · exact .pure fun _ => id
    · exact .pure fun _ hw => hw.1

theorem retireExited_represented : Keeps (World.Represented []) (retireExited s) := by
  refine Triple.bind server_triple fun h => ?_
  cases hsession : h.runtime.sessions[s]? with
  | none => exact .pure fun _ hw => hw.1
  | some session =>
    dsimp only
    split
    · exact .pure fun _ hw => hw.1
    · rename_i hexit
      have hcall : CallClosed fun w => w.Represented [] ∧ w.server = h := fun w w' hc hw =>
        ⟨represented_call w w' hc hw.1, hc.server.trans hw.2⟩
      refine .bind (call_triple hcall) fun turn => ?_
      split
      · exact .pure fun _ hw => hw.1
      · rintro w ⟨hw, rfl⟩
        refine ⟨hw.runtime.retire hsession ?_, hw.terminal⟩
        simpa [Option.isSome_iff_ne_none] using hexit

theorem markLogFailed_represented :
    Keeps (World.Represented []) (modifyRuntime (·.degradeLog s)) :=
  Keeps.update degradeLog_represented

end control

section create

theorem openSession_represented :
    Triple (fun w => w.Represented [] ∧ w.server.runtime.sessions[s]? = none) (openSession s)
      (fun pty w => w.Represented [] ∧ w.server.runtime.sessions[s]? = none ∧
        w.server.runtime.ptyToSession[pty.masterFd]? = none ∧
        ∃ t, w.terminals[pty.masterFd]? = some t)
      (fun _ => World.Represented []) := by
  have hcall : CallClosed fun w =>
      w.Represented [] ∧ w.server.runtime.sessions[s]? = none := fun w w' hc hw =>
    ⟨represented_call w w' hc hw.1, by rw [hc.server]; exact hw.2⟩
  refine .bind (call_triple hcall) fun turn => ?_
  cases turn.fault with
  | some source =>
    exact .bind (Q := fun _ => World.Represented []) (.update fun w hw =>
      represented_failed w _ hw.1) fun _ => .fail fun _ => id
  | none =>
    rintro w ⟨hw, hnew⟩
    have hfree := terminal_of_not_open (w.isOpen_freshFd turn.fd)
    have hkeep : ∀ (fd : Fd) t, w.terminals[fd]? = some t →
        (w.terminals.insert (w.freshFd turn.fd) { pid := turn.pid })[fd]? = some t := by
      intro fd t ht
      rw [NatMap.get_insert, if_neg, ht]
      rintro rfl
      rw [hfree] at ht
      cases ht
    refine ⟨⟨hw.runtime, fun fd s hs => ?_⟩, hnew, ?_, ⟨{ pid := turn.pid }, ?_⟩⟩
    · obtain ⟨t, ht⟩ := hw.terminal fd s hs
      exact ⟨t, hkeep fd t ht⟩
    · cases hpty : w.server.runtime.ptyToSession[w.freshFd turn.fd]? with
      | none => rfl
      | some s' =>
        obtain ⟨t, ht⟩ := hw.terminal _ s' hpty
        rw [hfree] at ht
        cases ht
    · dsimp only
      rw [NatMap.get_insert, if_pos rfl]

theorem create_represented {request : CreateSessionRequest}
    (hvalid : validateCreate request = .ok ()) : Keeps (World.Represented []) (create request) := by
  refine Triple.bind server_triple fun h => ?_
  dsimp only
  split
  · exact .pure fun _ hw => hw.1
  · rename_i hnew
    split
    · exact .pure fun _ hw => hw.1
    · refine .bind (openSession_represented (s := request.sessionId) |>.pre ?_) fun pty => ?_
      · rintro w ⟨hw, rfl⟩
        refine ⟨hw, ?_⟩
        cases hsession : w.server.runtime.sessions[request.sessionId]? with
        | none => rfl
        | some session => exact absurd ((NatMap.contains_iff _ _).mpr ⟨session, hsession⟩) hnew
      have hcall : CallClosed fun w => w.Represented [] ∧
          w.server.runtime.sessions[request.sessionId]? = none ∧
          w.server.runtime.ptyToSession[pty.masterFd]? = none ∧
          ∃ t, w.terminals[pty.masterFd]? = some t := by
        rintro w w' hc ⟨hw, hfree, hpty, t, ht⟩
        rw [hc.server]
        refine ⟨represented_call w w' hc hw, hfree, hpty, ?_⟩
        have hgrown := hc.terminals pty.masterFd
        rw [ht] at hgrown
        generalize w'.terminals[pty.masterFd]? = o at hgrown
        cases hgrown with
        | some _ _ => exact ⟨_, rfl⟩
      refine .bind (nowMs_triple hcall) fun now => ?_
      refine .bind (ringBuffer_triple (ringBufferSize_pos_of_validateCreate hvalid)) fun ring => ?_
      rintro w ⟨⟨hw, hfree, hpty, hterminal⟩, -⟩
      refine ⟨hw.runtime.create hfree hpty rfl rfl rfl, fun fd s hs => ?_⟩
      change (w.server.runtime.ptyToSession.insert pty.masterFd request.sessionId)[fd]? = some s
        at hs
      rw [NatMap.get_insert] at hs
      split at hs
      · rename_i heq
        rw [← heq]
        exact hterminal
      · exact hw.terminal fd s hs

end create

section drain

/-- The loop is at work on the terminal of `s` and ends within `fuel` passes. -/
structure Drains (s : SessionId) (fd : Fd) (fuel : Nat) (w : World) : Prop where
  represented : w.Represented []
  pty : w.server.runtime.ptyToSession[fd]? = some s
  fuel : drainFuel w fd ≤ fuel

variable {fuel : Nat}

theorem drains_call : CallClosed (Drains s fd fuel) := fun w w' hc h =>
  ⟨represented_call w w' hc h.represented, by rw [hc.server]; exact h.pty,
    (hc.fuel fd).trans h.fuel⟩

theorem drains_note (n : Note) :
    Triple (Drains s fd fuel) (note n) (fun _ => Drains s fd fuel) E :=
  .update fun _ h => ⟨⟨h.represented.runtime, h.represented.terminal⟩, h.pty, h.fuel⟩

theorem drains_modifySession {f : Session → Session}
    (hpty : ∀ session, (f session).pty = session.pty)
    (hexit : ∀ session, (f session).exitCode = session.exitCode)
    (hinput : ∀ session, (f session).input = session.input) :
    Triple (Drains s fd fuel) (modifySession s f) (fun _ => Drains s fd fuel) E :=
  .update fun w h => ⟨modifySession_represented hpty hexit hinput w h.represented, h.pty, h.fuel⟩

theorem drains_storeChunk (chunk : Bytes) :
    Triple (Drains s fd fuel) (storeChunk s chunk) (fun _ => Drains s fd fuel) E := by
  let stored (session : Session) : Session := { session with ring := session.ring.write chunk }
  let active (now : Nat) (session : Session) : Session := { session with lastActiveAtMs := now }
  refine .bind (drains_modifySession (f := stored) (fun _ => rfl) (fun _ => rfl) fun _ => rfl)
    fun _ => .bind (drains_note _) fun _ => .bind (nowMs_triple drains_call) fun now => ?_
  refine .bind (drains_modifySession (f := active now) (fun _ => rfl) (fun _ => rfl) fun _ => rfl)
    fun _ => .bind (Q := fun _ => Drains s fd fuel) (.read fun _ => id) fun h => ?_
  split
  · exact .bind (call_triple drains_call) fun _ => .pure fun _ => id
  · exact .pure fun _ => id

theorem drainLoop_represented (fuel : Nat) :
    Triple (Drains s fd fuel) (drainLoop s fd fuel) (fun _ w => w.Represented [] ∧
      w.server.runtime.ptyToSession[fd]? = some s) (fun _ => World.Represented []) := by
  induction fuel with
  | zero =>
    refine .of_false fun w hw => ?_
    have := hw.fuel
    rw [drainFuel] at this
    omega
  | succ fuel ih =>
    have hdry : Triple (Drains s fd (fuel + 1)) (do
          noteDry fd
          return ([], 0))
        (fun (_ : List Bytes × Nat) w => w.Represented [] ∧
          w.server.runtime.ptyToSession[fd]? = some s) (fun _ => World.Represented []) :=
      .bind (.bind (Q := fun _ => Drains s fd (fuel + 1)) (.read fun _ => id) fun _ =>
        drains_note _) fun _ => .pure fun w hw => ⟨hw.represented, hw.pty⟩
    refine .bind (readOutput_triple drains_call maxHolderIoFrame) fun r => ?_
    cases r with
    | error source =>
      have hfails : Triple (Drains s fd (fuel + 1)) (failIo (.readPty s) source)
          (fun (_ : List Bytes × Nat) w => w.Represented [] ∧
            w.server.runtime.ptyToSession[fd]? = some s) (fun _ => World.Represented []) :=
        .bind (Q := fun _ => World.Represented []) (.update fun w hw =>
          represented_failed w _ hw.represented) fun _ => .fail fun _ => id
      refine Triple.pre (P := Drains s fd (fuel + 1)) ?_ ?_
      · cases source with
        | io => exact hdry
        | _ => exact hfails
      · rintro w (⟨⟨hw, -⟩, -⟩ | ⟨chunk, _, _, hr, -⟩)
        · exact hw
        · cases hr
    | ok chunk =>
      cases chunk with
      | nil =>
        refine hdry.pre ?_
        rintro w (⟨⟨hw, -⟩, -⟩ | ⟨chunk, _, _, hr, hne, -⟩)
        · exact hw
        · cases hr
          exact absurd rfl hne
      | cons b bs =>
        refine .bind ((drains_storeChunk (b :: bs)).pre ?_) fun dropped =>
          .bind ih fun r => .pure fun _ => id
        rintro w' (⟨-, hnil⟩ | ⟨chunk, w, t, hr, hne, hw, ht, hchunk, rfl⟩)
        · cases hnil _ rfl
        · have hless : drainFuel (w.drain s fd t chunk) fd < drainFuel w fd :=
            drainFuel_drain ht hchunk hne
          refine ⟨⟨hw.represented.runtime, fun fd' s' hs' => ?_⟩, hw.pty,
            Nat.le_of_lt_succ (hless.trans_le hw.fuel)⟩
          obtain ⟨t', ht'⟩ := hw.represented.terminal fd' s' hs'
          dsimp only
          rw [NatMap.get_insert]
          split
          · exact ⟨_, rfl⟩
          · exact ⟨t', ht'⟩

/-- A drain leaves the table of terminals as it was. -/
theorem drainOutput_represented (fd : Fd) :
    Triple (World.Represented []) (drainOutput fd) (fun batch w => w.Represented [] ∧
      w.server.runtime.ptyToSession[fd]? = some batch.sessionId)
      (fun _ => World.Represented []) := by
  refine .bind server_triple fun h => ?_
  cases hs : h.runtime.sessionForPty fd with
  | none => exact .fail fun _ hw => hw.1
  | some s =>
    refine .bind (Q := fun h w => (w.Represented [] ∧
      w.server.runtime.ptyToSession[fd]? = some s) ∧ w.server = h) (.read ?_) fun h => ?_
    · rintro w ⟨hw, rfl⟩
      exact ⟨⟨hw, hs⟩, rfl⟩
    refine .bind (Q := fun session w => (w.Represented [] ∧
      w.server.runtime.ptyToSession[fd]? = some s) ∧ session.pty.isSome = true) (.unwrap ?_)
      fun session => ?_
    · rintro w ⟨⟨hw, hfd⟩, rfl⟩
      obtain ⟨session, pty, hsession, hpty, -⟩ := hw.runtime.session hfd
      exact ⟨session, hsession, ⟨hw, hfd⟩, by rw [hpty]; rfl⟩
    by_cases hpty : session.pty.isSome = true
    · simp only [hpty, if_true]
      refine .bind (Q := fun w' w => Drains s fd (drainFuel w' fd) w)
        (.read fun w hw => ⟨hw.1.1, hw.1.2, le_rfl⟩) fun w' => .bind (drainLoop_represented _)
        fun r => ?_
      split
      · refine .bind (Q := fun _ w => w.Represented [] ∧
          w.server.runtime.ptyToSession[fd]? = some s) (.update fun w hw => ?_) fun _ =>
          .pure fun _ => id
        refine ⟨degradeLog_represented w hw.1, ?_⟩
        have hptys : (w.server.runtime.degradeLog s).ptyToSession =
            w.server.runtime.ptyToSession := degradeLog_ptyToSession _ _
        dsimp only
        rw [hptys]
        exact hw.2
      · exact .pure fun _ => id
    · exact .of_false fun w hw => hpty hw.2

end drain

section reap

variable [SerdeJson] {p : Std.ExtTreeMap Fd SessionId}

/-- Exits are recorded and no terminal closed so far. -/
def Polling (p : Std.ExtTreeMap Fd SessionId) (reaped : List SessionId) (w : World) : Prop :=
  w.Represented reaped ∧ w.server.runtime.ptyToSession = p

omit [SerdeJson] in
theorem pollSession_alter {w : World} {session : Session} {pty : PtySession} (code : Int)
    (state : Option ShellState) (now : Nat) (hw : Polling p reaped w)
    (hsession : w.server.runtime.sessions[s]? = some session) (hpty : session.pty = some pty) :
    Polling p (s :: reaped) { w with server := { w.server with
      runtime := { w.server.runtime with
        sessions := w.server.runtime.sessions.alter s
          (·.map fun _ => session.withExit pty code state now) } } } := by
  refine ⟨⟨hw.1.runtime.alter (fun s' hne => ?_) fun session' hs' => ?_, hw.1.terminal⟩, hw.2⟩
  · rw [List.mem_cons, or_iff_right hne]
  · cases hsession.symm.trans hs'
    obtain ⟨hsound, hbytes⟩ := hw.1.runtime.input s session hsession
    have hinput : (session.withExit pty code state now).input = session.input := by
      cases state <;> rfl
    refine ⟨by rw [hpty]; rfl, iff_of_true rfl (.inr List.mem_cons_self), ?_⟩
    rw [hinput]
    exact ⟨hsound, hbytes⟩

theorem pollSession_represented (s : SessionId) :
    Triple (Polling p reaped) (pollSession s)
      (fun r w => Polling p ((r.map (·.sessionId)).toList ++ reaped) w ∧
        ∀ exited, r = some exited → exited.sessionId = s ∧ p[exited.ptyFd]? = some s)
      (fun _ _ => True) := by
  refine .bind server_triple fun h => ?_
  have hnone : Triple (fun w => Polling p reaped w ∧ w.server = h)
      (pure none : Holder (Option ExitedSession))
      (fun r w => Polling p ((r.map (·.sessionId)).toList ++ reaped) w ∧
        ∀ exited, r = some exited → exited.sessionId = s ∧ p[exited.ptyFd]? = some s)
      (fun _ _ => True) := .pure fun _ hw => ⟨hw.1, fun _ heq => by cases heq⟩
  have hcall : CallClosed fun w => Polling p reaped w ∧ w.server = h := fun w w' hc hw =>
    ⟨⟨represented_call w w' hc hw.1.1, by rw [hc.server]; exact hw.1.2⟩, hc.server.trans hw.2⟩
  cases hsession : h.runtime.sessions[s]? with
  | none => exact hnone
  | some session =>
    cases hpty : session.pty with
    | none => simpa only [hpty] using hnone
    | some pty =>
      simp only [hpty]
      refine .bind ((pollExit_keeps hcall pty).conseq (fun _ => id) (fun _ _ => id)
        fun _ _ _ => trivial) fun code => ?_
      cases code with
      | none => exact hnone
      | some code =>
        refine .bind (Triple.bind (R := fun _ w => Polling p reaped w ∧ w.server = h)
          (call_triple hcall) fun _ => .pure fun _ => id) fun state => ?_
        refine .bind (nowMs_triple hcall) fun now => .bind (Q := fun _ w =>
          Polling p (s :: reaped) w ∧ p[pty.masterFd]? = some s) (.update ?_) fun _ =>
            .pure fun w hw => ⟨hw.1, ?_⟩
        · rintro w ⟨hw, rfl⟩
          refine ⟨pollSession_alter code state now hw hsession hpty, ?_⟩
          rw [← hw.2, hw.1.runtime.ptyOf, Runtime.ptyFd_eq, hsession, Option.bind_some, hpty]
          rfl
        · rintro exited ⟨⟩
          exact ⟨rfl, hw.2⟩

theorem pollSessions_represented (ids : List SessionId) :
    Triple (Polling p reaped) (pollSessions ids)
      (fun exited w => Polling p (exited.map (·.sessionId) ++ reaped) w ∧
        (∀ e ∈ exited, p[e.ptyFd]? = some e.sessionId) ∧
        (exited.map (·.sessionId)).Sublist ids) (fun _ _ => True) := by
  induction ids generalizing reaped with
  | nil => exact .pure fun _ hw => ⟨hw, by simp⟩
  | cons s ids ih =>
    refine .bind (pollSession_represented s) fun r => ?_
    by_cases hr : ∀ exited, r = some exited → exited.sessionId = s ∧ p[exited.ptyFd]? = some s
    · refine .bind (ih.pre fun w hw => hw.1) fun rest => .pure ?_
      rintro w ⟨hw, hptys, hids⟩
      cases r with
      | none => exact ⟨hw, hptys, hids.trans (List.sublist_cons_self _ _)⟩
      | some exited =>
        obtain ⟨rfl, hpty⟩ := hr exited rfl
        refine ⟨⟨⟨hw.1.runtime.congr fun s' => ?_, hw.1.terminal⟩, hw.2⟩, ?_, hids.cons_cons _⟩
        · simp only [Option.toList, Option.map_some, List.map_append, List.map_cons, List.map_nil,
            List.mem_append, List.mem_cons]
          tauto
        · intro e he
          rcases List.mem_append.mp he with he | he
          · cases List.mem_singleton.mp he
            exact hpty
          · exact hptys e he
    · exact .of_false fun w hw => hr hw.2

/-- Between two drops the sessions still to come have their terminals. -/
structure Drops (left : List ExitedSession) (w : World) : Prop where
  represented : w.Represented (left.map (·.sessionId))
  ptys : ∀ e ∈ left, w.server.runtime.ptyToSession[e.ptyFd]? = some e.sessionId
  distinct : (left.map (·.sessionId)).Nodup

omit [SerdeJson] in
theorem Drops.drop {left : List ExitedSession} {e : ExitedSession} {w : World}
    (h : Drops (e :: left) w) : Drops left (w.dropPty e.sessionId e.ptyFd) := by
  have hpty := h.ptys e List.mem_cons_self
  obtain ⟨hfresh, hdistinct⟩ := List.nodup_cons.mp h.distinct
  refine ⟨⟨h.represented.runtime.drop hpty, fun fd s hs => ?_⟩, fun e' he' => ?_, hdistinct⟩
  · change (w.server.runtime.ptyToSession.erase e.ptyFd)[fd]? = some s at hs
    rw [NatMap.get_erase] at hs
    split at hs
    · cases hs
    · rename_i hne
      obtain ⟨t, ht⟩ := h.represented.terminal fd s hs
      refine ⟨t, ?_⟩
      change (w.terminals.erase e.ptyFd)[fd]? = some t
      rw [NatMap.get_erase, if_neg hne, ht]
  · have hpty' := h.ptys e' (List.mem_cons_of_mem _ he')
    change (w.server.runtime.ptyToSession.erase e.ptyFd)[e'.ptyFd]? = _
    rw [NatMap.get_erase, if_neg, hpty']
    intro heq
    rw [heq, hpty'] at hpty
    exact hfresh (List.mem_map.mpr ⟨e', he', Option.some.inj hpty⟩)

/-- Only a collection that fails leaves exits recorded whose terminals are still there. -/
theorem reapExited_represented :
    Triple (World.Represented []) reapExited (fun _ => World.Represented [])
      (fun _ _ => True) := by
  refine .bind server_triple fun h => ?_
  have hnodup : h.runtime.sessions.keys.Nodup := h.runtime.sessions.nodup_keys
  have hpoll : Triple (Polling h.runtime.ptyToSession [])
      (pollSessions h.runtime.sessions.keys) _ (fun _ _ => True) := pollSessions_represented _
  refine .bind (hpoll.pre ?_) fun exited => ?_
  · rintro w ⟨hw, rfl⟩
    exact ⟨hw, rfl⟩
  refine .bind (Q := fun _ => Drops []) ?_ fun _ => .pure fun w hw => hw.represented
  refine (Triple.forEach (I := Drops) (fun e left w hw => ?_) exited).pre ?_
  · rw [dropPty_run]
    exact hw.drop
  · rintro w ⟨hw, hptys, hids⟩
    refine ⟨?_, fun e he => ?_, hids.nodup hnodup⟩
    · simpa using hw.1
    · rw [hw.2]
      exact hptys e he

end reap

end operations

end Holder

/-- The operations of the runtime. Requests to create a session come out of the decoder. -/
inductive RuntimeOp where
  | create (request : CreateSessionRequest) (valid : validateCreate request = .ok ())
  | drainOutput (fd : Fd)
  | queueInput (s : SessionId) (data : Bytes)
  | flushInput (s : SessionId)
  | close (s : SessionId)
  | kill (s : SessionId)
  | retireExited (s : SessionId)
  | reapExited
  | markLogFailed (s : SessionId)

namespace RuntimeOp
open Program

variable [SerdeJson]

def run : RuntimeOp → Holder Unit
  | create request _ => do let _ ← Holder.create request
  | drainOutput fd => do let _ ← Holder.drainOutput fd
  | queueInput s data => do let _ ← Holder.queueInput s data
  | flushInput s => do let _ ← Holder.flushInput s
  | close s => do let _ ← Holder.close s
  | kill s => do let _ ← Holder.kill s
  | retireExited s => do let _ ← Holder.retireExited s
  | reapExited => do let _ ← Holder.reapExited
  | markLogFailed s => Holder.modifyRuntime (·.degradeLog s)

/-- Input is flushed of a session that is there. -/
def Called (op : RuntimeOp) (r : Runtime) : Prop :=
  ∀ s, op = flushInput s → ∃ session, r.sessions[s]? = some session

theorem moves (op : RuntimeOp) (w₀ : World) : Leaves (Moved w₀) op.run := by
  cases op with
  | create request hvalid => exact .bind (Holder.moves_create hvalid) fun _ => .pure _
  | drainOutput fd => exact .bind Holder.closed_moved.leaves_drainOutput fun _ => .pure _
  | queueInput s data => exact .bind (Holder.closed_moved.leaves_queueInput data) fun _ => .pure _
  | flushInput s => exact .bind Holder.closed_moved.leaves_flushInput fun _ => .pure _
  | close s => exact .bind Holder.closed_moved.leaves_close fun _ => .pure _
  | kill s => exact .bind Holder.closed_moved.leaves_kill fun _ => .pure _
  | retireExited s => exact .bind Holder.closed_moved.leaves_retireExited fun _ => .pure _
  | reapExited => exact .bind Holder.moves_reapExited fun _ => .pure _
  | markLogFailed s => exact Holder.closed_moved.leaves_degradeLog

/-- No operation that is called aborts, and only a collection that fails breaks the
representation. -/
theorem represented (op : RuntimeOp) :
    Triple (fun w => w.Represented [] ∧ op.Called w.server.runtime) op.run
      (fun _ => World.Represented []) (fun _ w => op ≠ reapExited → w.Represented []) := by
  have hkeeps : ∀ {α : Type} {m : Holder α}, Keeps (World.Represented []) m →
      Triple (fun w => w.Represented [] ∧ op.Called w.server.runtime)
        (m >>= fun _ => pure () : Holder Unit) (fun _ => World.Represented [])
        (fun _ w => op ≠ reapExited → w.Represented []) := fun hm =>
    .bind (hm.conseq (fun _ => And.left) (fun _ _ => id) fun _ _ hw _ => hw) fun _ =>
      .pure fun _ => id
  cases op with
  | create request hvalid => exact hkeeps (Holder.create_represented hvalid)
  | drainOutput fd =>
    exact hkeeps ((Holder.drainOutput_represented fd).post fun _ _ => And.left)
  | queueInput s data => exact hkeeps (Holder.queueInput_represented data)
  | flushInput s =>
    refine .bind (Q := fun _ => World.Represented []) ((Holder.flushInput_stands (s := s)).conseq
      ?_ (fun _ _ => And.left) fun _ _ hw _ => hw.1) fun _ => .pure fun _ => id
    exact fun w hw => ⟨hw.1, hw.2 s rfl⟩
  | close s => exact hkeeps Holder.close_represented
  | kill s => exact hkeeps Holder.kill_represented
  | retireExited s => exact hkeeps Holder.retireExited_represented
  | reapExited =>
    exact .bind (Holder.reapExited_represented.conseq (fun _ => And.left) (fun _ _ => id)
      fun _ _ _ hne => absurd rfl hne) fun _ => .pure fun _ => id
  | markLogFailed s =>
    exact Holder.markLogFailed_represented.conseq (fun _ => And.left) (fun _ _ => id)
      fun _ _ hw _ => hw

/-- Without the session a flush aborts. -/
theorem called_or_abort (op : RuntimeOp) (w : World) :
    op.Called w.server.runtime ∨ ∃ w', op.run w = (.panic, w') := by
  by_cases hcalled : op.Called w.server.runtime
  · exact .inl hcalled
  · unfold Called at hcalled
    push Not at hcalled
    obtain ⟨s, rfl, hnot⟩ := hcalled
    have hnone : w.server.runtime.sessions[s]? = none := by
      cases hsession : w.server.runtime.sessions[s]? with
      | none => rfl
      | some session => exact absurd hsession (hnot session)
    refine .inr ⟨w, bind_panic (m := Holder.flushInput s) ?_⟩
    change (Program.unwrap w.server.runtime.sessions[s]? >>= _ : Holder Bool) w = _
    rw [hnone]
    rfl

end RuntimeOp

section runs

variable [SerdeJson]

/-- The states of the runtime in the life of a holder: from the empty runtime by operations that
return, and by others that fail; a collection that fails ends the holder. Between two operations
everything but the runtime and its terminals may change. -/
inductive RuntimeRun : World → Prop
  | start {w : World} (hsessions : w.server.runtime.sessions = ∅)
      (hptys : w.server.runtime.ptyToSession = ∅) (hgeneration : w.server.runtime.generation = 0) :
      RuntimeRun w
  | between {w w' : World} (h : RuntimeRun w) (hruntime : w'.server.runtime = w.server.runtime)
      (hopen : ∀ (fd : Fd) t, w.terminals[fd]? = some t → ∃ t', w'.terminals[fd]? = some t') :
      RuntimeRun w'
  | returned {w w' : World} {op : RuntimeOp} (h : RuntimeRun w) (hrun : op.run w = (.ok (), w')) :
      RuntimeRun w'
  | failed {w w' : World} {op : RuntimeOp} {e : PersistError} (h : RuntimeRun w)
      (hop : op ≠ .reapExited) (hrun : op.run w = (.err e, w')) : RuntimeRun w'

theorem RuntimeRun.represented {w : World} (h : RuntimeRun w) : w.Represented [] := by
  induction h with
  | start hsessions hptys _ =>
    refine ⟨.empty hsessions hptys, fun fd s hs => ?_⟩
    rw [hptys] at hs
    simp at hs
  | between h hruntime hopen ih =>
    refine ⟨by rw [hruntime]; exact ih.runtime, fun fd s hs => ?_⟩
    rw [hruntime] at hs
    obtain ⟨t, ht⟩ := ih.terminal fd s hs
    exact hopen fd t ht
  | @returned w w' op h hrun ih =>
    rcases op.called_or_abort w with hcalled | ⟨_, habort⟩
    · have hkeeps := op.represented w ⟨ih, hcalled⟩
      rw [hrun] at hkeeps
      exact hkeeps
    · rw [habort] at hrun
      cases hrun
  | @failed w w' op e h hop hrun ih =>
    rcases op.called_or_abort w with hcalled | ⟨_, habort⟩
    · have hkeeps := op.represented w ⟨ih, hcalled⟩
      rw [hrun] at hkeeps
      exact hkeeps hop
    · rw [habort] at hrun
      cases hrun

/-- An operation advances the generation a number of times. -/
theorem RuntimeOp.generation (op : RuntimeOp) (w : World) :
    ∃ n, (op.run w).2.server.runtime.generation =
      nextGeneration^[n] w.server.runtime.generation := by
  obtain ⟨n, hn⟩ := evolves_moved (op.moves w w .refl)
  exact ⟨n, hn.version⟩

theorem RuntimeRun.generation_lt {w : World} (h : RuntimeRun w) :
    w.server.runtime.generation < 2 ^ 64 := by
  have hiterate : ∀ {g : Nat} (n : Nat), g < 2 ^ 64 → nextGeneration^[n] g < 2 ^ 64 := by
    intro g n hg
    cases n with
    | zero => exact hg
    | succ n =>
      rw [Function.iterate_succ_apply']
      exact nextGeneration_lt _
  have hop : ∀ (op : RuntimeOp) {w : World}, w.server.runtime.generation < 2 ^ 64 →
      (op.run w).2.server.runtime.generation < 2 ^ 64 := by
    intro op w hw
    obtain ⟨n, hn⟩ := op.generation w
    rw [hn]
    exact hiterate n hw
  induction h with
  | start _ _ hgeneration =>
    rw [hgeneration]
    decide
  | between _ hruntime _ ih =>
    rw [hruntime]
    exact ih
  | @returned w w' op h hrun ih =>
    have := hop op ih
    rw [hrun] at this
    exact this
  | @failed w w' op e h _ hrun ih =>
    have := hop op ih
    rw [hrun] at this
    exact this

omit [SerdeJson] in
/-- A generation that is smaller after a number of changes has passed the largest. -/
theorem iterate_wraps {generation n : Nat} (h : nextGeneration^[n] generation < generation) :
    2 ^ 64 ≤ generation + n ∧ 1 ≤ nextGeneration^[n] generation := by
  obtain ⟨m, rfl⟩ : ∃ m, n = m + 1 := by
    cases n with
    | zero => exact absurd h (lt_irrefl _)
    | succ m => exact ⟨m, rfl⟩
  refine ⟨?_, iterate_succ_pos _ _⟩
  by_contra hnot
  rw [iterate_nextGeneration (by omega) (by omega)] at h
  omega

/-- After every operation of the runtime its tables, terminals, exit codes and input queues fit
together, its generation has only advanced, and no look-up of the event loop fails. -/
theorem runtime_represented {w : World} (h : RuntimeRun w) :
    w.server.runtime.Represented [] ∧
    (∀ (s : SessionId) session, w.server.runtime.sessions[s]? = some session →
      (session.pty = none ↔ session.exitCode.isSome)) ∧
    (∀ (fd fd' : Fd) s, w.server.runtime.ptyToSession[fd]? = some s →
      w.server.runtime.ptyToSession[fd']? = some s → fd = fd') ∧
    w.server.runtime.generation < 2 ^ 64 ∧
    (∀ op : RuntimeOp, ∃ n, (op.run w).2.server.runtime.generation =
        nextGeneration^[n] w.server.runtime.generation ∧
      ((op.run w).2.server.runtime.generation < w.server.runtime.generation →
        2 ^ 64 ≤ w.server.runtime.generation + n ∧
          1 ≤ (op.run w).2.server.runtime.generation)) ∧
    (∀ op : RuntimeOp, (∀ s, op = .flushInput s →
      ∃ fd, w.server.runtime.sessionForPty fd = some s) → (op.run w).1 ≠ .panic) ∧
    (∀ (fd : Fd) batch w', Holder.drainOutput fd w = (.ok batch, w') →
      w'.server.runtime.sessionForPty fd = some batch.sessionId) ∧
    ∀ config r, HolderReachable config r → ¬ r.status matches .panicked := by
  have hw := h.represented
  refine ⟨hw.runtime, fun s session hs => ?_, fun fd fd' s => hw.runtime.unique, h.generation_lt,
    fun op => ?_, fun op hcalled hpanic => ?_, fun fd batch w' hrun => ?_,
    fun config r hr => hr.safe.alive⟩
  · simpa using (hw.runtime.exit s session hs).symm
  · obtain ⟨n, hn⟩ := op.generation w
    refine ⟨n, hn, fun hless => ?_⟩
    rw [hn] at hless ⊢
    exact iterate_wraps hless
  · have hkeeps := op.represented w ⟨hw, fun s heq => ?_⟩
    swap
    · obtain ⟨fd, hfd⟩ := hcalled s heq
      obtain ⟨session, -, hsession, -⟩ := hw.runtime.session hfd
      exact ⟨session, hsession⟩
    generalize op.run w = outcome at hkeeps hpanic
    obtain ⟨outcome, w'⟩ := outcome
    obtain rfl : outcome = .panic := hpanic
    exact hkeeps
  · have hkeeps := Holder.drainOutput_represented fd w hw
    rw [hrun] at hkeeps
    exact hkeeps.2

end runs

section sample

theorem sampleCreate_valid : validateCreate (Script.createRequest 1) = .ok () := by decide +kernel

/-- A holder that has one session with its terminal on descriptor 7. -/
theorem runtime_represented_one :
    letI := Script.json
    let w := { sampleConfig.start.world with script := [{ fd := 7 }] }
    let run := RuntimeOp.run (.create (Script.createRequest 1) sampleCreate_valid) w
    run.1 = .ok () ∧ run.2.server.runtime.ptyToSession[7]? = some 1 ∧
      run.2.server.runtime.Represented [] := by
  let _ := Script.json
  refine ⟨by decide +kernel, by decide +kernel, (runtime_represented ?_).1⟩
  let create : RuntimeOp := .create (Script.createRequest 1) sampleCreate_valid
  have hok : (create.run { sampleConfig.start.world with script := [{ fd := 7 }] }).1 = .ok () := by
    decide +kernel
  exact .returned (.start rfl rfl rfl) (Prod.ext hok rfl)

end sample

end PersistShell

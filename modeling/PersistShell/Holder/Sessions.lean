import PersistShell.Holder.Detach

/-! Sessions are created, read and retired. A terminal belongs to at most one session, and
what was read from it is what the log says was drained. -/

namespace PersistShell

section terminals
variable {ph : Phase} {w : World} {fd fd' : Fd} {s s' : SessionId}

/-- A session has one terminal. -/
theorem Inv.pty_unique (h : Inv ph w) (hfd : w.server.runtime.ptyToSession[fd]? = some s)
    (hfd' : w.server.runtime.ptyToSession[fd']? = some s) : fd = fd' := by
  obtain ⟨core, pty, hcore, hpty, rfl⟩ := (h.ptyOf fd s).mp hfd
  obtain ⟨core', pty', hcore', hpty', rfl⟩ := (h.ptyOf fd' s).mp hfd'
  rw [hcore] at hcore'
  cases hcore'
  rw [hpty] at hpty'
  cases hpty'
  rfl

theorem Inv.core_of_pty (h : Inv ph w) (hfd : w.server.runtime.ptyToSession[fd]? = some s) :
    w.core s ≠ none := by
  obtain ⟨core, -, hcore, -⟩ := (h.ptyOf fd s).mp hfd
  rw [hcore]
  exact Option.some_ne_none _

/-- The duties to the connections are the same, where there is anyone to have them to. -/
theorem Inv.owe {owed : Fd → SessionId → List Bytes} (h : Inv ph w)
    (howed : ∀ fd s, (table w.log).place fd = some s → owed fd s = ph.owed fd s) :
    Inv { ph with owed } w := by
  refine { h with streams := fun fd s hs => ?_ }
  dsimp only
  rw [howed fd s hs]
  exact h.streams fd s hs

/-- What is owed of one session to everyone attached to it. -/
def owing (s : SessionId) (chunks : List Bytes) : Fd → SessionId → List Bytes :=
  fun _ s' => if s' = s then chunks else []

end terminals

section create
variable {w : World} {fd : Fd} {s : SessionId}

/-- What `create` adds to the runtime. -/
def World.create (w : World) (s : SessionId) (fd : Fd) (session : Session) : World :=
  { w with
    server := { w.server with
      runtime := ({ w.server.runtime with
        sessions := w.server.runtime.sessions.insert s session
        ptyToSession := w.server.runtime.ptyToSession.insert fd s }).bumpGeneration }
    log := .created s fd :: w.log }

theorem World.core_create (w : World) (s : SessionId) (fd : Fd) (session : Session)
    (s' : SessionId) :
    (w.create s fd session).core s' = if s = s' then some session.core else w.core s' := by
  simp only [World.core, World.create, Runtime.bumpGeneration]
  rw [NatMap.get_insert]
  split <;> rfl

/-- A terminal that was just opened for a session that does not exist. -/
structure Fresh (s : SessionId) (fd : Fd) (w : World) : Prop where
  core : w.core s = none
  pty : w.server.runtime.ptyToSession[fd]? = none
  terminal : ∃ t : Terminal, w.terminals[fd]? = some t ∧ t.taken = 0

theorem Fresh.quiet {w' : World} (h : Fresh s fd w) (hq : Quiet w w') : Fresh s fd w' := by
  refine ⟨(hq.core s).trans h.core, (hq.pty fd).trans h.pty, ?_⟩
  obtain ⟨t, ht, htaken⟩ := h.terminal
  have hgrown := hq.terminals fd
  rw [ht] at hgrown
  generalize hw : w'.terminals[fd]? = o at hgrown
  cases hgrown with
  | some htaken' _ => exact ⟨_, rfl, htaken'.trans htaken⟩

theorem Inv.create {session : Session} {pty : PtySession} {capacity : Nat} (h : Inv {} w)
    (hfresh : Fresh s fd w) (hpty : session.pty = some pty) (hfd : pty.masterFd = fd)
    (hring : RingBuffer.new capacity = some session.ring) (hexit : session.exitCode = none) :
    Inv {} (w.create s fd session) := by
  have hseats : Seats {} (w.create s fd session) := h.toSeats.unmoved rfl rfl rfl (table_cons _ _)
  have htable : table (.created s fd :: w.log) = table w.log := table_cons _ _
  have hlog : (w.create s fd session).log = .created s fd :: w.log := rfl
  have hptys : ∀ fd' : Fd, (w.create s fd session).server.runtime.ptyToSession[fd']? =
      if fd = fd' then some s else w.server.runtime.ptyToSession[fd']? :=
    fun fd' => NatMap.get_insert _ _ fd' _
  have hother : ∀ (fd' : Fd) s', fd ≠ fd' →
      (w.create s fd session).server.runtime.ptyToSession[fd']? = some s' →
      w.server.runtime.ptyToSession[fd']? = some s' ∧ s ≠ s' := by
    intro fd' s' hne hs'
    rw [hptys, if_neg hne] at hs'
    refine ⟨hs', ?_⟩
    rintro rfl
    exact h.core_of_pty hs' hfresh.core
  refine { hseats with
    ptyOf := ?_, exit := ?_
    terminal := ?_, dry := ?_, dried := nofun, ptys := nofun, gone := nofun, ring := ?_
    streams := ?_, present := ?_, facts := ⟨?_, h.facts⟩ }
  · intro fd' s'
    rw [hptys, World.core_create]
    by_cases hs : s = s'
    · subst hs
      rw [if_pos rfl]
      constructor
      · intro hs
        by_cases hne : fd = fd'
        · exact ⟨_, pty, rfl, hpty, hfd.trans hne⟩
        · rw [if_neg hne] at hs
          exact absurd hfresh.core (h.core_of_pty hs)
      · rintro ⟨core, pty', hcore, hpty', hfd'⟩
        cases hcore
        cases hpty.symm.trans hpty'
        rw [if_pos (hfd.symm.trans hfd')]
    · rw [if_neg hs, ← h.ptyOf]
      by_cases hne : fd = fd'
      · subst hne
        rw [if_pos rfl, hfresh.pty]
        exact ⟨fun he => absurd (Option.some.inj he) hs, nofun⟩
      · rw [if_neg hne]
  · intro s' core hcore
    rw [World.core_create] at hcore
    by_cases hs : s = s'
    · rw [if_pos hs] at hcore
      cases hcore
      simp [Session.core, hpty, hexit]
    · rw [if_neg hs] at hcore
      exact h.exit s' core hcore
  · intro fd' s' hs'
    rw [hlog]
    by_cases hne : fd = fd'
    · subst hne
      rw [hptys, if_pos rfl] at hs'
      cases hs'
      obtain ⟨t, ht, htaken⟩ := hfresh.terminal
      exact ⟨t, ht, by simp [htaken], by simp [htaken, drained]⟩
    · obtain ⟨hs', hs⟩ := hother fd' s' hne hs'
      rw [drained, if_neg hs]
      exact h.terminal fd' s' hs'
  · intro fd' s' n hs' hd hl
    rw [hlog, lastDry] at hl
    by_cases hne : fd = fd'
    · rw [if_pos hne] at hl
      cases hl
    · rw [if_neg hne] at hl
      exact h.dry fd' s' n (hother fd' s' hne hs').1 hd hl
  · intro s' core hcore
    rw [World.core_create] at hcore
    rw [hlog, drained]
    by_cases hs : s = s'
    · rw [if_pos hs] at hcore ⊢
      cases hcore
      exact (RingBuffer.readAll_of_new hring).trans (List.rtake_nil _).symm
    · rw [if_neg hs] at hcore ⊢
      exact h.ring s' core hcore
  · intro fd' s' hs'
    rw [hlog, htable] at hs'
    exact h.streams fd' s' hs'
  · intro hr fd' s' hs'
    rw [hlog, htable] at hs'
    rw [World.core_create]
    split
    · exact Option.some_ne_none _
    · exact h.present (fun s fds hmem => hr s fds (List.mem_cons_of_mem _ hmem)) fd' s' hs'
  · exact fun hr fd' hs' => h.present hr fd' s hs' hfresh.core

end create

section retire
variable {w : World} {s : SessionId} {fds : List Fd}

/-- What `retire_exited` removes from the runtime. -/
def World.retire (w : World) (s : SessionId) (fds : List Fd) : World :=
  { w with
    server := { w.server with
      runtime := ({ w.server.runtime with
        sessions := w.server.runtime.sessions.erase s }).bumpGeneration }
    log := .retired s fds :: w.log }

theorem World.core_retire (w : World) (s : SessionId) (fds : List Fd) (s' : SessionId) :
    (w.retire s fds).core s' = if s = s' then none else w.core s' := by
  simp only [World.core, World.retire, Runtime.bumpGeneration]
  rw [NatMap.get_erase]
  split <;> rfl

/-- A session that exited has no terminal any more when it is retired. -/
theorem Inv.retire {core : SessionCore} (h : Inv {} w) (hcore : w.core s = some core)
    (hexit : core.exitCode.isSome) (hfds : ∀ fd, (table w.log).place fd = some s → fd ∈ fds) :
    Inv {} (w.retire s fds) := by
  have hseats : Seats {} (w.retire s fds) := h.toSeats.unmoved rfl rfl rfl (table_cons _ _)
  have htable : table (.retired s fds :: w.log) = table w.log := table_cons _ _
  have hlog : (w.retire s fds).log = .retired s fds :: w.log := rfl
  have hpty : core.pty = none := by simpa using (h.exit s core hcore).mp hexit
  refine { hseats with
    ptyOf := ?_, exit := ?_
    terminal := h.terminal, dry := h.dry, dried := nofun, ptys := nofun, gone := nofun
    ring := ?_, streams := ?_, present := ?_, facts := ⟨hfds, h.facts⟩ }
  · intro fd s'
    rw [World.core_retire]
    refine (h.ptyOf fd s').trans ?_
    by_cases hs : s = s'
    · subst hs
      rw [if_pos rfl, hcore]
      constructor
      · rintro ⟨core', pty, hcore', hpty', -⟩
        cases hcore'
        rw [hpty] at hpty'
        cases hpty'
      · rintro ⟨core', pty, hcore', -⟩
        cases hcore'
    · rw [if_neg hs]
  · intro s' core' hcore'
    rw [World.core_retire] at hcore'
    split at hcore'
    · cases hcore'
    · exact h.exit s' core' hcore'
  · intro s' core' hcore'
    rw [World.core_retire] at hcore'
    split at hcore'
    · cases hcore'
    · exact h.ring s' core' hcore'
  · intro fd s' hs'
    rw [hlog, htable] at hs'
    exact h.streams fd s' hs'
  · intro hr fd s' hs'
    rw [hlog] at hr
    rw [hlog, htable] at hs'
    rw [World.core_retire, if_neg]
    · exact h.present (fun s fds hmem => hr s fds (List.mem_cons_of_mem _ hmem)) fd s' hs'
    · rintro rfl
      have hnil := hr s fds List.mem_cons_self
      have := hfds fd hs'
      rw [hnil] at this
      exact List.not_mem_nil this

end retire

section drain
variable {ph : Phase} {w : World} {fd : Fd} {s : SessionId} {t : Terminal} {chunk : Bytes}

/-- What the drain loop does with one chunk: it leaves the terminal for the ring buffer. -/
def World.drain (w : World) (s : SessionId) (fd : Fd) (t : Terminal) (chunk : Bytes) : World :=
  { w with
    server := { w.server with runtime := { w.server.runtime with
      sessions := w.server.runtime.sessions.alter s
        (·.map fun session => { session with ring := session.ring.write chunk }) } }
    terminals := w.terminals.insert fd { t with taken := t.taken + chunk.length }
    log := .drained s chunk :: w.log }

theorem World.core_drain (w : World) (s : SessionId) (fd : Fd) (t : Terminal) (chunk : Bytes)
    (s' : SessionId) :
    (w.drain s fd t chunk).core s' = if s = s' then
      (w.core s).map fun core => { core with ring := core.ring.write chunk } else w.core s' := by
  simp only [World.core, World.drain]
  rw [NatMap.get_alter]
  split
  · rw [Option.map_map, Option.map_map]
    rfl
  · rfl

theorem Inv.drain {chunks : List Bytes}
    (h : Inv { ph with draining := some fd, owed := owing s chunks } w)
    (hfd : w.server.runtime.ptyToSession[fd]? = some s) (ht : w.terminals[fd]? = some t)
    (hchunk : chunk <+: t.unread) :
    Inv { ph with draining := some fd, owed := owing s (chunks ++ [chunk]) }
      (w.drain s fd t chunk) := by
  have hbefore : Seats { ph with draining := some fd } w := { h.toSeats with }
  have hseats : Seats { ph with draining := some fd } (w.drain s fd t chunk) :=
    hbefore.unmoved rfl rfl rfl (table_cons _ _)
  have htable : table (.drained s chunk :: w.log) = table w.log := table_cons _ _
  have hlog : (w.drain s fd t chunk).log = .drained s chunk :: w.log := rfl
  have hcores : ∀ s' core, (w.drain s fd t chunk).core s' = some core → ∃ core',
      w.core s' = some core' ∧ core.pty = core'.pty ∧ core.exitCode = core'.exitCode ∧
      core.ring = if s = s' then core'.ring.write chunk else core'.ring := by
    intro s' core hcore
    rw [World.core_drain] at hcore
    split at hcore
    · rename_i hs
      obtain ⟨core', hcore', rfl⟩ := Option.map_eq_some_iff.mp hcore
      exact ⟨core', hs ▸ hcore', rfl, rfl, (if_pos hs).symm⟩
    · rename_i hs
      exact ⟨core, hcore, rfl, rfl, (if_neg hs).symm⟩
  refine { hseats with
    ptyOf := ?_, exit := ?_, terminal := ?_, dry := ?_, dried := h.dried, ptys := h.ptys
    gone := h.gone, ring := ?_, streams := ?_, present := ?_
    facts := ⟨trivial, h.facts⟩ }
  · intro fd' s'
    refine (h.ptyOf fd' s').trans ?_
    rw [World.core_drain]
    split
    · rename_i hs
      subst hs
      constructor
      · rintro ⟨core, pty, hcore, hpty, hmaster⟩
        exact ⟨_, pty, Option.map_eq_some_iff.mpr ⟨core, hcore, rfl⟩, hpty, hmaster⟩
      · rintro ⟨core, pty, hcore, hpty, hmaster⟩
        obtain ⟨core', hcore', rfl⟩ := Option.map_eq_some_iff.mp hcore
        exact ⟨core', pty, hcore', hpty, hmaster⟩
    · exact Iff.rfl
  · intro s' core hcore
    obtain ⟨core', hcore', hpty, hexit, -⟩ := hcores s' core hcore
    rw [hpty, hexit]
    exact h.exit s' core' hcore'
  · intro fd' s' hs'
    rw [hlog, drained]
    obtain ⟨t', ht', hle, htake⟩ := h.terminal fd' s' hs'
    simp only [World.drain]
    rw [NatMap.get_insert]
    by_cases hne : fd = fd'
    · subst hne
      cases hfd.symm.trans hs'
      cases ht.symm.trans ht'
      obtain ⟨rest, hrest⟩ := hchunk
      have hlen := congrArg List.length hrest
      simp only [Terminal.unread, List.length_append, List.length_drop] at hlen
      refine ⟨_, if_pos rfl, ?_, ?_⟩
      · dsimp only
        omega
      · dsimp only
        rw [List.take_add, htake, if_pos rfl]
        rw [Terminal.unread] at hrest
        rw [← hrest, List.take_left' rfl]
    · have hs : s ≠ s' := fun he => hne (h.pty_unique hfd (he ▸ hs'))
      rw [if_neg hne, if_neg hs, List.append_nil]
      exact ⟨t', ht', hle, htake⟩
  · intro fd' s' n hs' hd hl t' ht'
    have hne : fd ≠ fd' := fun he => hd (congrArg some he)
    rw [World.drain, NatMap.get_insert, if_neg hne] at ht'
    exact h.dry fd' s' n hs' hd hl t' ht'
  · intro s' core hcore
    obtain ⟨core', hcore', -, -, hring⟩ := hcores s' core hcore
    rw [hlog, drained, hring]
    by_cases hs : s = s'
    · rw [if_pos hs, if_pos hs, RingBuffer.readAll_write, RingBuffer.capacity_write,
        h.ring s' core' hcore', RingBuffer.rtake_append_rtake]
    · rw [if_neg hs, if_neg hs, List.append_nil]
      exact h.ring s' core' hcore'
  · intro fd' s' hs'
    rw [hlog, htable] at hs'
    rw [hlog, outputsTo, drainedFor, ← h.streams fd' s' hs', List.append_assoc]
    · congr 1
      by_cases hs : s = s'
      · simp [owing, hs]
      · simp [owing, hs, Ne.symm hs]
    all_goals nofun
  · intro hr fd' s' hs'
    rw [hlog, htable] at hs'
    rw [World.core_drain]
    have hcore := h.present (fun s fds hmem => hr s fds (List.mem_cons_of_mem _ hmem)) fd' s' hs'
    split
    · rename_i hs
      rw [hs]
      exact fun hnone => hcore (Option.map_eq_none_iff.mp hnone)
    · exact hcore

/-- A read that finds the terminal empty ends the drain. -/
theorem Inv.dryUp {owed : Fd → SessionId → List Bytes}
    (h : Inv { ph with draining := some fd, owed } w)
    (ht : ∀ t, w.terminals[fd]? = some t → t.unread = []) :
    Inv { ph with draining := none, dried := fd :: ph.dried, owed }
      { w with log := .dry fd (w.terminals[fd]?.elim 0 fun t => t.written.length) :: w.log } := by
  have hbefore : Seats { ph with draining := none, dried := fd :: ph.dried, owed } w :=
    { h.toSeats with }
  have hseats : Seats { ph with draining := none, dried := fd :: ph.dried, owed } { w with
      log := .dry fd (w.terminals[fd]?.elim 0 fun t => t.written.length) :: w.log } :=
    hbefore.unmoved rfl rfl rfl (table_cons _ _)
  refine { hseats with
    ptyOf := h.ptyOf, exit := h.exit, terminal := h.terminal, dry := ?_, dried := ?_
    ptys := h.ptys, gone := h.gone, ring := h.ring, streams := ?_, present := ?_
    facts := ⟨trivial, h.facts⟩ }
  · intro fd' s' n hs' _ hl t' ht'
    rw [lastDry] at hl
    by_cases hne : fd = fd'
    · subst hne
      obtain ⟨t, ht₀, hle, -⟩ := h.terminal fd s' hs'
      cases ht₀.symm.trans ht'
      have hempty := List.drop_eq_nil_iff.mp (ht _ ht')
      rw [if_pos rfl, ht'] at hl
      cases hl
      exact le_antisymm hle hempty
    · rw [if_neg hne] at hl
      exact h.dry fd' s' n hs' (fun he => hne (Option.some.inj he)) hl t' ht'
  · intro fd' hfd'
    rw [lastDry]
    by_cases hne : fd = fd'
    · rw [if_pos hne]
      exact Option.some_ne_none _
    · rw [if_neg hne]
      rcases List.mem_cons.mp hfd' with he | hmem
      · exact absurd he.symm hne
      · exact h.dried fd' hmem
  · intro fd' s' hs'
    rw [table_cons] at hs'
    exact h.streams fd' s' hs'
  · intro hr fd' s' hs'
    rw [table_cons] at hs'
    exact h.present (fun s fds hmem => hr s fds (List.mem_cons_of_mem _ hmem)) fd' s' hs'

/-- A chunk that is owed to a connection is queued to it. -/
theorem Inv.output {owed : Fd → SessionId → List Bytes} (h : Inv ph w)
    (hplace : (table w.log).place fd = some s) (hself : ph.owed fd s = chunk :: owed fd s)
    (hother : ∀ fd' s', (table w.log).place fd' = some s' → fd' ≠ fd →
      owed fd' s' = ph.owed fd' s') :
    Inv { ph with owed } { w with log := .output fd s chunk :: w.log } := by
  have hbefore : Seats { ph with owed } w := { h.toSeats with }
  have hseats : Seats { ph with owed } { w with log := .output fd s chunk :: w.log } :=
    hbefore.unmoved rfl rfl rfl (table_cons _ _)
  refine { hseats with
    ptyOf := h.ptyOf, exit := h.exit, terminal := h.terminal, dry := h.dry, dried := h.dried
    ptys := h.ptys, gone := h.gone, ring := h.ring, streams := ?_, present := ?_
    facts := ⟨hplace, h.facts⟩ }
  · intro fd' s' hs'
    rw [table_cons] at hs'
    have hstream := h.streams fd' s' hs'
    simp only [outputsTo, drainedFor]
    by_cases hne : fd = fd'
    · subst hne
      cases hplace.symm.trans hs'
      rw [if_pos rfl, ← hstream, hself, List.append_assoc]
      rfl
    · rw [if_neg hne, List.append_nil, hother fd' s' hs' (Ne.symm hne)]
      exact hstream
  · intro hr fd' s' hs'
    rw [table_cons] at hs'
    exact h.present (fun s fds hmem => hr s fds (List.mem_cons_of_mem _ hmem)) fd' s' hs'

end drain

section reap
variable {ph : Phase} {w : World} {fd : Fd} {s : SessionId}

/-- A change of one session. -/
def World.alterSession (w : World) (s : SessionId) (f : Session → Session) : World :=
  { w with server := { w.server with runtime := { w.server.runtime with
      sessions := w.server.runtime.sessions.alter s (·.map f) } } }

theorem World.core_alterSession (w : World) (s : SessionId) (f : Session → Session)
    (s' : SessionId) :
    (w.alterSession s f).core s' = if s = s' then
      w.server.runtime.sessions[s]?.map fun session => (f session).core else w.core s' := by
  simp only [World.core, World.alterSession]
  rw [NatMap.get_alter]
  split
  · rw [Option.map_map]
    rfl
  · rfl

/-- The exit of a shell is recorded while its terminal is still there. -/
theorem Inv.reap {f : Session → Session} {session : Session} {pty pty' : PtySession} {code : Int}
    (h : Inv ph w) (hsession : w.server.runtime.sessions[s]? = some session)
    (hpty : session.pty = some pty)
    (hf : (f session).core = { pty := some pty', ring := session.ring, exitCode := some code })
    (hmaster : pty'.masterFd = pty.masterFd) :
    Inv { ph with reaped := s :: ph.reaped } (w.alterSession s f) := by
  have hcore : w.core s = some session.core := by rw [World.core, hsession]; rfl
  have hself : (w.alterSession s f).core s =
      some { pty := some pty', ring := session.ring, exitCode := some code } := by
    rw [w.core_alterSession, if_pos rfl, hsession]
    exact congrArg some hf
  have hother : ∀ s', s ≠ s' → (w.alterSession s f).core s' = w.core s' := fun s' hs => by
    rw [w.core_alterSession, if_neg hs]
  refine { h with ptyOf := ?_, exit := ?_, ring := ?_, present := ?_ }
  · intro fd s'
    refine (h.ptyOf fd s').trans ?_
    by_cases hs : s = s'
    · subst hs
      rw [hself, hcore]
      constructor
      · rintro ⟨core, p, hcore, hp, hfd⟩
        cases hcore
        cases hpty.symm.trans hp
        exact ⟨_, pty', rfl, rfl, hmaster.trans hfd⟩
      · rintro ⟨core, p, hcore, hp, hfd⟩
        cases hcore
        cases hp
        exact ⟨_, pty, rfl, hpty, hmaster.symm.trans hfd⟩
    · rw [hother s' hs]
  · intro s' core hcore'
    by_cases hs : s = s'
    · subst hs
      cases hself.symm.trans hcore'
      simp
    · rw [hother s' hs] at hcore'
      rw [h.exit s' core hcore', List.mem_cons]
      simp [Ne.symm hs]
  · intro s' core hcore'
    by_cases hs : s = s'
    · subst hs
      cases hself.symm.trans hcore'
      exact h.ring s session.core hcore
    · rw [hother s' hs] at hcore'
      exact h.ring s' core hcore'
  · intro hr fd s' hs'
    by_cases hs : s = s'
    · subst hs
      rw [hself]
      exact Option.some_ne_none _
    · rw [hother s' hs]
      exact h.present hr fd s' hs'

/-- What `reap_exited` does with the terminal of a session that exited. -/
def World.dropPty (w : World) (s : SessionId) (fd : Fd) : World :=
  { w with
    server := { w.server with
      runtime := ({ w.server.runtime with
        ptyToSession := w.server.runtime.ptyToSession.erase fd
        sessions := w.server.runtime.sessions.alter s
          (Option.map fun session : Session => { session with pty := none }) }).bumpGeneration }
    terminals := w.terminals.erase fd
    log := .exited s fd (w.terminals[fd]?.elim [] Terminal.written) :: w.log }

theorem World.core_dropPty (w : World) (s : SessionId) (fd : Fd) (s' : SessionId) :
    (w.dropPty s fd).core s' = if s = s' then
      (w.core s).map fun core => { core with pty := none } else w.core s' := by
  simp only [World.core, World.dropPty, Runtime.bumpGeneration]
  rw [NatMap.get_alter]
  split
  · rw [Option.map_map, Option.map_map]
    rfl
  · rfl

/-- All that is left to know of an exit is in the log: what was drained, and that every
attached connection got it. -/
theorem Inv.fact_exited (h : Inv ph w) (hdraining : ph.draining = none) (howed : ∀ fd s, ph.owed fd s = [])
    (hfd : w.server.runtime.ptyToSession[fd]? = some s) (hdry : fd ∈ ph.dried) :
    Fact (.exited s fd (w.terminals[fd]?.elim [] Terminal.written)) w.log := by
  obtain ⟨t, ht, hle, htake⟩ := h.terminal fd s hfd
  obtain ⟨n, hn⟩ := Option.ne_none_iff_exists'.mp (h.dried fd hdry)
  have htaken := h.dry fd s n hfd (by simp [hdraining]) hn t ht
  rw [ht]
  refine ⟨⟨n, hn, htaken ▸ hle, ?_⟩, fun fd' hfd' => ?_⟩
  · rw [← htake, htaken]
    rfl
  · rw [← h.streams fd' s hfd', howed, List.append_nil]

theorem Inv.dropPty {reaped : List SessionId} (h : Inv { ph with reaped := s :: reaped } w)
    (hfd : w.server.runtime.ptyToSession[fd]? = some s)
    (hfact : Fact (.exited s fd (w.terminals[fd]?.elim [] Terminal.written)) w.log)
    (hptys : ph.ptys = none) :
    Inv { ph with reaped } (w.dropPty s fd) := by
  have hbefore : Seats { ph with reaped } w := { h.toSeats with }
  have hseats : Seats { ph with reaped } (w.dropPty s fd) :=
    hbefore.unmoved rfl rfl rfl (table_cons _ _)
  have htable : table (w.dropPty s fd).log = table w.log := table_cons _ _
  have hpty : ∀ (fd' : Fd) s', (w.dropPty s fd).server.runtime.ptyToSession[fd']? = some s' →
      w.server.runtime.ptyToSession[fd']? = some s' ∧ fd ≠ fd' := by
    intro fd' s' hs'
    change (w.server.runtime.ptyToSession.erase fd)[fd']? = some s' at hs'
    rw [NatMap.get_erase] at hs'
    split at hs'
    · cases hs'
    · exact ⟨hs', ‹_›⟩
  refine { hseats with
    ptyOf := ?_, exit := ?_, terminal := ?_, dry := ?_, dried := h.dried
    ptys := fun p hp => ?_, gone := ?_, ring := ?_, streams := ?_, present := ?_
    facts := ⟨hfact, h.facts⟩ }
  · intro fd' s'
    rw [World.core_dropPty]
    constructor
    · intro hs'
      obtain ⟨hs', hne⟩ := hpty fd' s' hs'
      rw [if_neg fun he : s = s' => hne (h.pty_unique hfd (he ▸ hs'))]
      exact (h.ptyOf fd' s').mp hs'
    · rintro ⟨core, pty, hcore, hp, hmaster⟩
      split at hcore
      · obtain ⟨core', -, rfl⟩ := Option.map_eq_some_iff.mp hcore
        cases hp
      · rename_i hss
        have hs' := (h.ptyOf fd' s').mpr ⟨core, pty, hcore, hp, hmaster⟩
        change (w.server.runtime.ptyToSession.erase fd)[fd']? = some s'
        rw [NatMap.get_erase, if_neg]
        · exact hs'
        · rintro rfl
          exact hss (Option.some.inj (hfd.symm.trans hs'))
  · intro s' core hcore
    rw [World.core_dropPty] at hcore
    split at hcore
    · rename_i heq
      subst heq
      obtain ⟨core', hcore', rfl⟩ := Option.map_eq_some_iff.mp hcore
      simpa using (h.exit s core' hcore').mpr (.inr List.mem_cons_self)
    · rename_i hne
      rw [h.exit s' core hcore, List.mem_cons]
      simp [Ne.symm hne]
  · intro fd' s' hs'
    obtain ⟨hs', hne⟩ := hpty fd' s' hs'
    change ∃ t, (w.terminals.erase fd)[fd']? = some t ∧ _
    rw [NatMap.get_erase, if_neg hne]
    exact h.terminal fd' s' hs'
  · intro fd' s' n hs' hd hl t ht
    obtain ⟨hs', hne⟩ := hpty fd' s' hs'
    change (w.terminals.erase fd)[fd']? = some t at ht
    rw [NatMap.get_erase, if_neg hne] at ht
    exact h.dry fd' s' n hs' hd hl t ht
  · rw [hptys] at hp
    cases hp
  · intro s' hs'
    have hgone := h.gone s' hs'
    change hasExited s' (.exited s fd _ :: w.log) = true
    rw [hasExited]
    split
    · rfl
    · exact hgone
  · intro s' core hcore
    rw [World.core_dropPty] at hcore
    split at hcore
    · rename_i heq
      subst heq
      obtain ⟨core', hcore', rfl⟩ := Option.map_eq_some_iff.mp hcore
      exact h.ring s core' hcore'
    · exact h.ring s' core hcore
  · intro fd' s' hs'
    rw [htable] at hs'
    exact h.streams fd' s' hs'
  · intro hr fd' s' hs'
    rw [htable] at hs'
    rw [World.core_dropPty]
    have hcore := h.present (fun s fds hmem => hr s fds (List.mem_cons_of_mem _ hmem)) fd' s' hs'
    split
    · rename_i heq
      subst heq
      exact fun hnone => hcore (Option.map_eq_none_iff.mp hnone)
    · exact hcore

end reap

end PersistShell

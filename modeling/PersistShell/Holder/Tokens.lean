import PersistShell.Holder.Openings
import PersistShell.Holder.Script

/-! The tokens of epoll name the descriptors of the holder, and one that was taken back names
nothing any more. A terminal has a token only if epoll took its registration: when it does not,
the connection that asked for the session goes, and the session stays. -/

namespace PersistShell

/-- The kernel gives the holder three descriptors. -/
def HolderConfig.Distinct (config : HolderConfig) : Prop :=
  [config.socket, config.signals, config.logs].Nodup

/-- The descriptors that the holder waits for: its own, the terminals of the sessions that have
not exited, and its connections. -/
def HolderServer.Watches (h : HolderServer) (fd : Fd) : Prop :=
  fd = h.socket ∨ fd = h.signals ∨ fd = h.logs ∨
    (∃ (s : SessionId) (session : Session) (pty : PtySession), h.runtime.sessions[s]? = some session ∧
      session.exitCode = none ∧ session.pty = some pty ∧ pty.masterFd = fd) ∨
    h.connections[fd]? ≠ none

/-- The two tables of the reactor are inverse to each other, over the descriptors that the
holder waits for. -/
structure TokensMatch (h : HolderServer) : Prop where
  inverse : ∀ (fd : Fd) (token : Nat), h.reactor.tokens[fd]? = some token ↔ h.reactor.fds[token]? = some fd
  exact : ∀ fd : Fd, h.reactor.tokens[fd]? ≠ none ↔ h.Watches fd

section start
variable {config : HolderConfig}

theorem tokens_start (config : HolderConfig) (fd : Fd) : config.server.reactor.tokens[fd]? =
    if config.logs = fd then some 3 else if config.signals = fd then some 2
    else if config.socket = fd then some 1 else none := by
  simp only [HolderConfig.server, NatMap.get_insert]
  rfl

theorem fds_start (config : HolderConfig) (token : Nat) : config.server.reactor.fds[token]? =
    if 3 = token then some config.logs else if 2 = token then some config.signals
    else if 1 = token then some config.socket else none := by
  simp only [HolderConfig.server, NatMap.get_insert]
  rfl

theorem tokens_start_iff (fd : Fd) :
    config.server.reactor.tokens[fd]? ≠ none ↔ config.server.Owns fd := by
  rw [tokens_start]
  change _ ↔ fd = config.socket ∨ fd = config.signals ∨ fd = config.logs
  split_ifs <;> simp_all [eq_comm]

theorem wired_start (hconfig : config.Distinct) : Wired (fun _ => False) config.server := by
  obtain ⟨⟨h₁, h₂⟩, h₃⟩ : (config.socket ≠ config.signals ∧ config.socket ≠ config.logs) ∧
      config.signals ≠ config.logs := by
    simpa [HolderConfig.Distinct] using hconfig
  refine ⟨⟨fun fd token => ?_, fun token fd hfd => ?_⟩, rfl, fun fd hfd => .inl ?_, fun fd hfd => ?_,
    fun fd hfd => ?_, fun _ fd hfd => ?_⟩
  · change config.server.reactor.tokens[fd]? = some token ↔
      config.server.reactor.fds[token]? = some fd
    rw [tokens_start, fds_start]
    split_ifs <;> simp_all <;> omega
  · change config.server.reactor.fds[token]? = some fd at hfd
    change 1 ≤ token ∧ token ≤ 3
    rw [fds_start] at hfd
    split_ifs at hfd <;> omega
  · exact (tokens_start_iff fd).mp hfd
  · exact (tokens_start_iff fd).mpr hfd
  · exact absurd (by simp [HolderConfig.server]) hfd
  · exact absurd (by simp [HolderConfig.server]) hfd

theorem HolderConfig.tight_start (hconfig : config.Distinct) :
    Tight config.server config.start.world := by
  refine ⟨config.safe_start.running rfl, ⟨fun _ => Iff.rfl, fun _ => id, fun s fd hs => ?_, nofun,
    fun fd hfd => ?_, fun fd hfd => ?_, nofun, le_rfl, fun _ => wired_start hconfig,
    fun _ => .refl _⟩⟩
  · simp [start, server] at hs
  · exact absurd (by simp [start, server]) hfd
  · exact absurd (by simp [start, server]) hfd

end start

section runs
variable {base : HolderServer} {w : World} {r r' : HolderRun}

/-- Where a run has come to is judged from there on. -/
theorem Tight.rebase (hw : Tight base w) : Tight w.server w :=
  ⟨hw.inv, { hw.web with
    own := fun _ => Iff.rfl
    grown := le_rfl
    later := fun _ => .refl _ }⟩

/-- The terminals that the holder has are those of the sessions that have not exited. -/
theorem Inv.hosts_iff (hw : Inv {} w) (fd : Fd) : w.server.Hosts fd ↔
    ∃ (s : SessionId) (session : Session) (pty : PtySession),
      w.server.runtime.sessions[s]? = some session ∧ session.exitCode = none ∧
      session.pty = some pty ∧ pty.masterFd = fd := by
  constructor
  · intro hfd
    obtain ⟨s, hs⟩ := Option.ne_none_iff_exists'.mp hfd
    obtain ⟨core, pty, hcore, hpty, hmaster⟩ := (hw.ptyOf fd s).mp hs
    obtain ⟨session, hsession, rfl⟩ := Option.map_eq_some_iff.mp hcore
    refine ⟨s, session, pty, hsession, ?_, hpty, hmaster⟩
    by_contra hexit
    rcases (hw.exit s _ hcore).mp (Option.isSome_iff_ne_none.mpr hexit) with hnone | hmem
    · cases hnone.symm.trans hpty
    · exact List.not_mem_nil hmem
  · rintro ⟨s, session, pty, hsession, -, hpty, hmaster⟩
    have hs := (hw.ptyOf fd s).mpr ⟨_, pty, Holder.core_of_get hsession, hpty, hmaster⟩
    rw [HolderServer.Hosts, hs]
    exact Option.some_ne_none _

theorem Tight.tokensMatch (hw : Tight base w)
    (hcount : w.server.reactor.registrations.length < 2 ^ 64)
    (htaken : w.server.reactor.AllTaken) : TokensMatch w.server := by
  have hwired := hw.web.wired hcount
  refine ⟨hwired.paired.iff, fun fd => ⟨fun htoken => ?_, fun hwatch => ?_⟩⟩
  · rcases hwired.known fd htoken with (h | h | h) | h | h | h
    · exact .inl h
    · exact .inr (.inl h)
    · exact .inr (.inr (.inl h))
    · exact .inr (.inr (.inr (.inr h)))
    · exact .inr (.inr (.inr (.inl ((hw.inv.hosts_iff fd).mp h))))
    · exact h.elim
  · rcases hwatch with h | h | h | h | h
    · exact hwired.owned fd (.inl h)
    · exact hwired.owned fd (.inr (.inl h))
    · exact hwired.owned fd (.inr (.inr h))
    · exact hwired.hosted htaken fd ((hw.inv.hosts_iff fd).mpr h)
    · exact hwired.served fd h

theorem handleToken_unknown [SerdeJson] {token : Nat} (events : Nat)
    (h : w.server.reactor.fds[token]? = none) :
    Holder.handleToken token events w = (.ok false, w) := by
  have hserver : Holder.server w = (.ok w.server, w) := rfl
  unfold Holder.handleToken
  rw [Program.bind_ok hserver, h]
  rfl

variable [SerdeJson] {script : List Turn}

theorem tight_step (hw : Tight base r.world) (h : r.step script = some r')
    (hrunning : r'.status matches .running) : Tight base r'.world := by
  have hw' : Tight base { r.world with script, failures := [] } := ⟨{ hw.inv with }, hw.web⟩
  have hproceed : ∀ {m : Holder Bool} {next},
      Program.Triple (Tight base) m (fun _ => Tight base) (fun _ _ => True) →
      r' = HolderRun.proceed next (m { r.world with script, failures := [] }) →
      Tight base r'.world := by
    rintro m next hm rfl
    have := hm _ hw'
    revert this hrunning
    rcases m { r.world with script, failures := [] } with ⟨(_ | _) | _ | _, w'⟩
    · exact fun _ hw => hw
    · exact fun _ hw => hw
    · exact fun hrunning => by cases hrunning
    · exact fun hrunning => by cases hrunning
  obtain ⟨world, batch, status⟩ := r
  cases status with
  | running =>
    rcases batch with _ | ⟨_ | ⟨⟨token, events⟩, rest⟩, acceptReady⟩
    · cases h
      have := Holder.reactorWait_tight _ hw'
      revert this hrunning
      unfold HolderRun.wait
      rcases Holder.reactorWait { world with script, failures := [] } with ⟨_ | _ | _, w'⟩
      · exact fun _ hw => hw
      · exact fun hrunning => by cases hrunning
      · exact fun hrunning => by cases hrunning
    · exact hproceed (Holder.finishBatch_tight acceptReady) (Option.some.inj h).symm
    · exact hproceed (Holder.handleToken_tight token events) (Option.some.inj h).symm
  | returned result => cases h
  | panicked => cases h

/-- What a run reaches, while it goes on, keeps the tokens that it started with in order. -/
theorem tight_run (hw : r.status matches .running → Tight base r.world)
    (h : Run.Reachable HolderRun.step (· = r) r') (hrunning : r'.status matches .running) :
    Tight base r'.world := by
  refine h.invariant (I := fun r => r.status matches .running → Tight base r.world)
    (fun _ heq => heq ▸ hw) (fun s script s' hs _ hstep hrunning => ?_) hrunning
  exact tight_step (hs (running_of_step hstep)) hstep hrunning

theorem HolderReachable.tight {config : HolderConfig} (hconfig : config.Distinct)
    (h : HolderReachable config r) (hrunning : r.status matches .running) :
    Tight config.server r.world :=
  tight_run (r := config.start) (fun _ => config.tight_start hconfig) h hrunning

/-- An event whose token is not known is passed over. -/
theorem step_unknown {token events : Nat} {rest : List (Nat × Nat)} {acceptReady : Bool}
    (hrunning : r.status matches .running)
    (hbatch : r.batch = some ((token, events) :: rest, acceptReady))
    (hnone : r.world.server.reactor.fds[token]? = none) :
    r.step script = some { r with
      world := { r.world with script, failures := [] }
      batch := some (rest, acceptReady) } := by
  obtain ⟨world, batch, status⟩ := r
  cases status with
  | running =>
    cases hbatch
    change some (HolderRun.proceed _ (Holder.handleToken token events _)) = _
    rw [handleToken_unknown events (w := { world with script, failures := [] }) hnone]
    rfl
  | returned result => cases hrunning
  | panicked => cases hrunning

/-- The tokens and the descriptors are inverse to each other, they are those of what the holder
waits for when epoll took every registration, and an event that comes with the token which `fd`
had in `r₀` and has no longer in `r₁` is passed over, whatever `fd` is by then. -/
theorem tokens_name_descriptors {config : HolderConfig} (hconfig : config.Distinct)
    (h : HolderReachable config r) (hrunning : r.status matches .running)
    (hcount : r.world.server.reactor.registrations.length < 2 ^ 64) :
    (∀ (fd : Fd) (token : Nat), r.world.server.reactor.tokens[fd]? = some token ↔
      r.world.server.reactor.fds[token]? = some fd) ∧
    (r.world.server.reactor.AllTaken → TokensMatch r.world.server) ∧
    ∀ (r₀ r₁ : HolderRun) (token : Nat) (fd : Fd), HolderReachable config r₀ →
      Run.Reachable HolderRun.step (· = r₀) r₁ → Run.Reachable HolderRun.step (· = r₁) r →
      r₀.world.server.reactor.fds[token]? = some fd →
      r₁.world.server.reactor.tokens[fd]? ≠ some token →
      ∀ (events : Nat) (rest : List (Nat × Nat)) (acceptReady : Bool) (script : List Turn),
        r.batch = some ((token, events) :: rest, acceptReady) →
        r.step script = some { r with
          world := { r.world with script, failures := [] }
          batch := some (rest, acceptReady) } := by
  have hw := h.tight hconfig hrunning
  refine ⟨(hw.web.wired hcount).paired.iff, hw.tokensMatch hcount,
    fun r₀ r₁ token fd h₀ h₀₁ h₁ hfd hgone events rest acceptReady script hbatch => ?_⟩
  have hrunning₁ := running_of_reachable h₁ hrunning
  have hw₀ := (h₀.tight hconfig (running_of_reachable h₀₁ hrunning₁)).rebase
  have hw₁ := tight_run (fun _ => hw₀) h₀₁ hrunning₁
  have hw₂ := tight_run (fun _ => hw₁.rebase) h₁ hrunning
  have hcount₁ := hw₂.web.grown.trans_lt hcount
  have hissued := ((hw₀.web.wired (hw₁.web.grown.trans_lt hcount₁)).paired.issued token fd hfd).2
  have hlater := hw₁.web.later hcount₁
  have hnone : r₁.world.server.reactor.handles.key token = none := by
    cases hkey : r₁.world.server.reactor.handles.key token with
    | none => rfl
    | some fd' =>
      -- what the token stands for in `r₁`, it stood for in `r₀`, and that was `fd`
      cases hfd.symm.trans (hlater.key token hissued fd' hkey)
      exact absurd (((hw₁.web.wired hcount₁).paired.iff fd token).mpr hkey) hgone
  exact step_unknown hrunning hbatch
    ((hw₂.web.later hcount).unknown (hissued.trans hlater.issued) hnone)

end runs

/-- The data connection on 8 hangs up, and in the same batch the controller has sent something
and the data connection has too. -/
def Script.hangup : List (List Turn) :=
  opening ++ [[{ ready := [(6, epollHup), (4, epollIn), (6, epollIn)] }]]

/-- The controller asks for a session, and its terminal gets descriptor 8. -/
def Script.reuse : List Turn := [{ data := some (create 2) }, {}, { fd := 8 }]

theorem run_reuse : (Script.run Script.hangup).any (fun r₀ =>
    r₀.world.server.reactor.fds[6]? = some 8 &&
      (@HolderRun.step Script.json r₀ []).any fun r₁ =>
        r₁.world.server.reactor.tokens[8]? = none &&
          (@HolderRun.step Script.json r₁ Script.reuse).any fun r =>
            r.status matches .running && r.batch = some ([(6, epollIn)], false) &&
              r.world.server.reactor.registrations.length < 2 ^ 64 &&
              r.world.server.reactor.registrations.all (·.2) &&
              r.world.server.runtime.ptyToSession[8]? = some 2) = true := by
  decide +kernel

/-- The event of the connection that is gone does not reach the terminal. -/
theorem tokens_name_descriptors_reuse : ∃ r : HolderRun,
    TokensMatch r.world.server ∧ r.world.server.runtime.ptyToSession[8]? = some 2 ∧
    r.batch = some ([(6, epollIn)], false) ∧
    ∀ script : List Turn, @HolderRun.step Script.json r script = some { r with
      world := { r.world with script, failures := [] }
      batch := some ([], false) } := by
  obtain ⟨r₀, hrun, hcheck⟩ := (Option.any_eq_true _ _).mp run_reuse
  rw [Bool.and_eq_true] at hcheck
  obtain ⟨hfd, hnext⟩ := hcheck
  obtain ⟨r₁, hstep₁, hcheck⟩ := (Option.any_eq_true _ _).mp hnext
  rw [Bool.and_eq_true] at hcheck
  obtain ⟨hgone, hnext⟩ := hcheck
  obtain ⟨r, hstep, hcheck⟩ := (Option.any_eq_true _ _).mp hnext
  rw [Bool.and_eq_true, Bool.and_eq_true, Bool.and_eq_true, Bool.and_eq_true] at hcheck
  obtain ⟨⟨⟨⟨hrunning, hbatch⟩, hcount⟩, htaken⟩, hpty⟩ := hcheck
  have h₀ := Script.reachable hrun
  have h₁ : Run.Reachable (@HolderRun.step Script.json) (· = r₀) r₁ := .step (.start rfl) trivial hstep₁
  have h : Run.Reachable (@HolderRun.step Script.json) (· = r₁) r := .step (.start rfl) trivial hstep
  have hgone : r₁.world.server.reactor.tokens[8]? ≠ some 6 := by
    rw [of_decide_eq_true hgone]
    nofun
  have hconfig : [sampleConfig.socket, sampleConfig.signals, sampleConfig.logs].Nodup := by decide
  obtain ⟨-, hmatch, hpassed⟩ := @tokens_name_descriptors r Script.json sampleConfig hconfig
    ((h₀.step trivial hstep₁).step trivial hstep) hrunning (of_decide_eq_true hcount)
  exact ⟨r, hmatch (List.all_eq_true.mp htaken), of_decide_eq_true hpty, of_decide_eq_true hbatch,
    fun script => hpassed r₀ r₁ 6 8 h₀ h₁ h (of_decide_eq_true hfd) hgone _ _ _ script
      (of_decide_eq_true hbatch)⟩

/-- The epoll instance has no room for the terminal of a new session. -/
def Script.refused : List (List Turn) :=
  connect 6 ++ send 4 controlHello [] ++
    send 4 (create 1) [{ fd := 7 }, {}, { fault := some (.other 28) }]

theorem run_refused : (Script.run Script.refused).any (fun r =>
    r.status matches .running && r.world.server.reactor.registrations.length < 2 ^ 64 &&
      r.world.server.reactor.tokens[7]? = none &&
      (r.world.server.runtime.sessions[1]?).any fun session =>
        session.exitCode = none && session.pty.any fun pty => pty.masterFd = 7) = true := by
  decide +kernel

/-- The session lives on, and nobody reads what its shell writes. -/
theorem refused_terminal_lacks_token : ¬ ∀ r : HolderRun,
    @HolderReachable Script.json sampleConfig r → r.status matches .running →
    r.world.server.reactor.registrations.length < 2 ^ 64 → TokensMatch r.world.server := by
  intro h
  obtain ⟨r, hrun, hcheck⟩ := (Option.any_eq_true _ _).mp run_refused
  rw [Bool.and_eq_true, Bool.and_eq_true, Bool.and_eq_true] at hcheck
  obtain ⟨⟨⟨hrunning, hcount⟩, hnone⟩, hsession⟩ := hcheck
  obtain ⟨session, hsession, hlives⟩ := (Option.any_eq_true _ _).mp hsession
  rw [Bool.and_eq_true] at hlives
  obtain ⟨hexit, hpty⟩ := hlives
  obtain ⟨pty, hpty, hmaster⟩ := (Option.any_eq_true _ _).mp hpty
  have hmatch := h r (Script.reachable hrun) hrunning (of_decide_eq_true hcount)
  refine (hmatch.exact 7).mpr (.inr (.inr (.inr (.inl ⟨1, session, pty, hsession, ?_, hpty, ?_⟩))))
    (of_decide_eq_true hnone)
  · exact of_decide_eq_true hexit
  · exact of_decide_eq_true hmaster

end PersistShell

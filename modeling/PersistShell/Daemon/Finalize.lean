import PersistShell.Daemon.State

/-! The end of a session at the daemon: the context of its shell is gathered, the row is
closed, and only then the holder may forget the session. -/

namespace PersistShell
open Program MetadataStore

variable [SerdeJson]

structure ClosedSession where
  exitCode : Int
  recoveryContext : RecoveryContext
  holderRetire : Bool
  deriving DecidableEq

def isRecoverableEnvironmentName (name : String) : Bool :=
  name ∈ ["TERM", "COLORTERM", "LANG"] || startsWith (utf8 name) (utf8 "LC_")

/-- `split(|byte| *byte == 0)`. -/
def splitZero : Bytes → List Bytes
  | [] => [[]]
  | b :: bs =>
    match splitZero bs with
    | [] => [[b]]
    | part :: rest => if b = 0 then [] :: part :: rest else (b :: part) :: rest

/-- `str::split_once('=')`. -/
def splitOnce : List Char → Option (List Char × List Char)
  | [] => none
  | c :: cs => if c = '=' then some ([], cs) else (splitOnce cs).map fun p => (c :: p.1, p.2)

/-- The variables in what `/proc/{pid}/environ` shows. -/
def parseEnviron (raw : Bytes) : List (String × String) :=
  (((splitZero (raw.take (16 * 1024))).filterMap fromUtf8).filterMap fun entry =>
    (splitOnce entry.toList).map fun p => (String.ofList p.1, String.ofList p.2)).filter
      fun entry => isRecoverableEnvironmentName entry.1

/-- `capture_recovery_context_pid`, of a shell as `/proc` shows it. -/
def captureRecoveryContextPid (policy : EnvironmentPolicy) (t : CallTurn) : RecoveryContext where
  cwd := t.cwd
  environment := t.environ.bind fun raw =>
    (EnvironmentSnapshot.capture policy none (parseEnviron raw)).toOption

/-- What the holder captured, over what `/proc` shows now, over what was observed before. -/
def ExitContext.closed (context : ExitContext) (policy : EnvironmentPolicy)
    (direct : RecoveryContext) (stored : Option RecoveryContext) : ClosedSession where
  exitCode := context.exitCode
  recoveryContext :=
    let side : RecoveryContext :=
      { cwd := context.cwd
        environment := context.environment.bind fun snapshot =>
          (policy.filterSnapshot snapshot).toOption }
    side.mergeWithFallback (some (direct.mergeWithFallback stored))
  holderRetire := true

/-- The environment column for a recovery context. -/
def RecoveryContext.encoded (context : RecoveryContext) (policy : EnvironmentPolicy) :
    Option String :=
  context.environment.bind fun snapshot => (encodeEnvironment snapshot policy).toOption

namespace Daemon

/-- `SessionManager::holder_entry`. -/
def holderEntry (s : SessionId) : DaemonProgram (Option HolderSessionEntry) :=
  read fun d =>
    if s ∈ d.manager.orphanedSessions then none
    else d.cache.entries.find? fun entry => entry.sessionId = s

/-- The exit that a session is closed with: the one that was observed, the one that the holder
recorded, or the one that closing it brings about. -/
def closingContext (s : SessionId) (entry : HolderSessionEntry)
    (observedExit : Option ExitContext) : DaemonProgram ExitContext := do
  match observedExit with
  | some context =>
    rejectIf (context.sessionId ≠ s)
      (PersistError.invalidArgument "observed Holder exit context has wrong session")
    return context
  | none =>
    if entry.state = .exited then
      if entry.exitContextAvailable then exitContext s
      else match entry.exitCode with
        | some exitCode => return { sessionId := s, exitCode }
        | none => throw (.invalidArgument "exited Holder session is missing exit code")
    else close s

/-- What a session is closed with. -/
structure Closing where
  policy : EnvironmentPolicy
  direct : RecoveryContext
  stored : Option RecoveryContext
  context : ExitContext
  deriving DecidableEq

def gather (s : SessionId) (observedExit : Option ExitContext) :
    DaemonProgram (Option Closing) := do
  match ← holderEntry s with
  | none => return none
  | some entry =>
    let policy ← lift (← manager_).recoveryEnvironment.policy
    let direct := captureRecoveryContextPid policy (← turn)
    let stored := (← manager_).recoveryContexts[s]?
    let context ← closingContext s entry observedExit
    return some { policy, direct, stored, context }

def prepareClose (s : SessionId) (observedExit : Option ExitContext) :
    DaemonProgram (Option ClosedSession) := do
  return (← gather s observedExit).map fun c => c.context.closed c.policy c.direct c.stored

def finishClose (s : SessionId) : DaemonProgram Unit :=
  update fun d => { d with
    manager := { d.manager with recoveryContexts := d.manager.recoveryContexts.erase s } }

/-- `metadata_then_retire`, and what follows it. -/
def commitClosed (s : SessionId) (closed : ClosedSession) : DaemonProgram Unit := do
  let policy := (← manager_).recoveryEnvironment.policy.toOption
  let encoded := policy.bind closed.recoveryContext.encoded
  metadata (closeSessionWithContext s closed.exitCode closed.recoveryContext.cwd encoded)
  if closed.holderRetire then retireExited s
  finishClose s

def finalizeRuntimeExit (s : SessionId) (observedExit : Option ExitContext) :
    DaemonProgram Unit := do
  match ← prepareClose s observedExit with
  | none => throw (.invalidArgument "session not found")
  | some closed => commitClosed s closed

section gather

variable {J : Daemon → Prop} {s : SessionId}
  (hJ : ∀ d holder cache turns, J d → J { d with holder, cache, turns })

include hJ

omit [SerdeJson] in
theorem leaves_closingContext (entry : HolderSessionEntry) (observedExit : Option ExitContext) :
    Leaves J (closingContext s entry observedExit) := by
  unfold closingContext
  cases observedExit with
  | some context => exact Leaves.bind (Leaves.reject _ _) fun _ => Leaves.pure _
  | none =>
    dsimp only
    split
    · split
      · exact leaves_exitContext hJ s
      · cases entry.exitCode with
        | some exitCode => exact Leaves.pure _
        | none => exact Leaves.fail _
    · exact leaves_close hJ s

/-- Gathering what a session is closed with writes nothing. -/
theorem leaves_gather (observedExit : Option ExitContext) : Leaves J (gather s observedExit) := by
  refine Leaves.bind (Leaves.read _) fun entry => ?_
  cases entry with
  | none => exact Leaves.pure _
  | some entry =>
    refine Leaves.bind (Leaves.read _) fun manager => ?_
    refine Leaves.bind (Leaves.lift _) fun policy => ?_
    refine Leaves.bind (leaves_turn hJ) fun t => ?_
    refine Leaves.bind (Leaves.read _) fun manager => ?_
    exact Leaves.bind (leaves_closingContext hJ entry observedExit) fun _ => Leaves.pure _

end gather

/-- What a session is closed with is read under the policy of the manager. -/
theorem gather_policy {s : SessionId} {observedExit : Option ExitContext} {d d' : Daemon}
    {closing : Closing} (h : gather s observedExit d = (.ok (some closing), d')) :
    d.manager.recoveryEnvironment.policy = .ok closing.policy := by
  obtain ⟨entry, d₁, hentry, h⟩ := bind_returns.mp h
  have hd : d = d₁ := congrArg Prod.snd hentry
  subst hd
  cases entry with
  | none => cases h
  | some entry =>
    obtain ⟨manager, d₂, hmanager, h⟩ := bind_returns.mp h
    cases hmanager
    obtain ⟨policy, d₃, hpolicy, h⟩ := bind_returns.mp h
    obtain ⟨t, d₄, -, h⟩ := bind_returns.mp h
    obtain ⟨manager, d₅, -, h⟩ := bind_returns.mp h
    obtain ⟨context, d₆, -, h⟩ := bind_returns.mp h
    cases h
    revert hpolicy
    cases d.manager.recoveryEnvironment.policy with
    | ok p =>
      intro h
      cases h
      rfl
    | error e => exact fun h => nomatch h

/-- A finalization that returns has gathered the context and committed it. -/
theorem finalize_returns {s : SessionId} {observedExit : Option ExitContext} {d d' : Daemon}
    (h : finalizeRuntimeExit s observedExit d = (.ok (), d')) :
    ∃ closing d₁, gather s observedExit d = (.ok (some closing), d₁) ∧
      commitClosed s (closing.context.closed closing.policy closing.direct closing.stored) d₁ =
        (.ok (), d') := by
  obtain ⟨closed, d₁, hprepare, h⟩ := bind_returns.mp h
  obtain ⟨closing, d₂, hgather, hclosed⟩ := bind_returns.mp hprepare
  cases hclosed
  cases closing with
  | none => cases h
  | some closing => exact ⟨closing, d₁, hgather, h⟩

/-- A commit that returns has written the row of the session, if there is one. -/
theorem commitClosed_returns {s : SessionId} {closed : ClosedSession} {d d' : Daemon}
    {policy : EnvironmentPolicy} (hpolicy : d.manager.recoveryEnvironment.policy = .ok policy)
    (h : commitClosed s closed d = (.ok (), d')) :
    d.database.rows[s]? = none ∧ d'.database.rows = d.database.rows ∨
      ∃ record now, d.database.rows[s]? = some record ∧ d'.database.rows =
        d.database.rows.insert s (record.setClosed closed.exitCode closed.recoveryContext.cwd
          (closed.recoveryContext.encoded policy) now) := by
  obtain ⟨manager, d₁, hmanager, h⟩ := bind_returns.mp h
  cases hmanager
  obtain ⟨_, d₂, hwrite, h⟩ := bind_returns.mp h
  -- What follows the statement leaves the database alone.
  have hrest : d'.database = d₂.database := by
    have hfinish : Leaves (fun e => e.database = d₂.database) (finishClose s) :=
      Leaves.update fun _ => id
    have hleaves : Leaves (fun e => e.database = d₂.database)
        (if closed.holderRetire = true then do retireExited s; finishClose s
          else finishClose s) := by
      split
      · exact Leaves.bind (leaves_retireExited (fun _ _ _ _ => id) s) fun _ => hfinish
      · exact hfinish
    exact hleaves.run h rfl
  obtain ⟨hwrite, -⟩ := metadata_returns hwrite
  have hspec : Triple (At False (· = d.database.rows)) (closeSessionWithContext s closed.exitCode
      closed.recoveryContext.cwd (closed.recoveryContext.encoded policy)) _ _ :=
    closeSession_spec
  have hrun := hspec d.database ⟨False.elim, rfl⟩
  rw [hpolicy] at hwrite
  rw [show closeSessionWithContext s closed.exitCode closed.recoveryContext.cwd
    (closed.recoveryContext.encoded policy) d.database = _ from hwrite] at hrun
  rw [hrest]
  exact hrun.rows

end Daemon

end PersistShell

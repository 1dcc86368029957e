import PersistShell.Core.Policy
import PersistShell.Core.ShellState

/-! The helper that a shell runs before each prompt: it captures the environment it was
started with under the recovery policy, and commits it with the working directory. -/

namespace PersistShell

/-- The environment of a process: any bytes, in any order, names possibly repeated. -/
abbrev ProcessEnvironment := List (Bytes × Bytes)

/-- One entry of the process environment. -/
def collectEntry (policy : EnvironmentPolicy) (current : Std.ExtTreeMap String String)
    (entry : Bytes × Bytes) : Except PersistError (Std.ExtTreeMap String String) :=
  match fromUtf8 entry.1 with
  | none => .ok current
  | some name =>
    if policy.allows name then
      match fromUtf8 entry.2 with
      | none => .error (.invalidArgument "allowed shell environment value is not UTF-8")
      | some value =>
        if current.contains name then
          .error (.invalidArgument "allowed shell environment name is duplicated")
        else .ok (current.insert name value)
    else .ok current

def collectEnvironment (environment : ProcessEnvironment) (policy : EnvironmentPolicy) :
    Except PersistError (Std.ExtTreeMap String String) :=
  environment.foldlM (collectEntry policy) {}

/-- What a commit is started with, and the random bytes it draws for its temporary file. -/
structure StateCommit where
  sequence : Nat
  cwd : String
  environment : ProcessEnvironment
  /-- `parse_policy` of the environment. -/
  policy : Option EnvironmentPolicy
  nonce : Bytes

section build

variable [SerdeJson]

/-- `collect_environment` and `capture`. -/
def captureEnvironment (policy : EnvironmentPolicy) (environment : ProcessEnvironment)
    (previous : Option EnvironmentSnapshot) : Except PersistError EnvironmentSnapshot := do
  let current ← collectEnvironment environment policy
  EnvironmentSnapshot.capture policy previous current.toList

def captureOrFallback (policy : EnvironmentPolicy) (environment : ProcessEnvironment)
    (previous : Option EnvironmentSnapshot) : Except PersistError EnvironmentSnapshot :=
  match captureEnvironment policy environment previous with
  | .ok snapshot => .ok snapshot
  | .error _ => EnvironmentSnapshot.fallback policy previous

/-- `previous` is the environment in the state file, if that could be read. -/
def buildState (identity : ShellStateIdentity) (commit : StateCommit)
    (previous : Option EnvironmentSnapshot) : Except PersistError ShellStateEnvelope :=
  let sessionId := identity.sessionId
  let incarnation := identity.incarnation
  let legacy := ShellStateEnvelope.new sessionId incarnation commit.sequence commit.cwd
  match commit.policy with
  | none =>
    match previous.bind fun snapshot => snapshot.preserved.toOption with
    | some snapshot =>
      ShellStateEnvelope.newV2 sessionId incarnation commit.sequence commit.cwd snapshot
    | none => legacy
  | some policy =>
    match captureOrFallback policy commit.environment previous with
    | .ok snapshot =>
      ShellStateEnvelope.newV2 sessionId incarnation commit.sequence commit.cwd snapshot
    | .error _ => legacy

theorem new_sequence {sessionId sequence : Nat} {incarnation : Bytes} {cwd : String}
    {state : ShellStateEnvelope}
    (h : ShellStateEnvelope.new sessionId incarnation sequence cwd = .ok state) :
    state.sequence = sequence := by
  obtain ⟨_, _, h⟩ := bind_eq_ok.mp h
  cases h
  rfl

theorem newV2_sequence {sessionId sequence : Nat} {incarnation : Bytes} {cwd : String}
    {environment : EnvironmentSnapshot} {state : ShellStateEnvelope}
    (h : ShellStateEnvelope.newV2 sessionId incarnation sequence cwd environment = .ok state) :
    state.sequence = sequence := by
  obtain ⟨_, _, h⟩ := bind_eq_ok.mp h
  cases h
  rfl

/-- Whatever was in the file before, the new state has the sequence of the commit. -/
theorem buildState_sequence {identity : ShellStateIdentity} {commit : StateCommit}
    {previous : Option EnvironmentSnapshot} {state : ShellStateEnvelope}
    (h : buildState identity commit previous = .ok state) : state.sequence = commit.sequence := by
  unfold buildState at h
  cases hpolicy : commit.policy with
  | none =>
    simp only [hpolicy] at h
    split at h
    · exact newV2_sequence h
    · exact new_sequence h
  | some policy =>
    simp only [hpolicy] at h
    split at h
    · exact newV2_sequence h
    · exact new_sequence h

end build

end PersistShell

import PersistShell.Core.Environment

/-! The state file of a shell: an envelope with a sequence number, the working directory and
what is known of the environment, and the checks it passes on the way in and out. -/

namespace PersistShell

def shellStateVersion : Nat := 2
def shellStateLegacyVersion : Nat := 1
def maxShellStateBytes : Nat := 72 * 1024
def maxShellCwdBytes : Nat := 4096

structure ShellStateEnvelope where
  version : Nat
  sessionId : Nat
  incarnation : String
  sequence : Nat
  cwd : String
  environment : Option EnvironmentSnapshot
  deriving DecidableEq

/-- What the state file of one shell is known by; its path follows from these. -/
structure ShellStateIdentity where
  sessionId : Nat
  incarnation : Bytes
  deriving DecidableEq, Repr

/-- The JSON library on envelopes. -/
class SerdeState where
  envelopeToVec : ShellStateEnvelope → Except String Bytes
  envelopeFromSlice : Bytes → Except String ShellStateEnvelope

/-- An envelope that was written is read back. -/
class LawfulSerdeState [SerdeState] : Prop where
  round_trip {state : ShellStateEnvelope} {encoded : Bytes} :
    SerdeState.envelopeToVec state = .ok encoded → SerdeState.envelopeFromSlice encoded = .ok state

variable [SerdeJson]

def validateStateFields (state : ShellStateEnvelope) : Except PersistError Unit := do
  rejectIf (¬ ((state.version = shellStateLegacyVersion ∧ state.environment = none) ∨
        (state.version = shellStateVersion ∧ state.environment.isSome)) ∨
      state.sessionId = 0 ∨ (utf8 state.incarnation).length ≠ 32 ∨ state.sequence = 0 ∨
      ¬ (utf8 state.incarnation).all (fun b => isAsciiDigit b || (97 ≤ b && b ≤ 102)) ∨
      (utf8 state.incarnation).all (· == 48))
    (.invalidArgument "shell state envelope fields are invalid")
  rejectIf ((utf8 state.cwd).length > maxShellCwdBytes ∨ (utf8 state.cwd).contains 0 ∨
      ¬ isAbsolutePath (utf8 state.cwd))
    (.invalidArgument "shell state cwd is invalid")
  match state.environment with
  | none => return ()
  | some environment => environment.validateHardLimits

namespace ShellStateEnvelope

def new (sessionId : Nat) (incarnation : Bytes) (sequence : Nat) (cwd : String) :
    Except PersistError ShellStateEnvelope := do
  let state : ShellStateEnvelope :=
    { version := shellStateLegacyVersion, sessionId
      incarnation := encodeIncarnation incarnation
      sequence, cwd, environment := none }
  validateStateFields state
  return state

def newV2 (sessionId : Nat) (incarnation : Bytes) (sequence : Nat) (cwd : String)
    (environment : EnvironmentSnapshot) : Except PersistError ShellStateEnvelope := do
  let state : ShellStateEnvelope :=
    { version := shellStateVersion, sessionId
      incarnation := encodeIncarnation incarnation
      sequence, cwd, environment := some environment }
  validateStateFields state
  return state

end ShellStateEnvelope

variable [SerdeState]

def encodeEnvelope (state : ShellStateEnvelope) : Except PersistError Bytes := do
  validateStateFields state
  match SerdeState.envelopeToVec state with
  | .error error => .error (.invalidArgument ("encode shell state: " ++ error))
  | .ok encoded =>
    rejectIf (encoded.length > maxShellStateBytes)
      (.invalidArgument "shell state envelope exceeds size limit")
    return encoded

def decodeAndValidate (identity : ShellStateIdentity) (minimumSequence : Nat) (encoded : Bytes) :
    Except PersistError ShellStateEnvelope := do
  rejectIf (encoded.length > maxShellStateBytes)
    (.invalidArgument "shell state envelope exceeds size limit")
  match SerdeState.envelopeFromSlice encoded with
  | .error error => .error (.invalidArgument ("decode shell state: " ++ error))
  | .ok state =>
    validateStateFields state
    rejectIf (state.sessionId ≠ identity.sessionId ∨
        state.incarnation ≠ encodeIncarnation identity.incarnation ∨
        state.sequence < minimumSequence)
      (.invalidArgument "shell state identity or sequence mismatch")
    return state

/-- What was encoded is decoded to the same envelope. -/
theorem decode_encodeEnvelope [LawfulSerdeState] {identity : ShellStateIdentity}
    {minimum : Nat} {state decoded : ShellStateEnvelope} {encoded : Bytes}
    (h : encodeEnvelope state = .ok encoded)
    (hdecode : decodeAndValidate identity minimum encoded = .ok decoded) : decoded = state := by
  obtain ⟨_, _, h⟩ := bind_eq_ok.mp h
  cases hvec : SerdeState.envelopeToVec state with
  | error e => rw [hvec] at h; cases h
  | ok bytes =>
    rw [hvec] at h
    obtain ⟨_, _, h⟩ := bind_eq_ok.mp h
    cases h
    obtain ⟨_, _, hdecode⟩ := bind_eq_ok.mp hdecode
    rw [LawfulSerdeState.round_trip hvec] at hdecode
    obtain ⟨_, _, hdecode⟩ := bind_eq_ok.mp hdecode
    obtain ⟨_, _, hdecode⟩ := bind_eq_ok.mp hdecode
    cases hdecode
    rfl

end PersistShell
